import WeftId.Db
import WeftId.Lib.Json
import WeftId.Lib.Numeral

/-!
What the model takes as given: the Unicode tables of the runtime, its random draws and the third-party
password, TOTP and passkey functions.  Every result holds for all of them unless it names a hypothesis.
-/

namespace WeftId

structure VerifiedRegistration where
  credentialId : Text
  credentialPublicKey : Text
  signCount : Nat
  credentialBackedUp : Bool

structure VerifiedAuthentication where
  newSignCount : Nat
  credentialBackedUp : Bool
  deriving DecidableEq

inductive AssertionError
  | signCountRegression
  | invalid

structure Env where
  /-- `str.lower`. -/
  lower : Text → Text
  /-- `str.upper`. -/
  upper : Text → Text
  /-- `str.isdigit` of one character. -/
  isDigit : Char → Bool
  /-- The form under which the `citext` type compares. -/
  citext : Text → Text
  /-- What `str` prints for an array or an object. -/
  showContainer : Json → Text
  /-- The value of a Unicode decimal digit outside ASCII. -/
  decimalValue : Char → Option Nat
  hashPassword : Text → Text
  verifyPassword (hash password : Text) : Bool
  /-- The message and code of the first strength issue, if there is one. -/
  validatePassword (password : Text) (policy : PasswordPolicy) (role : Role) (userInputs : List Text) :
    Option (String × String)
  /-- The hex digest of a message under the token key. -/
  hmac : Text → Text
  /-- The 256-bit digest of a message under the token key. -/
  hmacDigest : Text → Nat
  /-- The hash under which a backup code is stored. -/
  hashCode : Text → Text
  /-- The development setting that accepts any six digits. -/
  bypassOtp : Bool
  /-- A TOTP code against a secret at a time in seconds, with one step of tolerance. -/
  verifyTotp (secret : Text) (time : Nat) (code : Text) : Bool
  /-- The `otpauth` address of a secret. -/
  totpUri (secret email : Text) : Text
  /-- The credential of a registration response that answers the challenge, or why it is refused. -/
  verifyRegistration (response challenge : Text) : Except String VerifiedRegistration
  /-- The sign count in the authenticator data of an assertion. -/
  assertionSignCount : Text → Nat
  /-- An assertion against the challenge, the public key and the current sign count. -/
  verifyAuthentication (response challenge publicKey : Text) (currentSignCount : Nat) :
    Except AssertionError VerifiedAuthentication
  /-- Random draws, by the counter value at which they are made. -/
  randomBase32 : Id → Text
  tokenHex : Id → Text
  registrationChallenge : Id → Text
  authenticationChallenge : Id → Text
  opaqueToken : Id → Text
  userCode : Id → Text
  /-- The S256 challenge of a PKCE verifier. -/
  pkceChallenge : Text → Text
  /-- Token lifetimes in seconds. -/
  accessTokenExpiry : Nat
  refreshTokenExpiry : Nat
  clientCredentialsTokenExpiry : Nat
  authorizationCodeExpiry : Nat
  /-- The microseconds that a token request spends on hashes before it takes the clock for its access token. -/
  tokenPause : Nat := 0

def Env.digitValue (env : Env) (c : Char) : Option Nat :=
  if Text.isAsciiDigit c then some (c.toNat - 48) else env.decimalValue c

theorem Env.digitValue_digitChar (env : Env) {d : Nat} (hd : d < 10) :
    env.digitValue (Numeral.digitChar d) = some d := by
  have hascii : ∀ d < 10, Text.isAsciiDigit (Numeral.digitChar d) = true ∧ (Numeral.digitChar d).toNat - 48 = d := by
    decide
  rw [Env.digitValue, if_pos (hascii d hd).1, (hascii d hd).2]

/-- What `\d` matches. -/
def Env.isDecimal (env : Env) (c : Char) : Bool := (env.digitValue c).isSome

def Env.ascii : Env where
  lower := List.map Char.toLower
  upper := List.map Char.toUpper
  isDigit := Text.isAsciiDigit
  citext := List.map Char.toLower
  showContainer := fun _ => "..."
  decimalValue := fun _ => none
  hashPassword := fun password => 'h' :: password
  verifyPassword := fun hash password => hash = 'h' :: password
  validatePassword := fun _ _ _ _ => none
  hmac := fun message => message.flatMap fun c => Numeral.hexDigits c.toNat
  hmacDigest := fun message => message.length
  hashCode := fun code => 'c' :: code
  bypassOtp := false
  verifyTotp := fun secret _ code => code = 't' :: secret
  totpUri := fun secret email => email ++ ':' :: secret
  verifyRegistration := fun response challenge =>
    if response = challenge then .ok ⟨response, response, 0, false⟩ else .error "bad challenge"
  assertionSignCount := fun response => response.length
  verifyAuthentication := fun response challenge publicKey current =>
    if response ≠ challenge ++ publicKey then .error .invalid
    else if response.length ≤ current ∧ (response.length ≠ 0 ∨ current ≠ 0) then .error .signCountRegression
    else .ok ⟨response.length, false⟩
  randomBase32 := Numeral.decimal
  tokenHex := fun draw => Numeral.padded 8 draw
  registrationChallenge := Numeral.decimal
  authenticationChallenge := Numeral.decimal
  opaqueToken := Numeral.decimal
  userCode := Numeral.decimal
  pkceChallenge := fun verifier => 's' :: verifier
  accessTokenExpiry := 3600
  refreshTokenExpiry := 2592000
  clientCredentialsTokenExpiry := 86400
  authorizationCodeExpiry := 300

end WeftId
