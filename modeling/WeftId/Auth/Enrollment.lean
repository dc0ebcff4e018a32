import WeftId.Auth.Login
import WeftId.Auth.Mfa

/-!
The second step of a sign-in and the enrolment of a strong factor under the enhanced policy, with the
account pages that change a user's method.  Requests of any number of browsers run interleaved, statement by
statement.
-/

namespace WeftId

open Proc Run Endpoint

structure Outcome where
  response : Response
  session : Session
  /-- The user whose password the request accepted. -/
  passwordStep : Option Id := none
  /-- The user and the factor that the request verified. -/
  verified : Option (Id × Factor) := none
  /-- The user for whom the request completed a sign-in. -/
  completed : Option Id := none

def Error.isValidation : Error → Bool
  | .validation .. => true
  | _ => false

def Error.serviceCode : Error → Option String
  | .notFound _ code | .forbidden _ code _ | .validation _ code _ | .conflict _ code => some code
  | .scim .. | .database _ | .exception _ => none

def catchServiceError {α : Type} (x : Endpoint α) : Endpoint (Except String α) :=
  Fiber.rescue (Except.ok <$> x) fun e =>
    match e.serviceCode with
    | some code => pure (.error code)
    | none => Fiber.raise e

def catchValidationError {α : Type} (x : Endpoint α) : Endpoint (Option α) :=
  Fiber.rescue (some <$> x) fun e => if e.isValidation then pure none else Fiber.raise e

def Response.location : Response → Text
  | .redirect url => url.toList
  | _ => []

variable (env : Env)

def signIn (session : Session) (request : LoginRequest) : Endpoint Outcome := do
  let (response, after) ← call (login env session request)
  pure { response, session := after
         passwordStep := if response = .redirect "/mfa/verify" then after.pendingMfaUserId else none }

def completeLogin (session : Session) (userId : Id) (verified : Option (Id × Factor)) (timezone locale : Text) :
    Endpoint Outcome := do
  let (response, after) ← call (completeAuthenticatedLogin session userId timezone locale)
  pure { response, session := after, verified, completed := some userId }

structure VerifyRequest where
  code : Text
  timezone : Text := []
  locale : Text := []
  /-- The rate limiter refuses the request. -/
  blocked : Bool := false

/-- Whether a code is one of the user's authenticator; asked only if TOTP was the method at the password step. -/
def verifyPrimaryTotp (userId : Id) (pendingMethod : Option MfaMethod) (code : Text) : Endpoint Bool :=
  if pendingMethod = some .totp then do
    let secret ← query (·.getVerifiedTotpSecret userId)
    match secret with
    | none | some [] => pure false
    | some secret => query fun db => verifyTotpCode env secret db.time code
  else pure false

/-- The factor that a code verifies: the authenticator, then the code sent by email, then a backup code. -/
def verifySecondFactor (userId : Id) (pendingMethod : Option MfaMethod) (code : Text) : Endpoint (Option Factor) := do
  let byTotp ← verifyPrimaryTotp env userId pendingMethod code
  if byTotp then pure (some .totp)
  else do
    let byEmail ← verifyEmailOtp env userId code
    if byEmail then pure (some .email)
    else do
      let byBackupCode ← verifyBackupCode env userId code
      pure (if byBackupCode then some .backupCode else none)

def mustEnroll (user : Option User) (verifiedVia : Factor) : Endpoint Bool :=
  match user with
  | some user => userMustEnrollEnhanced user (some verifiedVia)
  | none => pure false

def mfaVerify (session : Session) (request : VerifyRequest) : Endpoint Outcome :=
  match session.pendingMfaUserId with
  | none => pure { response := .redirect "/login", session }
  | some userId =>
    if request.blocked then
      pure { response := .page "mfa_verify.html" (some "Too many attempts. Please try again later."), session }
    else do
      let verifiedVia ← verifySecondFactor env userId session.pendingMfaMethod (cleanCode request.code)
      match verifiedVia with
      | none => pure { response := .page "mfa_verify.html" (some "Invalid or expired code"), session }
      | some factor => do
        let user ← query (·.getUserById userId)
        let enroll ← mustEnroll user factor
        if enroll then
          pure { response := .redirect "/login/enroll-enhanced-auth"
                 session := { session with
                   pendingTimezone := if request.timezone = [] then session.pendingTimezone else some request.timezone
                   pendingLocale := if request.locale = [] then session.pendingLocale else some request.locale
                   pendingEnhancedEnrollmentUserId := some userId }
                 verified := some (userId, factor) }
        else completeLogin session userId (some (userId, factor)) request.timezone request.locale

/-- The enrolment gate and the keys of the second step are dropped before the sign-in is completed. -/
def Session.clearPending (session : Session) : Session :=
  { session with pendingEnhancedEnrollmentUserId := none, pendingMfaUserId := none, pendingMfaMethod := none }

/-- The page of the enrolment.  A user read as being on TOTP whose secret is not found afterwards is taken for
enrolled and signed in. -/
def enrollEnhancedAuthPage (session : Session) (error : Option String) : Endpoint Outcome :=
  match session.pendingEnhancedEnrollmentUserId with
  | none => pure { response := .redirect "/login", session }
  | some userId => do
    let user ← query (·.getUserById userId)
    match user with
    | none =>
      pure { response := .redirect "/login", session := { session with pendingEnhancedEnrollmentUserId := none } }
    | some user => do
      let setup ← Fiber.rescue (some <$> setupTotp env user) fun e =>
        if e.isValidation then getPendingTotpSetup env userId else Fiber.raise e
      match setup with
      | none => completeLogin session.clearPending user.id none [] []
      | some setup =>
        pure { response := .page "enroll_enhanced_auth.html" error [("secret", setup.secret), ("uri", setup.uri)],
               session }

def enrollEnhancedAuthVerify (session : Session) (code : Text) (blocked : Bool) : Endpoint Outcome :=
  match session.pendingEnhancedEnrollmentUserId with
  | none => pure { response := .redirect "/login", session }
  | some userId =>
    if blocked then pure { response := .redirect "/login/enroll-enhanced-auth?error=too_many_attempts", session }
    else do
      let user ← query (·.getUserById userId)
      match user with
      | none =>
        pure { response := .redirect "/login", session := { session with pendingEnhancedEnrollmentUserId := none } }
      | some user => do
        let enabled ← catchValidationError (verifyTotpAndEnable env user code)
        match enabled with
        | none => pure { response := .redirect "/login/enroll-enhanced-auth?error=invalid_code", session }
        | some _ => completeLogin session.clearPending user.id (some (user.id, .totp)) [] []

def resolvePendingUser (session : Session) : Endpoint (Option User × Session) :=
  match session.pendingEnhancedEnrollmentUserId with
  | none => pure (none, session)
  | some userId => do
    let user ← query (·.getUserById userId)
    pure (user, if user.isSome then session else { session with pendingEnhancedEnrollmentUserId := none })

def beginRegistration (session : Session) (userId : Id) : Endpoint (List (String × Text) × Session) := do
  let user ← call (orRaise (·.getUserById userId) (.validation "User not found" "user_not_found"))
  let primary ← query (·.getPrimaryEmail userId)
  let email := primary.getD ("user-" ++ Numeral.uuid userId ++ "@example.invalid")
  let displayName := Text.strip (user.firstName ++ ' ' :: user.lastName)
  let existing ← query fun db => (db.webauthnCredentials.filter (·.userId = userId)).map (·.credentialId)
  let challenge ← call (draw env.registrationChallenge)
  let time ← query (·.time)
  pure ([("challenge", challenge), ("user_name", email),
      ("user_display_name", if displayName = [] then email else displayName)] ++ existing.map ("exclude", ·),
    { session with webauthnRegChallenge := some challenge, webauthnRegChallengeAt := some time })

structure RegistrationPayload where
  name : Text
  response : Text

def completeRegistration (session : Session) (userId : Id) (payload : RegistrationPayload) :
    Endpoint (Option (List Text)) :=
  match session.webauthnRegChallenge, session.webauthnRegChallengeAt with
  | none, _ | some [], _ | _, none | _, some 0 =>
    Fiber.raise (.validation "No passkey registration in progress" "no_registration_in_progress")
  | some challenge, some challengeAt => do
    let time ← query (·.time)
    Fiber.require (time - challengeAt ≤ 300)
      (.validation "Passkey registration session expired. Please start over." "registration_session_expired")
    match env.verifyRegistration payload.response challenge with
    | .error reason =>
      Fiber.raise (.validation ("Passkey registration failed: " ++ reason) "registration_verification_failed")
    | .ok verified => do
      let existingCount ← query (·.countCredentials userId)
      let _ ← call (tx (·.createCredential userId verified payload.name))
      if existingCount = 0 then do
        let existingCodes ← query (·.listBackupCodes userId)
        if existingCodes = [] then some <$> generateAndStoreBackupCodes env userId else pure none
      else pure none

def enrollEnhancedAuthPasskeyBegin (session : Session) (blocked : Bool) : Endpoint Outcome := do
  let (user, session) ← resolvePendingUser session
  match user with
  | none => pure { response := .json 403 (some "no_pending_enrollment"), session }
  | some user =>
    if blocked then pure { response := .json 429 (some "too_many_requests"), session }
    else do
      let result ← catchServiceError (beginRegistration env session user.id)
      match result with
      | .error code => pure { response := .json 400 (some code), session }
      | .ok (options, session) => pure { response := .json 200 none options, session }

inductive RegistrationBody
  | invalidJson
  | invalidPayload
  | payload (payload : RegistrationPayload)

def enrollEnhancedAuthPasskeyComplete (session : Session) (body : RegistrationBody) (blocked : Bool) :
    Endpoint Outcome := do
  let (user, session) ← resolvePendingUser session
  match user with
  | none => pure { response := .json 403 (some "no_pending_enrollment"), session }
  | some user =>
    if blocked then pure { response := .json 429 (some "too_many_requests"), session }
    else match body with
      | .invalidJson => pure { response := .json 400 (some "invalid_json"), session }
      | .invalidPayload => pure { response := .json 400 (some "invalid_payload"), session }
      | .payload payload => do
        -- The challenge is popped from the session before anything is checked.
        let popped := { session with webauthnRegChallenge := none, webauthnRegChallengeAt := none }
        let result ← catchServiceError (completeRegistration env session user.id payload)
        match result with
        | .error code => pure { response := .json 400 (some code), session := popped }
        | .ok backupCodes => do
          let outcome ← completeLogin popped.clearPending user.id (some (user.id, .passkey)) [] []
          let content := (backupCodes.getD []).map ("backup_code", ·)
          pure { outcome with response := .json 200 none (("redirect_url", outcome.response.location) :: content) }

def withCurrentUser (session : Session) (page : User → Session → Endpoint Outcome) : Endpoint Outcome := do
  let (user, session) ← call (getCurrentUser session)
  match user with
  | none => pure { response := .redirect "/login", session }
  | some user => page user session

def mfaSetupTotp (user : User) (session : Session) : Endpoint Outcome := do
  let setup ← catchValidationError (setupTotp env user)
  match setup with
  | none => pure { response := .redirect "/account/mfa", session }
  | some setup =>
    pure { response := .page "mfa_setup_totp.html" none [("secret", setup.secret), ("uri", setup.uri)], session }

def mfaSetupEmail (user : User) (session : Session) : Endpoint Outcome := do
  let result ← enableEmailMfa env user
  match result with
  | .inr _ =>
    pure { response := .redirect "/account/mfa/downgrade-verify",
           session := { session with pendingMfaDowngrade := true } }
  | .inl _ => pure { response := .redirect "/account/mfa", session }

def mfaSetupVerify (user : User) (session : Session) (code method : Text) : Endpoint Outcome :=
  if method ≠ "totp" then pure { response := .redirect "/account/mfa", session }
  else do
    let result ← Fiber.rescue (Except.ok <$> verifyTotpAndEnable env user code) fun e =>
      match e with
      | .validation _ "invalid_totp_code" _ => Except.error <$> getPendingTotpSetup env user.id
      | .validation .. => pure (.error none)
      | e => Fiber.raise e
    match result with
    | .ok codes => pure { response := .page "mfa_backup_codes.html" none (codes.map ("backup_code", ·)), session }
    | .error none => pure { response := .redirect "/account/mfa", session }
    | .error (some setup) =>
      pure { response := .page "mfa_setup_totp.html" (some "Invalid code")
               [("secret", setup.secret), ("uri", setup.uri)],
             session }

def mfaDowngradeVerify (user : User) (session : Session) (code : Text) : Endpoint Outcome :=
  if session.pendingMfaDowngrade = false then pure { response := .redirect "/account/mfa", session }
  else do
    let result ← Fiber.rescue (Except.ok <$> verifyMfaDowngrade env user code) fun e =>
      match e with
      | .validation _ code _ => pure (.error code)
      | e => Fiber.raise e
    match result with
    | .ok _ =>
      pure { response := .redirect "/account/mfa?downgraded=1",
             session := { session with pendingMfaDowngrade := false } }
    | .error "invalid_email_otp" =>
      pure { response := .page "mfa_downgrade_verify.html" (some "Invalid or expired code"), session }
    | .error _ => pure { response := .redirect "/account/mfa", session }

def resetMfa (user : User) (session : Session) (targetUserId : Id) : Endpoint Outcome :=
  if user.role = .member then pure { response := .redirect "/dashboard", session }
  else do
    let danger := "/users/" ++ String.ofList (Numeral.uuid targetUserId) ++ "/danger"
    let response ← Fiber.rescue
      (do
        let _ ← resetUserMfa ⟨user.id, user.role⟩ targetUserId
        pure (.redirect (danger ++ "?success=mfa_reset")))
      fun e => match e with
        | .notFound .. => pure (.redirect "/users/list?error=user_not_found")
        | .validation _ code _ => pure (.redirect (danger ++ "?error=" ++ code))
        | .forbidden message _ _ | .conflict message _ => pure (.page "error.html" (some message))
        | e => Fiber.raise e
    pure { response, session }

inductive HttpRequest
  | login (request : LoginRequest)
  | mfaVerify (request : VerifyRequest)
  | enrollEnhancedAuthPage (error : Option String)
  | enrollEnhancedAuthVerify (code : Text) (blocked : Bool)
  | enrollEnhancedAuthPasskeyBegin (blocked : Bool)
  | enrollEnhancedAuthPasskeyComplete (body : RegistrationBody) (blocked : Bool)
  | mfaSetupTotp
  | mfaSetupEmail
  | mfaSetupVerify (code method : Text)
  | mfaDowngradeVerify (code : Text)
  | resetMfa (targetUserId : Id)

def handle (session : Session) : HttpRequest → Endpoint Outcome
  | .login request => signIn env session request
  | .mfaVerify request => WeftId.mfaVerify env session request
  | .enrollEnhancedAuthPage error => WeftId.enrollEnhancedAuthPage env session error
  | .enrollEnhancedAuthVerify code blocked => WeftId.enrollEnhancedAuthVerify env session code blocked
  | .enrollEnhancedAuthPasskeyBegin blocked => WeftId.enrollEnhancedAuthPasskeyBegin env session blocked
  | .enrollEnhancedAuthPasskeyComplete body blocked =>
    WeftId.enrollEnhancedAuthPasskeyComplete env session body blocked
  | .mfaSetupTotp => withCurrentUser session (WeftId.mfaSetupTotp env)
  | .mfaSetupEmail => withCurrentUser session (WeftId.mfaSetupEmail env)
  | .mfaSetupVerify code method => withCurrentUser session fun user session =>
    WeftId.mfaSetupVerify env user session code method
  | .mfaDowngradeVerify code => withCurrentUser session fun user session =>
    WeftId.mfaDowngradeVerify env user session code
  | .resetMfa targetUserId => withCurrentUser session fun user session => WeftId.resetMfa user session targetUserId

end WeftId
