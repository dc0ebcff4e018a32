import WeftId.Auth.Session
import WeftId.Lib.Fiber

/-!
Second factors: TOTP secrets, backup codes, codes sent by email and passkeys.  The service calls are fibers
whose steps are the single statements sent to the database, because requests of other browsers run between
them.
-/

namespace WeftId

open Proc

inductive Factor
  | email
  | totp
  | backupCode
  | passkey
  deriving DecidableEq

inductive Site
  | pendingTotpSetup (userId : Id)
  | statement

abbrev Endpoint (α : Type) := Fiber Site Db Error α

namespace Endpoint

def call {α : Type} (service : Service α) : Endpoint α := Fiber.atomic .statement service

def query {α : Type} (f : Db → α) : Endpoint α := call (read f)

def execute (f : Db → Db) : Endpoint Unit := call (write f)

end Endpoint

namespace Db

def getRequiredAuthStrength (db : Db) : AuthStrength :=
  (db.securitySettings.map (·.requiredAuthStrength)).getD .baseline

def enableMfa (db : Db) (userId : Id) (method : MfaMethod) : Db :=
  db.updateUser userId fun u => { u with mfaEnabled := true, mfaMethod := some method }

def setMfaMethod (db : Db) (userId : Id) (method : MfaMethod) : Db :=
  db.updateUser userId fun u => { u with mfaMethod := some method }

def updateMfaStatus (db : Db) (userId : Id) (enabled : Bool) : Db :=
  db.updateUser userId fun u => { u with mfaEnabled := enabled }

def createTotpSecret (db : Db) (userId : Id) (secret : Text) : Except DbError (Unit × Db) :=
  if db.getUserById userId = none then .error (.foreignKeyViolation "fk_mfa_totp_user_tenant")
  else .ok ((), { db with mfaTotp := KeyedRows.store (·.userId) { userId, secret } db.mfaTotp })

def getTotpSecret (db : Db) (userId : Id) : Option Text := (db.mfaTotp.find? (·.userId = userId)).map (·.secret)

def getVerifiedTotpSecret (db : Db) (userId : Id) : Option Text :=
  (db.mfaTotp.find? fun row => row.userId = userId ∧ row.verifiedAt.isSome).map (·.secret)

def verifyTotpSecret (db : Db) (userId : Id) : Db :=
  { db with mfaTotp := db.mfaTotp.map fun row =>
      if row.userId = userId then { row with verifiedAt := some db.now } else row }

def deleteTotpSecrets (db : Db) (userId : Id) : Db :=
  { db with mfaTotp := db.mfaTotp.filter (·.userId ≠ userId) }

def listBackupCodes (db : Db) (userId : Id) : List BackupCode := db.mfaBackupCodes.filter (·.userId = userId)

def createBackupCode (db : Db) (userId : Id) (codeHash : Text) : Except DbError (Unit × Db) :=
  if db.getUserById userId = none then .error (.foreignKeyViolation "fk_mfa_backup_codes_user_tenant")
  else .ok ((), { db with
    nextId := db.nextId + 1
    mfaBackupCodes := db.mfaBackupCodes ++ [{ id := db.nextId, userId, codeHash }] })

def getUnusedBackupCode (db : Db) (userId : Id) (codeHash : Text) : Option BackupCode :=
  db.mfaBackupCodes.find? fun c => c.userId = userId ∧ c.codeHash = codeHash ∧ c.usedAt = none

def markBackupCodeUsed (db : Db) (id : Id) : Db :=
  { db with mfaBackupCodes := db.mfaBackupCodes.map fun c => if c.id = id then { c with usedAt := some db.now } else c }

def deleteBackupCodes (db : Db) (userId : Id) : Db :=
  { db with mfaBackupCodes := db.mfaBackupCodes.filter (·.userId ≠ userId) }

def countCredentials (db : Db) (userId : Id) : Nat := (db.webauthnCredentials.filter (·.userId = userId)).length

def createCredential (db : Db) (userId : Id) (verified : VerifiedRegistration) (name : Text) :
    Except DbError (Id × Db) :=
  if db.webauthnCredentials.any (·.credentialId = verified.credentialId) then
    .error (.uniqueViolation "webauthn_credentials_credential_id_key")
  else if db.getUserById userId = none then .error (.foreignKeyViolation "webauthn_credentials_user_id_fkey")
  else .ok (db.nextId, { db with
    nextId := db.nextId + 1
    webauthnCredentials := db.webauthnCredentials ++ [{
      id := db.nextId
      userId
      credentialId := verified.credentialId
      publicKey := verified.credentialPublicKey
      name
      signCount := verified.signCount
      -- both columns are filled from the backed-up flag
      backupEligible := verified.credentialBackedUp
      backupState := verified.credentialBackedUp }] })

end Db

def draw (f : Id → Text) : Service Text := do
  let id ← read (·.nextId)
  write fun db => { db with nextId := db.nextId + 1 }
  pure (f id)

open Endpoint

variable (env : Env)

/-- `code.replace(" ", "").replace("-", "")`. -/
def cleanCode (code : Text) : Text := code.filter fun c => c ≠ ' ' ∧ c ≠ '-'

def verifyTotpCode (secret : Text) (time : Nat) (code : Text) : Bool :=
  (env.bypassOtp && code.length = 6 && code.all env.isDigit) || env.verifyTotp secret time code

def formatSecretForDisplay : Text → Text
  | a :: b :: c :: d :: e :: rest => a :: b :: c :: d :: '-' :: formatSecretForDisplay (e :: rest)
  | secret => secret

def backupCode (hex : Text) : Text := (env.upper hex).take 4 ++ '-' :: (env.upper hex).drop 4

def createEmailOtp (userId : Id) : Endpoint Text :=
  query fun db => generateCode env db.time (Numeral.uuid userId) .mfaEmail 300 none

def verifyEmailOtp (userId : Id) (code : Text) : Endpoint Bool :=
  call (verifyCode env code (Numeral.uuid userId) .mfaEmail 300 1 none)

def verifyBackupCode (userId : Id) (code : Text) : Endpoint Bool := do
  let codeHash := env.hashCode ((env.upper code).filter (· ≠ '-'))
  let row ← query (·.getUnusedBackupCode userId codeHash)
  match row with
  | none => pure false
  | some row => do
    execute (·.markBackupCodeUsed row.id)
    pure true

def generateAndStoreBackupCodes (userId : Id) : Endpoint (List Text) := do
  execute (·.deleteBackupCodes userId)
  let codes ← Fiber.collect (List.replicate 10 (call (draw fun id => backupCode env (env.tokenHex id))))
  Fiber.forEach codes fun code => call (tx (·.createBackupCode userId (env.hashCode (code.filter (· ≠ '-')))))
  pure codes

structure TotpSetup where
  secret : Text
  uri : Text

def totpSetup (secret : Text) (email : Option Text) : TotpSetup where
  secret := formatSecretForDisplay secret
  uri := env.totpUri secret (email.getD "user@example.com")

def setupTotp (user : User) : Endpoint TotpSetup := do
  Fiber.require (user.mfaMethod ≠ some .totp)
    (.validation "TOTP is already active. Downgrade to email MFA first to reconfigure." "totp_already_active")
  let secret ← call (draw env.randomBase32)
  let email ← query (·.getPrimaryEmail user.id)
  call (tx (·.createTotpSecret user.id secret))
  pure (totpSetup env secret email)

def getPendingTotpSetup (userId : Id) : Endpoint (Option TotpSetup) := do
  let row ← Fiber.atomic (.pendingTotpSetup userId) (read (·.getTotpSecret userId))
  match row with
  | none => pure none
  | some secret => do
    let email ← query (·.getPrimaryEmail userId)
    pure (some (totpSetup env secret email))

def verifyTotpAndEnable (user : User) (code : Text) : Endpoint (List Text) := do
  let row ← query (·.getTotpSecret user.id)
  match row with
  | none => Fiber.raise (.validation "No TOTP setup in progress. Start setup first." "no_totp_pending")
  | some secret => do
    let valid ← query fun db => verifyTotpCode env secret db.time (cleanCode code)
    Fiber.require (valid = true) (.validation "Invalid TOTP code" "invalid_totp_code")
    execute (·.verifyTotpSecret user.id)
    execute (·.enableMfa user.id .totp)
    generateAndStoreBackupCodes env user.id

structure MfaStatus where
  enabled : Bool
  method : Option MfaMethod
  hasBackupCodes : Bool
  backupCodesRemaining : Nat

def buildMfaStatus (user : User) : Endpoint MfaStatus := do
  let codes ← query (·.listBackupCodes user.id)
  pure { enabled := user.mfaEnabled, method := user.mfaMethod, hasBackupCodes := codes ≠ [],
         backupCodesRemaining := (codes.filter (·.usedAt = none)).length }

def getRefreshedUser (userId : Id) : Endpoint User :=
  call (orRaise (·.getUserById userId) (.validation "Failed to retrieve user" "user_retrieval_failed"))

def enableEmailMfa (user : User) : Endpoint (MfaStatus ⊕ Text × Text) :=
  if user.mfaMethod = some .totp then do
    let email ← call (orRaise (·.getPrimaryEmail user.id)
      (.validation "No primary email found for verification" "no_primary_email"))
    let code ← createEmailOtp env user.id
    pure (.inr (email, code))
  else do
    execute (·.enableMfa user.id .email)
    let updated ← getRefreshedUser user.id
    .inl <$> buildMfaStatus updated

def verifyMfaDowngrade (user : User) (code : Text) : Endpoint MfaStatus := do
  Fiber.require (user.mfaMethod = some .totp)
    (.validation "This endpoint is only for downgrading from TOTP to email MFA" "invalid_mfa_state")
  let valid ← verifyEmailOtp env user.id (cleanCode code)
  Fiber.require (valid = true) (.validation "Invalid or expired verification code" "invalid_email_otp")
  execute (·.setMfaMethod user.id .email)
  execute (·.deleteTotpSecrets user.id)
  let updated ← getRefreshedUser user.id
  buildMfaStatus updated

def resetUserMfa (requestingUser : RequestingUser) (targetUserId : Id) : Endpoint MfaStatus := do
  call (requireAdmin requestingUser)
  let _ ← call (orRaise (·.getUserById targetUserId) (.notFound "User not found" "user_not_found"))
  execute (·.updateMfaStatus targetUserId false)
  execute (·.deleteTotpSecrets targetUserId)
  execute (·.deleteBackupCodes targetUserId)
  let updated ← getRefreshedUser targetUserId
  buildMfaStatus updated

def userMustEnrollEnhanced (user : User) (loginMfaMethod : Option Factor) : Endpoint Bool := do
  let policy ← query (·.getRequiredAuthStrength)
  if policy ≠ .enhanced then pure false
  else if loginMfaMethod = some .email then pure true
  else if user.mfaMethod = some .totp then pure false
  else do
    let passkeyCount ← query (·.countCredentials user.id)
    pure (passkeyCount = 0)

end WeftId
