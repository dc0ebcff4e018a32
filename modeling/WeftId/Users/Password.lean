import WeftId.OAuth.Tokens
import WeftId.Users.Accounts
import WeftId.Users.Tokens

/-!
Changing a password, resets forced by an administrator and account recovery by email.
-/

namespace WeftId

open Proc

namespace Db

def getPolicy (db : Db) : PasswordPolicy := db.passwordPolicy.getD {}

def getPasswordHash (db : Db) (userId : Id) : Option Text := (db.getUserById userId).bind (·.passwordHash)

def getUserByEmailForReset (db : Db) (env : Env) (email : Text) : Option User :=
  (db.findByEmail env email true).map (·.2)

/-- `get_user_by_id` with the textual form of an id. -/
def getUserByIdText (db : Db) (userId : Text) : Option User := db.users.find? (Numeral.uuid ·.id = userId)

end Db

variable (env : Env) {newPassword : Text} {db : Db}

def requireStrongPassword (userId : Id) (role : Role) (newPassword : Text) : Service Unit := do
  let policy ← read (·.getPolicy)
  let userInputs ← read fun db => (db.getPrimaryEmail userId).toList
  match env.validatePassword newPassword policy role userInputs with
  | some (message, code) => raise (.validation message code)
  | none => pure ()

theorem requireStrongPassword_spec {userId : Id} {role : Role} :
    (requireStrongPassword env userId role newPassword).Ensures db fun _ db' => db' = db := by
  unfold requireStrongPassword
  rw [ensures_read_bind, ensures_read_bind]
  split
  · exact ensures_raise _ |>.mpr rfl
  · exact ensures_pure _ |>.mpr rfl

def changePassword (user : RequestingUser) (currentPassword newPassword : Text) : Service Unit := do
  let hash ← orRaise (fun db => (db.getPasswordHash user.id).filter (· ≠ []))
    (.validation "This account does not use password authentication." "no_password")
  require (env.verifyPassword hash currentPassword)
    (.validation "Current password is incorrect." "invalid_current_password")
  require (¬ env.verifyPassword hash newPassword)
    (.validation "New password must be different from your current password." "password_same_as_current")
  requireStrongPassword env user.id user.role newPassword
  write (·.updatePassword user.id (env.hashPassword newPassword))

theorem changePassword_spec {user : RequestingUser} {currentPassword : Text} :
    (changePassword env user currentPassword newPassword).Ensures db (OrUnchanged db fun db' =>
      db' = db.updatePassword user.id (env.hashPassword newPassword)) := by
  refine .orRaise rfl fun hash _ => .require rfl fun _ => .require rfl fun _ => ?_
  refine (requireStrongPassword_spec env).bind ?_ fun _ _ h => h
  rintro _ _ rfl
  exact ensures_write _ |>.mpr rfl

def forcePasswordReset (user : RequestingUser) (targetUserId : Id) : Service Unit := do
  requireAdmin user
  require (user.id ≠ targetUserId)
    (.validation ("You cannot force a password reset on your own account. " ++
      "Use the password change page instead.") "cannot_force_reset_self")
  let target ← orRaise (·.getUserById targetUserId) (.notFound "User not found." "user_not_found")
  require target.passwordHash.isSome
    (.validation ("This user authenticates via an identity provider " ++ "and does not have a password.")
      "no_password")
  require (¬ target.isInactivated)
    (.validation "Cannot force password reset on an inactivated user." "user_inactivated")
  write (·.setPasswordResetRequired targetUserId true)
  write (·.revokeAllUserTokens targetUserId)

theorem forcePasswordReset_spec {user : RequestingUser} {targetUserId : Id} {db : Db} :
    (forcePasswordReset user targetUserId).Ensures db (OrUnchanged db fun db' =>
      (∃ target, db.getUserById targetUserId = some target ∧ target.passwordHash.isSome ∧ ¬ target.isInactivated) ∧
        db' = (db.setPasswordResetRequired targetUserId true).revokeAllUserTokens targetUserId) := by
  refine .require rfl fun _ => .require rfl fun _ => .orRaise rfl fun target htarget => ?_
  refine .require rfl fun hpassword => .require rfl fun hactive => ?_
  exact ⟨⟨target, htarget, hpassword, hactive⟩, rfl⟩

def completeForcedPasswordReset (userId : Id) (newPassword : Text) : Service Unit := do
  let user ← orRaise (·.getUserById userId) (.validation "User not found." "user_not_found")
  let hash ← read (·.getPasswordHash userId)
  require (¬ (hash.filter (· ≠ [])).any (env.verifyPassword · newPassword))
    (.validation "New password must be different from your current password." "password_same_as_current")
  requireStrongPassword env userId user.role newPassword
  write (·.updatePassword userId (env.hashPassword newPassword))

theorem completeForcedPasswordReset_spec (userId : Id) (newPassword : Text) (db : Db) :
    (completeForcedPasswordReset env userId newPassword).Ensures db (OrUnchanged db fun db' =>
      db' = db.updatePassword userId (env.hashPassword newPassword)) := by
  refine .orRaise rfl fun user _ => .read (.require rfl fun _ => ?_)
  refine (requireStrongPassword_spec env).bind ?_ fun _ _ h => h
  rintro _ _ rfl
  exact ensures_write _ |>.mpr rfl

def completeSelfServicePasswordReset (userId : Id) (newPassword : Text) : Service Unit := do
  let user ← orRaise (·.getUserById userId) (.validation "User not found." "user_not_found")
  requireStrongPassword env userId user.role newPassword
  write (·.updatePassword userId (env.hashPassword newPassword))
  write (·.revokeAllUserTokens userId)

theorem completeSelfServicePasswordReset_spec {userId : Id} :
    (completeSelfServicePasswordReset env userId newPassword).Ensures db (OrUnchanged db fun db' =>
      db' = (db.updatePassword userId (env.hashPassword newPassword)).revokeAllUserTokens userId) := by
  refine .orRaise rfl fun user _ => ?_
  refine (requireStrongPassword_spec env).bind ?_ fun _ _ h => h
  rintro _ _ rfl
  rfl

def recoveryTtl : Nat := 1800

def recoveryState (passwordChangedAt : Option Nat) (isInactivated : Bool) : Text :=
  ((passwordChangedAt.map Numeral.showTimestamp).getD "none") ++
    ':' :: (if isInactivated then "True" else "False").toList

structure RecoveryEmail where
  toEmail : Text
  recoveryUrl : Text

def recoveryUrl (baseUrl token : Text) : Text :=
  Text.rstrip '/' baseUrl ++ "/account-recovery/" ++ token

def requestPasswordReset (email baseUrl : Text) : Service (Option RecoveryEmail) := do
  let email := env.lower email.strip
  let found ← read (·.getUserByEmailForReset env email)
  let time ← read (·.time)
  match found with
  | none => pure none
  | some user =>
    if ¬ user.isInactivated ∧ user.samlIdpId.isSome then pure none
    else if ¬ user.isInactivated ∧ user.passwordHash = none ∧ user.samlIdpId = none then pure none
    else do
      let state := recoveryState user.passwordChangedAt user.isInactivated
      -- `str` refuses a longer time
      require ((Numeral.decimal time).length ≤ Numeral.maxDigits) (.exception "ValueError")
      let token := generateUrlToken env time (Numeral.uuid user.id) .accountRecovery (some state)
      pure (some { toEmail := email, recoveryUrl := recoveryUrl baseUrl token })

/-- `user.get("password_changed_at")` on a row of `get_user_by_id`, whose query does not select that
column. -/
def User.fetchedPasswordChangedAt (_ : User) : Option Nat := none

structure RecoveryInfo where
  userId : Text
  isInactivated : Bool
  hasPassword : Bool
  role : Role
  minimumPasswordLength : Nat
  minimumZxcvbnScore : Nat

def validateRecoveryToken (token : Text) : Service (Option RecoveryInfo) := do
  match extractUserIdFromUrlToken env token with
  | none | some [] => pure none
  | some userId => do
    let found ← read (·.getUserByIdText userId)
    match found with
    | none => pure none
    | some user => do
      let state := recoveryState user.fetchedPasswordChangedAt user.isInactivated
      let verified ← verifyUrlToken env token .accountRecovery recoveryTtl (some state)
      match verified with
      | none | some [] => pure none
      | some verifiedUserId => do
        let policy ← read (·.getPolicy)
        let minLength := policy.minimumPasswordLength
        pure (some {
          userId := verifiedUserId
          isInactivated := user.isInactivated
          hasPassword := user.passwordHash.isSome
          role := user.role
          minimumPasswordLength := if user.role = .superAdmin then max minLength 20 else minLength
          minimumZxcvbnScore := policy.minimumZxcvbnScore })

end WeftId
