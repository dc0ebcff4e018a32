import WeftId.Users.Password

/-!
Inactivating, reactivating and anonymizing accounts, by an administrator and by the background jobs.
-/

namespace WeftId

open Proc

variable {user : RequestingUser} {userId : Id} {db : Db}

def Db.countActiveSuperAdmins (db : Db) : Nat := db.users.countP fun u => u.role = .superAdmin ∧ ¬ u.isInactivated

def Db.clearReactivationDenied (db : Db) (userId : Id) : Db :=
  db.updateUser userId fun u => { u with reactivationDeniedAt := none }

/-- The checks that `inactivate_user` and `anonymize_user` make of their target. -/
def requireRemovable (user : RequestingUser) (userId : Id) (verb noun : String) (done : User → Bool) :
    Service Unit := do
  let target ← orRaise (·.getUserById userId) (.notFound "User not found" "user_not_found")
  require (target.id ≠ user.id) (.validation ("Cannot " ++ verb ++ " your own account") ("self_" ++ noun))
  let isServiceUser ← read fun db => decide (userId ∈ db.serviceUsers)
  require (¬ isServiceUser) (.validation
    ("Cannot " ++ verb ++ " service user. Delete the associated OAuth2 client first.") ("service_user_" ++ noun))
  require (¬ done target) (.validation ("User is already " ++ verb ++ "d") ("already_" ++ verb ++ "d"))
  let activeSuperAdmins ← read (·.countActiveSuperAdmins)
  require (target.role = .superAdmin → 1 < activeSuperAdmins)
    (.validation ("Cannot " ++ verb ++ " the last super_admin") "last_super_admin")

theorem requireRemovable_spec {verb noun : String} {done : User → Bool} :
    (requireRemovable user userId verb noun done).Ensures db fun r db' => db' = db ∧ (r = .ok () →
      ∃ target, db.getUserById userId = some target ∧ ¬ done target ∧
        (target.role = .superAdmin → 1 < db.countActiveSuperAdmins)) := by
  refine .orRaise ⟨rfl, nofun⟩ fun target htarget => .require ⟨rfl, nofun⟩ fun _ => ?_
  refine .read (.require ⟨rfl, nofun⟩ fun _ => .require ⟨rfl, nofun⟩ fun hdone => .read ?_)
  exact ensures_require.mpr ⟨fun hcount => ⟨rfl, fun _ => ⟨target, htarget, hdone, hcount⟩⟩, fun _ => ⟨rfl, nofun⟩⟩

def inactivateUser (user : RequestingUser) (userId : Id) : Service Unit := do
  requireAdmin user
  requireRemovable user userId "inactivate" "inactivation" (·.isInactivated)
  write (·.inactivateUser userId)
  write (·.revokeAllUserTokens userId)
  write (·.consumeUserSessionClients userId)

theorem inactivateUser_spec :
    (inactivateUser user userId).Ensures db (OrUnchanged db fun db' =>
      (∃ target, db.getUserById userId = some target ∧ ¬ target.isInactivated) ∧
        db' = ((db.inactivateUser userId).revokeAllUserTokens userId).consumeUserSessionClients userId) := by
  refine .require rfl fun _ => requireRemovable_spec.bind (fun _ db' h => ?_) fun _ _ h => h.1
  obtain ⟨rfl, hremovable⟩ := h
  obtain ⟨target, htarget, hactive, -⟩ := hremovable rfl
  exact ⟨⟨target, htarget, hactive⟩, rfl⟩

def reactivateUser (user : RequestingUser) (userId : Id) : Service Unit := do
  requireAdmin user
  let target ← orRaise (·.getUserById userId) (.notFound "User not found" "user_not_found")
  require (¬ target.isAnonymized)
    (.validation "Cannot reactivate anonymized user - anonymization is irreversible" "anonymized_user")
  require target.isInactivated (.validation "User is not inactivated" "not_inactivated")
  write (·.reactivateUser userId)
  write (·.clearReactivationDenied userId)

theorem reactivateUser_spec :
    (reactivateUser user userId).Ensures db (OrUnchanged db fun db' =>
      (∃ target, db.getUserById userId = some target ∧ target.isInactivated) ∧
        db' = (db.reactivateUser userId).clearReactivationDenied userId) := by
  refine .require rfl fun _ => .orRaise rfl fun target htarget => .require rfl fun _ => .require rfl fun h => ?_
  exact ⟨⟨target, htarget, h⟩, rfl⟩

namespace Db

/-- The writes of every inactivation: the flag, the tokens and the record of the clients signed in to. -/
def deactivate (db : Db) (userId : Id) : Db :=
  ((db.inactivateUser userId).revokeAllUserTokens userId).consumeUserSessionClients userId

def anonymizeUserEmails (db : Db) (userId : Id) : Db :=
  { db with userEmails := db.userEmails.map fun e =>
      if e.userId = userId then
        { e with email := "anon-" ++ Numeral.uuid e.id ++ "@anonymized.example.com", verifiedAt := none }
      else e }

def deleteAllUserMfaData (db : Db) (userId : Id) : Db :=
  { db with
    mfaTotp := db.mfaTotp.filter (·.userId ≠ userId)
    mfaBackupCodes := db.mfaBackupCodes.filter (·.userId ≠ userId) }

def anonymizeUser (db : Db) (userId : Id) : Db :=
  db.updateUser userId fun u =>
    if u.isAnonymized then u
    else { u with
      isInactivated := true
      isAnonymized := true
      firstName := "[Anonymized]"
      lastName := "User"
      inactivatedAt := some (u.inactivatedAt.getD db.now)
      passwordHash := none
      mfaEnabled := false
      mfaMethod := none
      tz := none
      locale := none }

def eraseUserIdentityData (db : Db) (userId : Id) : Db :=
  { db with
    oidcIdpUserLinks := db.oidcIdpUserLinks.filter (·.userId ≠ userId)
    userOidcIdpAttributes := db.userOidcIdpAttributes.filter (·.userId ≠ userId)
    userIdpAttributes := db.userIdpAttributes.filter (·.userId ≠ userId)
    userAttributes := db.userAttributes.filter (·.userId ≠ userId)
    oidcIdpSessions := db.oidcIdpSessions.filter (·.userId ≠ userId)
    webauthnCredentials := db.webauthnCredentials.filter (·.userId ≠ userId) }

def getIdleUsersForTenant (db : Db) (lastActivityAt : Id → Option Nat) (thresholdDays : Nat) : List User :=
  db.users.filter fun u => ¬ u.isInactivated ∧ ¬ u.isAnonymized ∧
    (∀ t ∈ lastActivityAt u.id, t + thresholdDays * (24 * 3600 * 1000000) < db.now) ∧
    ¬ db.oauth2Clients.any fun c => c.serviceUserId = some u.id ∧ c.clientType = .b2b

end Db

def anonymizeUser (user : RequestingUser) (userId : Id) : Service Unit := do
  requireSuperAdmin user
  requireRemovable user userId "anonymize" "anonymization" (·.isAnonymized)
  write (·.anonymizeUserEmails userId)
  write (·.deleteAllUserMfaData userId)
  write (·.anonymizeUser userId)
  write (·.revokeAllUserTokens userId)
  write (·.consumeUserSessionClients userId)
  write (·.eraseUserIdentityData userId)

structure JobItem where
  userId : Id
  status : String
  reason : String

def bulkInactivateUser (createdBy userId : Id) : Service JobItem := do
  let user ← read (·.getUserById userId)
  let isServiceUser ← read fun db => decide (userId ∈ db.serviceUsers)
  let activeCount ← read (·.countActiveSuperAdmins)
  match user with
  | none => pure ⟨userId, "error", "User not found"⟩
  | some user =>
    if userId = createdBy then pure ⟨userId, "skipped", "Cannot deactivate yourself"⟩
    else if user.isInactivated then pure ⟨userId, "skipped", "Already deactivated"⟩
    else if isServiceUser then pure ⟨userId, "skipped", "Service user"⟩
    else if user.role = .superAdmin ∧ activeCount ≤ 1 then pure ⟨userId, "skipped", "Last super admin"⟩
    else do
      write (·.deactivate userId)
      pure ⟨userId, "inactivated", "Deactivated and tokens revoked"⟩

def handleBulkInactivateUsers (createdBy : Id) : List Id → Service (List JobItem)
  | [] => pure []
  | userId :: userIds => do
    let item ← bulkInactivateUser createdBy userId
    let items ← handleBulkInactivateUsers createdBy userIds
    pure (item :: items)

def inactivateIdleUsers (lastActivityAt : Id → Option Nat) (thresholdDays : Nat) : Service (List Id) := do
  let idle ← read (·.getIdleUsersForTenant lastActivityAt thresholdDays)
  let userIds := idle.map (·.id)
  forEach userIds fun userId => write (·.deactivate userId)
  pure userIds

end WeftId
