import WeftId.Users.State

/-!
Changing names and roles of users and deleting users.
-/

namespace WeftId

open Proc

structure UserUpdate where
  firstName : Option Text := none
  lastName : Option Text := none
  role : Option Role := none

namespace Db

def updateUserRole (db : Db) (userId : Id) (role : Role) : Db := db.updateUser userId fun u => { u with role }

def deleteUser (db : Db) (userId : Id) : Except DbError (Unit × Db) :=
  if userId ∈ db.restrictedUsers then .error (.foreignKeyViolation "created_by_user_id_fkey")
  else if userId ∈ db.serviceUsers then .error (.foreignKeyViolation "oauth2_clients_service_user_id_fkey")
  else .ok ((), { ((db.deleteAllUserMfaData userId).eraseUserIdentityData userId).deleteTokens (·.userId = userId) with
    users := db.users.filter (·.id ≠ userId)
    userEmails := db.userEmails.filter (·.userId ≠ userId)
    reactivationRequests := db.reactivationRequests.filter (· ≠ userId)
    authorizationCodes := db.authorizationCodes.filter (·.userId ≠ userId)
    oidcSessionClients := db.oidcSessionClients.filter (·.userId ≠ userId)
    oauth2DeviceCodes := db.oauth2DeviceCodes.filter (·.userId ≠ some userId)
    memberships := db.memberships.filter (·.userId ≠ userId) })

end Db

def validateRoleChange (target : User) (newRole : Role) (user : RequestingUser) : Service Unit := do
  require (newRole = .admin ∨ newRole = .superAdmin ∨ target.role = .superAdmin → user.role = .superAdmin)
    (.forbidden "Only super_admin can change admin or super_admin roles" "super_admin_role_change_denied"
      (some "super_admin"))
  let superAdminCount ← read (·.countActiveSuperAdmins)
  require (target.role = .superAdmin ∧ newRole ≠ .superAdmin → 1 < superAdminCount)
    (.validation "Cannot demote the last super_admin" "last_super_admin")

def updateUser (user : RequestingUser) (userId : Id) (update : UserUpdate) : Service Unit := do
  requireAdmin user
  let target ← orRaise (·.getUserById userId) (.notFound "User not found" "user_not_found")
  match update.role with
  | some role => validateRoleChange target role user
  | none => pure ()
  whenever (Text.orElse update.firstName [] ≠ [] ∨ Text.orElse update.lastName [] ≠ [])
    (tx (·.updateUserProfile userId (Text.orElse update.firstName target.firstName)
      (Text.orElse update.lastName target.lastName)))
  match update.role with
  | some role => write (·.updateUserRole userId role)
  | none => pure ()

def deleteUser (user : RequestingUser) (userId : Id) : Service Unit := do
  requireAdmin user
  let target ← orRaise (·.getUserById userId) (.notFound "User not found" "user_not_found")
  let isServiceUser ← read fun db => decide (userId ∈ db.serviceUsers)
  require (¬ isServiceUser)
    (.validation "Cannot delete service user. Delete the associated OAuth2 client first." "service_user_deletion")
  require (target.id ≠ user.id) (.validation "Cannot delete your own account" "self_deletion")
  write (·.consumeUserSessionClients userId)
  tx (·.deleteUser userId)

end WeftId
