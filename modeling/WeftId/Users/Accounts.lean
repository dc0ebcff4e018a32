import WeftId.Env
import WeftId.Groups.Idp
import WeftId.Lib.SqlLike

/-!
The `users` and `user_emails` tables.  An address belongs to one user; it counts for signing in once
it is verified, while a SAML assertion speaks for it either way.
-/

namespace WeftId

open Proc

def escapeLike (value : Text) : Text :=
  let replace (c : Char) (value : Text) := value.flatMap fun d => if d = c then ['\\', c] else [d]
  replace '_' (replace '%' (replace '\\' value))

/-- The parameter that a search for members binds for each of its words. -/
def searchPattern (token : Text) : Text := '%' :: escapeLike token ++ ['%']

-- The backslash is replaced first, so that no replacement meets a backslash of an earlier one.
theorem escapeLike_eq_escape (s : Text) : escapeLike s = SqlLike.escape s := by
  simp only [escapeLike, SqlLike.escape, List.flatMap_assoc]
  congr 1
  funext c
  by_cases hc : c = '\\' ∨ c = '%' ∨ c = '_'
  · obtain rfl | rfl | rfl := hc <;> rfl
  · simp_all

theorem searchPattern_like_iff (s t : Text) : SqlLike.like (searchPattern s) t ↔ s <:+: t := by
  rw [searchPattern, escapeLike_eq_escape, List.cons_append, SqlLike.like_percent, List.infix_iff_prefix_suffix]
  constructor
  · rintro ⟨u, hsuffix, hlike⟩
    obtain ⟨v, hv, -⟩ := SqlLike.like_escape.mp hlike
    exact ⟨u, ⟨v, hv⟩, hsuffix⟩
  · rintro ⟨u, ⟨v, hv⟩, hsuffix⟩
    have hrest : SqlLike.like ['%'] v := SqlLike.like_percent.mpr ⟨[], List.nil_suffix, rfl⟩
    exact ⟨u, hsuffix, SqlLike.like_escape.mpr ⟨v, hv, hrest⟩⟩

namespace Db

def updateUser (db : Db) (userId : Id) (f : User → User) : Db :=
  { db with users := db.users.map fun u => if u.id = userId then f u else u }

variable (env : Env) {db db' : Db} {userId : Id}

def sameEmail (a b : Text) : Prop := env.citext a = env.citext b
  deriving Decidable

def findByEmail (db : Db) (email : Text) (verifiedOnly : Bool) : Option (UserEmail × User) := do
  let row ← db.userEmails.find? fun e => sameEmail env e.email email ∧ (verifiedOnly → e.verifiedAt.isSome)
  let user ← db.getUserById row.userId
  return (row, user)

def getUserByEmail (db : Db) (email : Text) : Option (Id × Option Text) :=
  (db.findByEmail env email true).map fun (_, user) => (user.id, user.passwordHash)

def getUserByEmailForSaml (db : Db) (email : Text) : Option (UserEmail × User) := db.findByEmail env email false

def getUserByEmailWithStatus (db : Db) (email : Text) : Option User :=
  (db.findByEmail env email true).map (·.2)

def emailExists (db : Db) (email : Text) : Bool := db.userEmails.any fun e => sameEmail env e.email email

def getPrimaryEmail (db : Db) (userId : Id) : Option Text :=
  (db.userEmails.find? fun e => e.userId = userId ∧ e.isPrimary).map (·.email)

def getUsersByEmailDomain (db : Db) (domain : Text) : List User :=
  db.users.filter fun u => db.userEmails.any fun e => e.userId = u.id ∧ e.verifiedAt.isSome ∧
    SqlLike.like (env.citext ('%' :: '@' :: SqlLike.escape (env.lower domain))) (env.citext e.email)

def createUser (db : Db) (firstName lastName : Text) (role : Role) : Except DbError (Id × Db) :=
  if 200 < firstName.length then .error (.checkViolation "users_first_name_check")
  else if 200 < lastName.length then .error (.checkViolation "users_last_name_check")
  else .ok (db.nextId, { db with
    nextId := db.nextId + 1
    users := db.users ++ [{ id := db.nextId, firstName, lastName, role }] })

/-- The `domain` column: `email.split("@")[1]`, empty without an at sign. -/
def emailDomain (email : Text) : Text := (Text.split '@' email).getD 1 []

def insertEmailRow (db : Db) (userId : Id) (email : Text) (isPrimary : Bool) (verifiedAt : Option Nat) :
    Except DbError (Id × Db) :=
  if 253 < (emailDomain email).length then .error (.checkViolation "chk_user_emails_domain_length")
  else if 320 < email.length then .error (.checkViolation "chk_user_emails_email_length")
  else if db.emailExists env email then .error (.uniqueViolation "user_emails_tenant_id_email_key")
  else if isPrimary ∧ (db.getPrimaryEmail userId).isSome then
    .error (.uniqueViolation "user_emails_primary_per_user")
  else if db.getUserById userId = none then .error (.foreignKeyViolation "fk_user_emails_user_tenant")
  else .ok (db.nextId, { db with
    nextId := db.nextId + 1
    userEmails := db.userEmails ++ [{ id := db.nextId, userId, email, isPrimary, verifiedAt }] })

def addVerifiedEmail (db : Db) (userId : Id) (email : Text) (isPrimary : Bool) : Except DbError (Id × Db) :=
  db.insertEmailRow env userId email isPrimary (some db.now)

def addEmail (db : Db) (userId : Id) (email : Text) : Except DbError (Id × Db) :=
  db.insertEmailRow env userId email false none

def verifyEmail (db : Db) (emailId : Id) : Db :=
  { db with userEmails := db.userEmails.map fun e =>
      if e.id = emailId then { e with verifiedAt := some db.now } else e }

def unverifyUserEmails (db : Db) (userId : Id) : Db :=
  { db with userEmails := db.userEmails.map fun e =>
      if e.userId = userId then { e with verifiedAt := none } else e }

def updateUserProfile (db : Db) (userId : Id) (firstName lastName : Text) : Except DbError (Unit × Db) :=
  if 200 < firstName.length then .error (.checkViolation "users_first_name_check")
  else if 200 < lastName.length then .error (.checkViolation "users_last_name_check")
  else .ok ((), db.updateUser userId fun u => { u with firstName, lastName })

def getIdentityProvider (db : Db) (idpId : Id) : Option IdentityProvider :=
  db.identityProviders.find? (·.id = idpId)

/-- Sets `saml_idp_id` of the listed users; the new provider must exist. -/
def assignUsersToIdp (db : Db) (userIds : List Id) (samlIdpId : Option Id) : Except DbError (Unit × Db) :=
  if (∃ idpId, samlIdpId = some idpId ∧ db.getIdentityProvider idpId = none) ∧
      db.users.any (·.id ∈ userIds) then .error (.foreignKeyViolation "users_saml_idp_id_fkey")
  else .ok ((), { db with users := db.users.map fun u => if u.id ∈ userIds then { u with samlIdpId } else u })

def updateUserSamlIdp (db : Db) (userId : Id) (samlIdpId : Option Id) : Except DbError (Unit × Db) :=
  db.assignUsersToIdp [userId] samlIdpId

def setUserIdp (db : Db) (userId idpId : Id) : Except DbError (Unit × Db) :=
  db.updateUserSamlIdp userId (some idpId)

def bulkAssignUsersToIdp (db : Db) (userIds : List Id) (idpId : Id) : Except DbError (Unit × Db) :=
  db.assignUsersToIdp userIds (some idpId)

def inactivateUser (db : Db) (userId : Id) : Db :=
  db.updateUser userId fun u =>
    if u.isInactivated then u else { u with isInactivated := true, inactivatedAt := some db.now }

def reactivateUser (db : Db) (userId : Id) : Db :=
  db.updateUser userId fun u =>
    if u.isInactivated ∧ ¬ u.isAnonymized then { u with isInactivated := false, inactivatedAt := none } else u

def updatePassword (db : Db) (userId : Id) (passwordHash : Text) : Db :=
  db.updateUser userId fun u =>
    { u with passwordHash := some passwordHash, passwordChangedAt := some db.now, passwordResetRequired := false }

def setPasswordResetRequired (db : Db) (userId : Id) (required : Bool) : Db :=
  db.updateUser userId fun u => { u with passwordResetRequired := required }

theorem updateUserProfile_eq_ok {first last : Text} (h : db.updateUserProfile userId first last = .ok ((), db')) :
    db' = db.updateUser userId fun u => { u with firstName := first, lastName := last } := by
  unfold updateUserProfile at h
  split_ifs at h
  exact (Except.ok_snd h).symm

theorem createUser_eq_ok {firstName lastName : Text} {role : Role} {id : Id}
    (h : db.createUser firstName lastName role = .ok (id, db')) : id = db.nextId ∧ db' = { db with
      nextId := db.nextId + 1
      users := db.users ++ [{ id := db.nextId, firstName, lastName, role }] } := by
  unfold createUser at h
  split at h
  · cases h
  split at h
  · cases h
  obtain ⟨rfl, rfl⟩ := Prod.mk.inj (Except.ok.inj h)
  exact ⟨rfl, rfl⟩

theorem insertEmailRow_eq_ok {env : Env} {id : Id} {email : Text} {isPrimary : Bool} {verifiedAt : Option Nat}
    (h : db.insertEmailRow env userId email isPrimary verifiedAt = .ok (id, db')) : db' = { db with
      nextId := db.nextId + 1
      userEmails := db.userEmails ++ [{ id := db.nextId, userId, email, isPrimary, verifiedAt }] } := by
  unfold insertEmailRow at h
  split_ifs at h
  exact (Except.ok_snd h).symm

variable {env} in
theorem getUserById_of_findByEmail {email : Text} {row : UserEmail} {user : User} {verifiedOnly : Bool}
    (h : db.findByEmail env email verifiedOnly = some (row, user)) : db.getUserById user.id = some user := by
  obtain ⟨row', -, h⟩ := Option.bind_eq_some_iff.mp h
  obtain ⟨user', huser, h⟩ := Option.bind_eq_some_iff.mp h
  obtain ⟨-, rfl⟩ := Prod.mk.inj (Option.some.inj h)
  have hid : user'.id = row'.userId := by simpa using List.find?_some huser
  rw [hid, huser]

variable {a : Id} {f : User → User}

theorem getUserById_updateUser (hf : ∀ u, (f u).id = u.id) :
    (db.updateUser userId f).getUserById a =
      if a = userId then (db.getUserById a).map f else db.getUserById a := by
  have hpred : ((fun u : User => decide (u.id = a)) ∘ fun u => if u.id = userId then f u else u) =
      fun u => decide (u.id = a) := by
    funext u
    by_cases hu : u.id = userId <;> simp [hu, hf]
  unfold getUserById updateUser
  rw [List.find?_map, hpred]
  cases hfind : db.users.find? (fun u => decide (u.id = a)) with
  | none => simp
  | some u =>
    have hid : u.id = a := by simpa using List.find?_some hfind
    by_cases ha : a = userId <;> simp [hid, ha]

theorem getUserById_updateUser_self {u : User} (f : User → User)
    (hf : ∀ u, (f u).id = u.id) (h : db.getUserById userId = some u) :
    (db.updateUser userId f).getUserById userId = some (f u) := by
  rw [getUserById_updateUser hf, if_pos rfl, h, Option.map_some]

theorem isSome_getUserById_updateUser (hf : ∀ u, (f u).id = u.id) :
    ((db.updateUser userId f).getUserById a).isSome = (db.getUserById a).isSome := by
  rw [getUserById_updateUser hf]
  split_ifs
  · exact Option.isSome_map
  · rfl

end Db

end WeftId
