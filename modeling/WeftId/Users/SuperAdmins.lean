import WeftId.Users.Lifecycle

/-!
The last active super admin.  Four of the calls that take users out of service count the active super admins
before they go on; the others do not look at the role of the user at all.
-/

namespace WeftId

open List Proc Run

namespace Db

def HasSuperAdmin (db : Db) : Prop := ∃ u ∈ db.users, u.role = .superAdmin ∧ u.isInactivated = false
  deriving Decidable

structure Staffed (db : Db) : Prop where
  keyed : db.UsersKeyed
  superAdmin : db.HasSuperAdmin

def Counted (db : Db) (userId : Id) : Prop :=
  ∃ target, db.getUserById userId = some target ∧ (target.role = .superAdmin → 1 < db.countActiveSuperAdmins)

/-- Some active super admin is not among the given users. -/
def Spared (db : Db) (out : Id → Prop) : Prop :=
  ∃ u ∈ db.users, u.role = .superAdmin ∧ u.isInactivated = false ∧ ¬ out u.id

end Db

section Counting

variable {db db' : Db} {userId : Id} {out moved : Id → Prop}

theorem Db.spared_of_count (hkeyed : db.UsersKeyed) (hcount : 1 < db.countActiveSuperAdmins) :
    db.Spared (· = userId) := by
  by_contra hnone
  let admins := db.users.filter fun u => decide (u.role = .superAdmin ∧ ¬ u.isInactivated)
  have hall : ∀ id ∈ admins.map User.id, id = userId := by
    intro id hid
    obtain ⟨u, hu, rfl⟩ := mem_map.mp hid
    obtain ⟨hmem, hadmin⟩ := mem_filter.mp hu
    simp only [Bool.not_eq_true, decide_eq_true_eq] at hadmin
    by_contra hother
    exact hnone ⟨u, hmem, hadmin.1, hadmin.2, hother⟩
  have hnodup : (admins.map User.id).Nodup := hkeyed.nodup.sublist (filter_sublist.map User.id)
  have hlength : 1 < (admins.map User.id).length := by
    rw [length_map, ← countP_eq_length_filter]
    exact hcount
  rw [eq_replicate_of_mem hall, nodup_replicate] at hnodup
  omega

theorem Db.Staffed.spared_of_counted (h : db.Staffed) (hcounted : db.Counted userId) : db.Spared (· = userId) := by
  obtain ⟨target, htarget, hcount⟩ := hcounted
  obtain ⟨u, hu, hrole, hactive⟩ := h.superAdmin
  by_cases huid : u.id = userId
  · have hsame : target = u := by
      have hid : target.id = userId := by simpa using find?_some htarget
      exact inj_on_of_nodup_map h.keyed.nodup (mem_of_find?_eq_some htarget) hu (hid.trans huid.symm)
    exact spared_of_count h.keyed (hcount (hsame ▸ hrole))
  · exact ⟨u, hu, hrole, hactive, huid⟩

theorem Touches.staffed (h : Touches out moved db db') (hdb : db.Staffed) (hspared : db.Spared out) : db'.Staffed := by
  obtain ⟨u, hu, hrole, hactive, hout⟩ := hspared
  obtain ⟨u', hu', -, hrole', hactive'⟩ := h.rows u hu hout
  exact ⟨h.keyed hdb.keyed, u', hu', hrole' hrole, hactive' hactive⟩

theorem staffed_of_counted {α : Type} {call : Service α} (htouches : call.Within (Touches (· = userId) moved))
    (hcounted : ∀ db, call.Ensures db fun _ db' => db' = db ∨ db.Counted userId) :
    call.Within (Preserves Db.Staffed) := by
  intro db hdb
  rcases hcounted db with hsame | hcounted
  · have hexec : call.exec db = db := hsame
    rw [hexec]
    exact hdb
  · exact (htouches db).staffed hdb (hdb.spared_of_counted hcounted)

end Counting

variable {createdBy : Id} {update : UserUpdate}

section Guards

variable (user : RequestingUser) (userId : Id) (db : Db)

theorem requireRemovable_counted {verb noun : String} {done : User → Bool} {f : Unit → Service Unit} :
    (requireRemovable user userId verb noun done >>= f).Ensures db fun _ db' => db' = db ∨ db.Counted userId := by
  refine requireRemovable_spec.bind (fun _ _ h => ?_) fun _ _ h => .inl h.1
  obtain ⟨target, htarget, -, hcount⟩ := h.2 rfl
  exact Or.inr ⟨target, htarget, hcount⟩

theorem inactivateUser_counted : (inactivateUser user userId).Ensures db fun _ db' => db' = db ∨ db.Counted userId :=
  .require (.inl rfl) fun _ => requireRemovable_counted user userId db

theorem anonymizeUser_counted : (anonymizeUser user userId).Ensures db fun _ db' => db' = db ∨ db.Counted userId :=
  .require (.inl rfl) fun _ => requireRemovable_counted user userId db

theorem updateUser_counted {role : Role} (hrole : update.role = some role) (hdemotes : role ≠ .superAdmin) :
    (updateUser user userId update).Ensures db fun _ db' => db' = db ∨ db.Counted userId := by
  refine .require (.inl rfl) fun _ => .orRaise (.inl rfl) fun target htarget => ?_
  rw [hrole]
  have hvalidate : (validateRoleChange target role user).Ensures db fun r db' =>
      db' = db ∧ (r = .ok () → db.Counted userId) := by
    refine .require ⟨rfl, fun h => by cases h⟩ fun _ => .read (ensures_require.mpr ⟨fun h => ?_, fun _ => ?_⟩)
    · exact ⟨rfl, fun _ => ⟨target, htarget, fun hsuper => h ⟨hsuper, hdemotes⟩⟩⟩
    · exact ⟨rfl, fun h => by cases h⟩
  refine hvalidate.bind (fun _ db' h => ?_) fun _ db' h => .inl h.1
  exact Or.inr (h.2 rfl)

theorem bulkInactivateUser_counted :
    (bulkInactivateUser createdBy userId).Ensures db fun _ db' => db' = db ∨ db.Counted userId := by
  refine .read (.read (.read ?_))
  cases htarget : db.getUserById userId with
  | none => exact Or.inl rfl
  | some target =>
    dsimp only
    split_ifs with hself hgone hservice hlast
    · exact Or.inl rfl
    · exact Or.inl rfl
    · exact Or.inl rfl
    · exact Or.inl rfl
    · refine Or.inr ⟨target, htarget, fun hsuper => ?_⟩
      have hcount : ¬ db.countActiveSuperAdmins ≤ 1 := fun hle => hlast ⟨hsuper, hle⟩
      omega

end Guards

section Keeps

variable (user : RequestingUser) (userId : Id)

theorem staffed_inactivateUser : (inactivateUser user userId).Within (Preserves Db.Staffed) := by
  have htouches : (inactivateUser user userId).Within (Touches (· = userId) fun _ => False) :=
    within_inactivateUser (by exact rfl)
  exact staffed_of_counted htouches (inactivateUser_counted user userId)

theorem staffed_anonymizeUser : (anonymizeUser user userId).Within (Preserves Db.Staffed) := by
  have htouches : (anonymizeUser user userId).Within (Touches (· = userId) fun _ => False) :=
    within_anonymizeUser (by exact rfl)
  exact staffed_of_counted htouches (anonymizeUser_counted user userId)

theorem staffed_updateUser : (updateUser user userId update).Within (Preserves Db.Staffed) := by
  by_cases hdemotes : ∃ role ∈ update.role, role ≠ .superAdmin
  · obtain ⟨role, hrole, hdemotes⟩ := hdemotes
    have htouches : (updateUser user userId update).Within (Touches (· = userId) fun _ => False) :=
      within_updateUser (by exact fun _ => rfl)
    exact staffed_of_counted htouches fun db => updateUser_counted user userId db hrole hdemotes
  · have htouches : (updateUser user userId update).Within (Touches (fun _ => False) fun _ => False) :=
      within_updateUser hdemotes
    intro db hdb
    obtain ⟨u, hu, hrole, hactive⟩ := hdb.superAdmin
    exact (htouches db).staffed hdb ⟨u, hu, hrole, hactive, fun h => h⟩

theorem staffed_bulkInactivateUser : (bulkInactivateUser createdBy userId).Within (Preserves Db.Staffed) := by
  have htouches : (bulkInactivateUser createdBy userId).Within (Touches (· = userId) fun _ => False) :=
    within_bulkInactivateUser (by exact rfl)
  exact staffed_of_counted htouches fun db => bulkInactivateUser_counted userId db

-- the count is read again for each user of the job
theorem staffed_handleBulkInactivateUsers {userIds : List Id} :
    (handleBulkInactivateUsers createdBy userIds).Within (Preserves Db.Staffed) := by
  induction userIds with
  | nil => exact within_pure _
  | cons userId userIds ih =>
    refine within_bind (staffed_bulkInactivateUser userId) fun _ => ?_
    exact within_bind ih fun _ => within_pure _

end Keeps

namespace LifecycleCall

def counts : LifecycleCall → Bool
  | .updateUser .. | .inactivateUser .. | .anonymizeUser .. | .bulkInactivateUsers .. => true
  | _ => false

theorem staffed_exec_of_counts {call : LifecycleCall} (h : call.counts) {env : Env} {db : Db} (hdb : db.Staffed) :
    (call.exec env db).Staffed := by
  cases call with
  | updateUser user userId update => exact staffed_updateUser user userId db hdb
  | inactivateUser user userId => exact staffed_inactivateUser user userId db hdb
  | anonymizeUser user userId => exact staffed_anonymizeUser user userId db hdb
  | bulkInactivateUsers => exact staffed_handleBulkInactivateUsers db hdb
  | _ => exact absurd h Bool.false_ne_true

end LifecycleCall

inductive TenantStep
  | call (c : LifecycleCall)
  | wait (micros : Nat)

namespace TenantStep

variable (env : Env)

def exec (db : Db) : TenantStep → Db
  | .call c => c.exec env db
  | .wait micros => { db with now := db.now + micros }

def SparesSuperAdmin (db : Db) : TenantStep → Prop
  | .call c => ¬ c.counts → db.Spared (c.TakesOut env db)
  | .wait _ => True

theorem staffed_exec {db : Db} {step : TenantStep} (hdb : db.Staffed) (h : step.SparesSuperAdmin env db) :
    (step.exec env db).Staffed := by
  cases step with
  | wait micros => exact ⟨⟨hdb.keyed.nodup, hdb.keyed.fresh⟩, hdb.superAdmin⟩
  | call c =>
    by_cases hcounts : c.counts
    · exact LifecycleCall.staffed_exec_of_counts hcounts hdb
    · exact (LifecycleCall.touches_exec env c db).staffed hdb (h hcounts)

theorem hasSuperAdmin_of_spares {db : Db} (hkeyed : db.UsersKeyed) (hadmin : db.HasSuperAdmin) {steps : List TenantStep}
    (h : Along (exec env) (SparesSuperAdmin env) db steps) {reached rest : List TenantStep}
    (hsteps : steps = reached ++ rest) : (run (exec env) db reached).HasSuperAdmin := by
  subst hsteps
  have hstaffed : (run (exec env) db reached).Staffed :=
    invariant_of_along (fun db step hdb hspares => staffed_exec env hdb hspares) ⟨hkeyed, hadmin⟩ h.left
  exact hstaffed.superAdmin

def staffedTenant : Db where
  nextId := 10
  users := [{ id := 1, role := .superAdmin, samlIdpId := some 7 }, { id := 2, role := .admin }]

/-- The admin deletes the only super admin; the idle job and a SCIM DELETE inactivate them just as well. -/
theorem last_super_admin_lost : staffedTenant.UsersKeyed ∧ staffedTenant.HasSuperAdmin ∧
    ¬ (run (exec Env.ascii) staffedTenant [.call (.deleteUser ⟨2, .admin⟩ 1)]).HasSuperAdmin ∧
    ¬ (run (exec Env.ascii) staffedTenant [.call (.inactivateIdleUsers (fun _ => none) 90)]).HasSuperAdmin ∧
    ¬ (run (exec Env.ascii) staffedTenant [.call (.softDeleteUser 7 1)]).HasSuperAdmin :=
  ⟨⟨by decide, by decide⟩, by decide, by decide, by decide, by decide⟩

/-- The super admin cannot step down, and survives the deletion of the admin and an idle job that finds nobody. -/
theorem super_admin_kept : (run (exec Env.ascii) staffedTenant
    [.call (.updateUser ⟨1, .superAdmin⟩ 1 { role := some .member }), .call (.deleteUser ⟨1, .superAdmin⟩ 2),
      .wait 5, .call (.inactivateIdleUsers (fun _ => some 5) 90)]).HasSuperAdmin := by
  refine hasSuperAdmin_of_spares Env.ascii ⟨by decide, by decide⟩ (by decide) ?_ (append_nil _).symm
  simp only [along_cons]
  refine ⟨fun h => absurd rfl h, fun _ => ?_, trivial, fun _ => ?_, along_nil⟩
  · refine ⟨_, mem_cons_self, rfl, rfl, ?_⟩
    change ¬ 1 = 2
    decide
  · refine ⟨_, mem_cons_self, rfl, rfl, ?_⟩
    change ¬ ∃ u ∈ ([] : List User), u.id = 1
    simp

end TenantStep

end WeftId
