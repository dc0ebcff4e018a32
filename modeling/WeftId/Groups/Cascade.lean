import WeftId.Groups.Lineage
import WeftId.Scim.GroupWrite

/-!
Deleting groups by foreign-key cascade.  Deleting a provider's groups and the inbound SCIM delete
remove the rows that mention a deleted group and rebuild nothing, so rows between surviving groups
whose paths all ran through a deleted group stay behind.
-/

namespace WeftId

open Proc ClosureTable Relation Run

namespace Db

def LineageClosed (db : Db) : Prop :=
  ∀ a d, (∃ n, (⟨a, d, n⟩ : Row Id) ∈ db.lineage) ↔ db.HasGroup a ∧ ReflTransGen db.Edge a d

/-- Wherever a chain of the groups in `gone` leads from a remaining group `p` to a remaining group
`c`, some path through remaining groups does too. -/
def Bypassed (db : Db) (gone : Id → Prop) : Prop :=
  ∀ n p c, Detour db.Edge gone n p c → ReflTransGen (CutOut db.Edge gone) p c

/-- The same by paths that are no longer than the chain, so that the depths stay shortest too. -/
def BypassedNoLonger (db : Db) (gone : Id → Prop) : Prop :=
  ∀ n p c, Detour db.Edge gone n p c → ∃ k ≤ n, Walk (CutOut db.Edge gone) k p c

variable {db : Db} {selected : Group → Bool}

theorem LineageExact.lineageClosed (h : db.LineageExact) : db.LineageClosed :=
  fun _ _ => h.exists_mem_lineage_iff

theorem lineageClosed_deleteGroupsWhere_iff (hkeys : db.GroupKeys) (h : db.LineageClosed) :
    (db.deleteGroupsWhere selected).2.LineageClosed ↔ db.Bypassed (db.Selected selected) := by
  have hiff := closure_cutOut_iff (X := db.Selected selected) h fun a b hab => (hkeys.endpoints a b hab).1
  rw [Bypassed, ← hiff, LineageClosed]
  simp only [mem_lineage_deleteGroupsWhere, hkeys.hasGroup_deleteGroupsWhere, edge_deleteGroupsWhere,
    exists_and_right]

variable {g : Id}

theorem forall_detour_single_iff {R : Nat → Id → Id → Prop} (hR : ∀ {n p c}, 2 ≤ n → R 2 p c → R n p c) :
    (∀ n p c, Detour db.Edge (· = g) n p c → R n p c) ↔
      ∀ p c, p ≠ g → c ≠ g → db.Edge p g → db.Edge g c → R 2 p c := by
  constructor
  · intro h p c hp hc hpg hgc
    exact h 2 p c ⟨hp, hc, g, g, 0, rfl, hpg, rfl, .refl g, hgc⟩
  · rintro h n p c ⟨hp, hc, x, y, m, rfl, hpx, rfl, hxy, hyc⟩
    have hy : y = x := by
      rcases hxy.reflTransGen with _ | ⟨_, hlast⟩
      · rfl
      · exact hlast.2.2
    subst hy
    exact hR (Nat.le_add_left _ _) (h p c hp hc hpx hyc)

theorem selected_id_iff {a : Id} (hg : db.HasGroup g) : db.Selected (·.id = g) a ↔ a = g := by
  constructor
  · rintro ⟨g', -, hsel, rfl⟩
    simpa using hsel
  · rintro rfl
    obtain ⟨g', hg', rfl⟩ := hg
    exact ⟨g', hg', by simp, rfl⟩

theorem deleteGroupsWhere_of_none (h : db.groups.filter selected = []) : (db.deleteGroupsWhere selected).2 = db := by
  have hkeep : db.groups.filter (fun g => !selected g) = db.groups :=
    List.filter_eq_self.mpr fun g hg => by simpa using List.filter_eq_nil_iff.mp h g hg
  simp [deleteGroupsWhere, h, hkeep]

theorem lineageExact_deleteGroup_iff {memberships : List Membership} :
    (Db.deleteGroup { db with memberships } g).2.LineageExact ↔ (db.deleteGroup g).2.LineageExact :=
  ⟨fun h => { h with }, fun h => { h with }⟩

end Db

theorem exec_invalidateIdpGroups (db : Db) (idpId : Id) (source : Source) :
    (invalidateIdpGroups idpId source).exec db = (db.deleteGroupsByIdp idpId source).2 := by
  by_cases hnone : db.getGroupsByIdp idpId source = []
  · rw [Db.deleteGroupsByIdp, Db.deleteGroupsWhere_of_none hnone]
    simp [invalidateIdpGroups, exec, hnone]
  · simp [invalidateIdpGroups, exec, hnone]

variable {db : Db}

namespace Scim

theorem applyMembershipDiff_nil {groupId : Id} : (applyMembershipDiff groupId []).Ensures db fun r db' =>
      r = .ok () ∧ db' = { db with memberships := db'.memberships } := by
  refine .read ?_
  refine Ensures.bind (Q := fun r db' => r = .ok () ∧ db' = db) ⟨rfl, rfl⟩ ?_ (by simp)
  rintro a db' ⟨-, rfl⟩
  refine Ensures.forEach ?_ rfl
  intro u _ s hs
  exact ⟨rfl, by rw [hs]; rfl⟩

theorem exec_deleteGroup_of_isSome {idpId groupId : Id} (h : (db.getGroupForIdp idpId groupId).isSome) : ∃ memberships,
      (deleteGroup idpId groupId).exec db = (Db.deleteGroup { db with memberships } groupId).2 := by
  change (deleteGroup idpId groupId).Ensures db fun _ db' => ∃ memberships,
    db' = (Db.deleteGroup { db with memberships } groupId).2
  refine ensures_bind.mpr (ensures_orRaise.mpr ⟨fun group _ => ?_, fun hnone => by simp [hnone] at h⟩)
  refine applyMembershipDiff_nil.bind ?_ (by simp)
  rintro _ db' ⟨-, hdb'⟩
  exact ⟨db'.memberships, by rw [← hdb']; rfl⟩

end Scim

section Deletions

variable {Q : Db → Prop} {bypassed : (Id → Prop) → Prop}
  (hQ : ∀ selected, Q (db.deleteGroupsWhere selected).2 ↔ bypassed (db.Selected selected)) {idpId groupId : Id}
include hQ

theorem after_invalidateIdpGroups_iff {source : Source} : Q ((invalidateIdpGroups idpId source).exec db) ↔
    bypassed fun a => ∃ g ∈ db.groups, g.sourceId source = some idpId ∧ g.id = a := by
  have hsel : db.Selected (·.sourceId source = some idpId) =
      fun a => ∃ g ∈ db.groups, g.sourceId source = some idpId ∧ g.id = a := by
    funext a
    simp [Db.Selected]
  rw [exec_invalidateIdpGroups, Db.deleteGroupsByIdp, hQ, hsel]

theorem after_deleteGroup_iff (h : Q db) (hmemberships : ∀ memberships : List Membership,
      Q (Db.deleteGroup { db with memberships } groupId).2 ↔ Q (db.deleteGroup groupId).2) :
    Q ((Scim.deleteGroup idpId groupId).exec db) ↔
      ((db.getGroupForIdp idpId groupId).isSome → bypassed (· = groupId)) := by
  cases hfind : db.getGroupForIdp idpId groupId with
  | none => simpa [Scim.deleteGroup, exec, bind, orRaise, hfind] using h
  | some group =>
    obtain ⟨memberships, hexec⟩ := Scim.exec_deleteGroup_of_isSome (by rw [hfind]; rfl)
    have hgroup : db.HasGroup groupId := by
      have hmem := List.mem_of_find?_eq_some hfind
      have hid := List.find?_some hfind
      exact ⟨group, hmem, by simp at hid; exact hid.1⟩
    have hsel : db.Selected (·.id = groupId) = (· = groupId) :=
      funext fun a => propext (Db.selected_id_iff hgroup)
    rw [hexec, hmemberships, Db.deleteGroup, hQ, hsel]
    simp

end Deletions

/-- After the deletion of a provider's groups, and after an inbound SCIM delete, the lineage is the
closure of what remains exactly when the deleted groups' chains are bypassed by remaining groups, and
its depths are the shortest ones too exactly when they are bypassed without a longer way. -/
theorem lineageClosed_after_delete_iff (db : Db) (hkeys : db.GroupKeys) (h : db.LineageClosed)
    (idpId groupId : Id) (source : Source) : (((invalidateIdpGroups idpId source).exec db).LineageClosed ↔
      db.Bypassed fun a => ∃ g ∈ db.groups, g.sourceId source = some idpId ∧ g.id = a) ∧
    (((Scim.deleteGroup idpId groupId).exec db).LineageClosed ↔
      ((db.getGroupForIdp idpId groupId).isSome → ∀ p c, p ≠ groupId → c ≠ groupId →
        db.Edge p groupId → db.Edge groupId c → ReflTransGen (CutOut db.Edge (· = groupId)) p c)) ∧
    (db.LineageExact → (((invalidateIdpGroups idpId source).exec db).LineageExact ↔
        db.BypassedNoLonger fun a => ∃ g ∈ db.groups, g.sourceId source = some idpId ∧ g.id = a) ∧
      (((Scim.deleteGroup idpId groupId).exec db).LineageExact ↔
        ((db.getGroupForIdp idpId groupId).isSome → ∀ p c, p ≠ groupId → c ≠ groupId →
          db.Edge p groupId → db.Edge groupId c → ∃ k ≤ 2, Walk (CutOut db.Edge (· = groupId)) k p c))) := by
  have hclosed : ∀ selected, (db.deleteGroupsWhere selected).2.LineageClosed ↔
      db.Bypassed (db.Selected selected) := fun _ => Db.lineageClosed_deleteGroupsWhere_iff hkeys h
  refine ⟨after_invalidateIdpGroups_iff hclosed, ?_, fun hexact => ?_⟩
  · rw [after_deleteGroup_iff hclosed h fun _ => Iff.rfl, Db.Bypassed, Db.forall_detour_single_iff fun _ => id]
  · have hdepths : ∀ selected, (db.deleteGroupsWhere selected).2.LineageExact ↔
        db.BypassedNoLonger (db.Selected selected) := fun _ => hexact.exact_deleteGroupsWhere_iff
    refine ⟨after_invalidateIdpGroups_iff hdepths, ?_⟩
    rw [after_deleteGroup_iff hdepths hexact fun _ => Db.lineageExact_deleteGroup_iff, Db.BypassedNoLonger,
      Db.forall_detour_single_iff fun hn ⟨k, hk, hwalk⟩ => ⟨k, le_trans hk hn, hwalk⟩]

def staffOktaPayroll : List GroupCall :=
  let admin : RequestingUser := ⟨0, .admin⟩
  [.createGroup admin "Staff", .createIdpBaseGroup 0 "Okta" .saml,
    .createGroup admin "Payroll", .addChild admin 1 2, .addChild admin 2 3]

def oktaTenant : Db := Db.withoutGroups { nextId := 1, identityProviders := [{ id := 0, name := "Okta" }] }

theorem lineageClosed_staffOktaPayroll (more : List GroupCall) :
    (run GroupCall.exec oktaTenant (staffOktaPayroll ++ more)).GroupKeys ∧
      (run GroupCall.exec oktaTenant (staffOktaPayroll ++ more)).LineageClosed :=
  ⟨(lineageExact_run _ _).toGroupKeys, (lineageExact_run _ _).lineageClosed⟩

theorem not_lineageClosed_of_no_edges {a d : Id} {n : Nat} (hrels : db.relationships = [])
    (hrow : ⟨a, d, n⟩ ∈ db.lineage) (had : a ≠ d) : ¬ db.LineageClosed := by
  intro h
  have hr := ((h a d).mp ⟨n, hrow⟩).2
  rcases hr with _ | ⟨_, hlast⟩
  · exact had rfl
  · simp [Db.Edge, hrels] at hlast

/-- Both deletions remove the base group and leave Staff recorded as an ancestor of Payroll. -/
theorem staff_stays_ancestor_of_payroll :
    let db := run GroupCall.exec oktaTenant staffOktaPayroll
    db.GroupKeys ∧ db.LineageClosed ∧ ¬ ((invalidateIdpGroups 0 .saml).exec db).LineageClosed ∧
      ¬ ((Scim.deleteGroup 0 2).exec db).LineageClosed := by
  have h := lineageClosed_staffOktaPayroll []
  refine ⟨h.1, h.2, not_lineageClosed_of_no_edges (a := 1) (d := 3) (n := 2) ?_ ?_ ?_,
    not_lineageClosed_of_no_edges (a := 1) (d := 3) (n := 2) ?_ ?_ ?_⟩ <;> decide

/-- With a direct relationship from Staff to Payroll the SCIM delete leaves the lineage closed. -/
theorem direct_relationship_bypasses_okta :
    let db := run GroupCall.exec oktaTenant (staffOktaPayroll ++ [.addChild ⟨0, .admin⟩ 1 3])
    ((Scim.deleteGroup 0 2).exec db).LineageClosed := by
  intro db
  have h := lineageClosed_staffOktaPayroll [.addChild ⟨0, .admin⟩ 1 3]
  have hrels : db.relationships = [⟨1, 2⟩, ⟨2, 3⟩, ⟨1, 3⟩] := by decide
  refine (lineageClosed_after_delete_iff db h.1 h.2 0 2 .saml).2.1.mpr fun _ p c hp hc hpg hgc => ?_
  obtain rfl : p = 1 := by simpa [Db.Edge, hrels] using hpg
  obtain rfl : c = 3 := by simpa [Db.Edge, hrels] using hgc
  exact .single ⟨by simp [Db.Edge, hrels], by decide, by decide⟩

end WeftId
