import WeftId.Groups.Idp

/-!
Inbound SCIM writes of groups.  A provider sees and writes only its own valid groups.
-/

namespace WeftId

open List Proc

namespace Db

def getGroupForIdp (db : Db) (idpId groupId : Id) : Option Group :=
  db.groups.find? fun g => g.id = groupId ∧ g.idpId = some idpId ∧ g.groupType = .idp ∧ g.isValid

def listGroupMembersForScim (db : Db) (groupId : Id) : List Id :=
  ((db.memberships.filter fun m => m.groupId = groupId ∧ (db.getUserById m.userId).isSome).map (·.userId)).dedup

end Db

namespace Scim

def applyMembershipDiff (groupId : Id) (targetUserIds : List Id) : Service Unit := do
  let currentIds ← read (·.listGroupMembersForScim groupId)
  forEach (targetUserIds.filter (· ∉ currentIds)) fun userId => do
    let _ ← applyMembershipAdditions userId [groupId]
  forEach (currentIds.filter (· ∉ targetUserIds)) fun userId => do
    let _ ← applyMembershipRemovals userId [groupId]

section Diff

variable {db : Db} {groupId : Id} {userIds targetUserIds : List Id}

theorem mem_memberships_of_listed {userId : Id} (h : userId ∈ db.listGroupMembersForScim groupId) :
    ⟨groupId, userId⟩ ∈ db.memberships := by
  obtain ⟨m, ⟨hm, hg, -⟩, rfl⟩ := by simpa [Db.listGroupMembersForScim] using h
  exact hg ▸ hm

theorem applyMembershipAdditions_apply {userId : Id} (hgroup : (db.getGroupById groupId).isSome)
    (huser : (db.getUserById userId).isSome) :
    ∃ names memberships, applyMembershipAdditions userId [groupId] db = (.ok names, { db with memberships }) ∧
      ∀ m, m ∈ memberships ↔ m ∈ db.memberships ∨ m = ⟨groupId, userId⟩ := by
  obtain ⟨g, hg⟩ := Option.isSome_iff_exists.mp hgroup
  obtain ⟨u, hu⟩ := Option.isSome_iff_exists.mp huser
  obtain ⟨n, db', hins⟩ : ∃ n db', db.insertMembership groupId userId = .ok (n, db') := by
    by_cases hmem : db.isGroupMember groupId userId = true
    · exact ⟨0, db, by simp [Db.insertMembership, hmem]⟩
    · exact ⟨1, _, by simp [Db.insertMembership, hmem, hg, hu]; rfl⟩
  obtain ⟨hframe, hmem⟩ := Db.insertMembership_eq_ok hins
  refine ⟨groupNames db' [groupId], db'.memberships, ?_, hmem⟩
  have hbulk : db.bulkAddUserToGroups userId [groupId] = .ok (n + 0, db') := by
    simp [Db.bulkAddUserToGroups, Db.insertMemberships, hins, bind, Except.bind]
  rw [← hframe]
  simp [applyMembershipAdditions, tx, transaction, Bind.bind, hbulk, Except.mapError]

theorem forEach_additions_apply (hgroup : (db.getGroupById groupId).isSome)
    (husers : ∀ userId ∈ userIds, (db.getUserById userId).isSome) :
    ∃ memberships, (forEach userIds fun userId => do
        let _ ← applyMembershipAdditions userId [groupId] : Service Unit) db = (.ok (), { db with memberships }) ∧
      ∀ m, m ∈ memberships ↔ m ∈ db.memberships ∨ m.groupId = groupId ∧ m.userId ∈ userIds := by
  induction userIds generalizing db with
  | nil => exact ⟨db.memberships, rfl, fun m => by simp⟩
  | cons userId userIds ih =>
    obtain ⟨names, first, hadd, hfirst⟩ := applyMembershipAdditions_apply hgroup (husers userId mem_cons_self)
    obtain ⟨rest, hrest, hmem⟩ := @ih { db with memberships := first } hgroup
      fun u hu => husers u (mem_cons_of_mem userId hu)
    refine ⟨rest, ?_, fun m => ?_⟩
    · rw [forEach, bind_apply_of_ok (bind_apply_of_ok hadd _)]
      exact hrest
    · rw [hmem, hfirst, mem_cons, Membership.mk.injEq]
      tauto

theorem forEach_removals_apply :
    (forEach userIds fun userId => do
        let _ ← applyMembershipRemovals userId [groupId] : Service Unit) db =
      (.ok (), { db with memberships := db.memberships.filter fun m =>
        ¬ (m.groupId = groupId ∧ m.userId ∈ userIds) }) := by
  induction userIds generalizing db with
  | nil => simp [forEach]
  | cons userId userIds ih =>
    have hremove : applyMembershipRemovals userId [groupId] db =
        (.ok (groupNames db [groupId]), db.bulkRemoveUserFromGroups userId [groupId]) := rfl
    rw [forEach, bind_apply_of_ok (bind_apply_of_ok hremove _)]
    have hkept : (db.bulkRemoveUserFromGroups userId [groupId]).memberships.filter (fun m =>
        ¬ (m.groupId = groupId ∧ m.userId ∈ userIds)) =
          db.memberships.filter fun m => ¬ (m.groupId = groupId ∧ m.userId ∈ userId :: userIds) := by
      rw [Db.bulkRemoveUserFromGroups, filter_filter]
      congr 1
      funext m
      rw [Bool.eq_iff_iff]
      simp only [Bool.and_eq_true, decide_eq_true_eq, mem_cons]
      tauto
    rw [ih, hkept]
    rfl

theorem applyMembershipDiff_apply (hgroup : (db.getGroupById groupId).isSome)
    (husers : ∀ userId ∈ targetUserIds, (db.getUserById userId).isSome) :
    ∃ memberships, applyMembershipDiff groupId targetUserIds db = (.ok (), { db with memberships }) ∧
      ∀ m, m ∈ memberships ↔ m.groupId = groupId ∧ m.userId ∈ targetUserIds ∨
        m ∈ db.memberships ∧ ¬ (m.groupId = groupId ∧ m.userId ∈ db.listGroupMembersForScim groupId) := by
  obtain ⟨added, hadd, hmem⟩ := forEach_additions_apply hgroup
    fun u hu => husers u (mem_of_mem_filter hu)
  refine ⟨added.filter fun m => ¬ (m.groupId = groupId ∧
    m.userId ∈ (db.listGroupMembersForScim groupId).filter (· ∉ targetUserIds)), ?_, fun m => ?_⟩
  · rw [applyMembershipDiff, read_bind_apply, bind_apply_of_ok hadd]
    exact forEach_removals_apply
  · obtain ⟨g, u⟩ := m
    have hu : u ∈ db.listGroupMembersForScim groupId → _ := mem_memberships_of_listed
    simp only [mem_filter, decide_eq_true_eq, hmem]
    by_cases hg : g = groupId
    · subst hg
      tauto
    · tauto

end Diff

def deleteGroup (idpId groupId : Id) : Service Unit := do
  let _ ← orRaise (·.getGroupForIdp idpId groupId) (.scim 404 "Group not found")
  applyMembershipDiff groupId []
  write fun db => (db.deleteGroup groupId).2

end Scim

end WeftId
