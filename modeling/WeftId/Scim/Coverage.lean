import WeftId.Groups.Lineage
import WeftId.Scim.ScopeChanges

/-!
Whether a change of scope reaches the queue.  Events about memberships and assignments carry a trigger that
finds everyone concerned, and the event about the flag of an application finds everyone but service users.
-/

namespace WeftId

open List Proc Scim ClosureTable Relation

variable {db₁ : Db}

namespace Db

variable {db db' : Db} {spId userId : Id} {added : PushKey → Prop}

def Linked (db : Db) (a d : Id) : Prop := ∃ n, (⟨a, d, n⟩ : Row Id) ∈ db.lineage

def Reaches (db : Db) (spId groupId : Id) : Prop :=
  ∃ a, (⟨spId, a⟩ : SpGroupAssignment) ∈ db.spGroupAssignments ∧ db.Linked a groupId

def Routes (db : Db) (spId userId : Id) : Prop :=
  ∃ g, db.Reaches spId g ∧ (⟨g, userId⟩ : Membership) ∈ db.memberships

/-- The application is provisioned, but not to everyone. -/
def Gated (db : Db) (spId : Id) : Prop :=
  db.isScimEnabledSp spId ∧ ∀ sp ∈ db.serviceProviders, sp.id = spId → sp.scimEnabled → ¬ sp.availableToAll

def EnqueuesChanges (db db' : Db) : Prop :=
  ∀ user ∈ db.users, ∀ spId, ¬ (userInScopeForSp db user.id spId ↔ userInScopeForSp db' user.id spId) →
    db'.Queued ⟨spId, .user, user.id⟩

theorem grantedByGroup_iff : db.grantedByGroup spId userId = true ↔ db.Routes spId userId := by
  simp only [grantedByGroup, hasMember, any_eq_true, decide_eq_true_eq]
  constructor
  · rintro ⟨⟨_, a⟩, ha, rfl, ⟨_, d, n⟩, hrow, rfl, ⟨_, _⟩, hm, rfl, rfl⟩
    exact ⟨_, ⟨_, ha, n, hrow⟩, hm⟩
  · rintro ⟨d, ⟨a, ha, n, hrow⟩, hm⟩
    exact ⟨_, ha, rfl, _, hrow, rfl, _, hm, rfl, rfl⟩

theorem userInScopeForSp_iff : userInScopeForSp db userId spId = true ↔
    db.isScimEnabledSp spId = true ∧ (db.Gated spId → db.Routes spId userId) := by
  simp only [userInScopeForSp, scimSpsGrantingUser, isScimEnabledSp, Gated, any_eq_true, mem_filter,
    decide_eq_true_eq, grantedByGroup_iff]
  constructor
  · rintro ⟨sp, ⟨hsp, henabled, hgrant⟩, rfl⟩
    refine ⟨⟨sp, hsp, rfl, henabled⟩, fun hgated => ?_⟩
    exact hgrant.resolve_left (hgated.2 sp hsp rfl henabled)
  · rintro ⟨⟨sp, hsp, rfl, henabled⟩, hroutes⟩
    by_cases hgated : ∀ sp' ∈ db.serviceProviders, sp'.id = sp.id → sp'.scimEnabled = true → ¬ sp'.availableToAll = true
    · exact ⟨sp, ⟨hsp, henabled, .inr (hroutes ⟨⟨sp, hsp, rfl, henabled⟩, hgated⟩)⟩, rfl⟩
    · push Not at hgated
      obtain ⟨sp', hsp', hid, henabled', hall⟩ := hgated
      exact ⟨sp', ⟨hsp', henabled', .inl hall⟩, hid⟩

theorem scope_changed_iff (hsps : db'.serviceProviders = db.serviceProviders) :
    ¬ (userInScopeForSp db userId spId ↔ userInScopeForSp db' userId spId) ↔
      db.Gated spId ∧ ¬ (db.Routes spId userId ↔ db'.Routes spId userId) := by
  have henabled : db'.isScimEnabledSp spId = db.isScimEnabledSp spId := by
    rw [isScimEnabledSp, isScimEnabledSp, hsps]
  have hgated : db'.Gated spId ↔ db.Gated spId := by
    rw [Gated, Gated, henabled, hsps]
  rw [userInScopeForSp_iff, userInScopeForSp_iff, henabled]
  have hscim : db.Gated spId → db.isScimEnabledSp spId = true := And.left
  tauto

theorem enqueuesChanges_iff (hsps : db'.serviceProviders = db.serviceProviders)
    (hqueued : ∀ key, db'.Queued key ↔ db.Queued key ∨ added key) :
    db.EnqueuesChanges db' ↔ ∀ user ∈ db.users, ∀ spId, db.Gated spId →
      ¬ (db.Routes spId user.id ↔ db'.Routes spId user.id) →
        db.Queued ⟨spId, .user, user.id⟩ ∨ added ⟨spId, .user, user.id⟩ := by
  simp only [EnqueuesChanges, scope_changed_iff hsps, hqueued, and_imp]

theorem enqueuesChanges_iff_of_enqueues
    (hsps : db₁.serviceProviders = db.serviceProviders) (hqueue : db₁.scimPushQueue = db.scimPushQueue)
    (hevents : Enqueues added db₁ db') : db.EnqueuesChanges db' ↔ ∀ user ∈ db.users, ∀ spId, db.Gated spId →
      ¬ (db.Routes spId user.id ↔ db₁.Routes spId user.id) →
        db.Queued ⟨spId, .user, user.id⟩ ∨ added ⟨spId, .user, user.id⟩ := by
  have hsps' : db'.serviceProviders = db.serviceProviders := by
    rw [hevents.frame]
    exact hsps
  have hroutes : ∀ spId userId, db'.Routes spId userId ↔ db₁.Routes spId userId := by
    rw [hevents.frame]
    exact fun _ _ => Iff.rfl
  have hqueued : ∀ key, db'.Queued key ↔ db.Queued key ∨ added key := by
    intro key
    rw [hevents.queued, Queued, hqueue, ← Queued]
  rw [enqueuesChanges_iff hsps' hqueued]
  simp only [hroutes]

section Tables

variable {p c a d g : Id}

theorem routes_of_memberships (hframe : db' = { db with memberships := db'.memberships }) :
    db'.Routes spId userId ↔ ∃ g, db.Reaches spId g ∧ ⟨g, userId⟩ ∈ db'.memberships := by
  have hreaches : db'.Reaches = db.Reaches := by
    rw [hframe]
    rfl
  rw [Routes, hreaches]

theorem routes_of_assignments (hframe : db' = { db with spGroupAssignments := db'.spGroupAssignments }) :
    db'.Routes spId userId ↔ ∃ a d, ⟨spId, a⟩ ∈ db'.spGroupAssignments ∧ db.Linked a d ∧
      ⟨d, userId⟩ ∈ db.memberships := by
  have hlinked : db'.Linked = db.Linked := by
    rw [hframe]
    rfl
  have hmembers : db'.memberships = db.memberships := by
    rw [hframe]
  simp only [Routes, Reaches, hlinked, hmembers]
  constructor
  · rintro ⟨d, ⟨a, ha, hlink⟩, hm⟩
    exact ⟨a, d, ha, hlink, hm⟩
  · rintro ⟨a, d, ha, hlink, hm⟩
    exact ⟨d, ⟨a, ha, hlink⟩, hm⟩

theorem routes_iff : db.Routes spId userId ↔ ∃ a d, ⟨spId, a⟩ ∈ db.spGroupAssignments ∧
    db.Linked a d ∧ ⟨d, userId⟩ ∈ db.memberships := routes_of_assignments rfl

theorem linked_addGroupRelationship {b : Bool} (h : db.addGroupRelationship p c = .ok (b, db')) (hb : b = true) :
    (∃ relationships lineage, db' = { db with relationships, lineage }) ∧
      (db'.Linked a d ↔ db.Linked a d ∨ db.Linked a p ∧ db.Linked c d) := by
  obtain ⟨hfalse, -⟩ | ⟨-, -, -, -, hdb'⟩ := addGroupRelationship_eq_ok h
  · cases hb.symm.trans hfalse
  · refine ⟨⟨_, _, hdb'⟩, ?_⟩
    rw [hdb', Linked, exists_mem_upsertLeast]
    simp only [mem_crossLineage]
    refine or_congr Iff.rfl ?_
    constructor
    · rintro ⟨_, i, j, hi, hj, rfl⟩
      exact ⟨⟨i, hi⟩, j, hj⟩
    · rintro ⟨⟨i, hi⟩, j, hj⟩
      exact ⟨_, i, j, hi, hj, rfl⟩

/-- The rows that are left when a link goes: those of groups that are not below the child, and for the groups
below it those that a path without the link accounts for. -/
def LinkedWithout (db : Db) (p c a d : Id) : Prop :=
  (db.Linked c d → a = d) ∧ db.Linked a d ∨
    db.Linked c d ∧ (⟨d, d, 0⟩ : Row Id) ∈ db.lineage ∧ ∃ n, 0 < n ∧ Walk (DropEdge db.Edge p c) n a d

theorem linked_removeGroupRelationship {rowsAffected : Nat}
    (h : db.removeGroupRelationship p c = .ok (rowsAffected, db')) (hrows : rowsAffected ≠ 0) :
    (∃ relationships lineage, db' = { db with relationships, lineage }) ∧
      (db'.Linked a d ↔ db.LinkedWithout p c a d) := by
  have hbelow : ∀ x, x ∈ db.getDescendantIds c ↔ db.Linked c x := fun x =>
    mem_getDescendantIds.trans depthOf_isSome_iff
  unfold removeGroupRelationship at h
  split at h
  · obtain ⟨hzero, -⟩ := Prod.mk.inj (Except.ok.inj h)
    exact absurd hzero.symm hrows
  dsimp only at h
  split at h
  · rename_i hnone
    obtain rfl := Except.ok_snd h
    have hno : ¬ db.Linked c d := by
      rw [← hbelow, hnone]
      exact not_mem_nil
    refine ⟨⟨_, _, rfl⟩, ?_⟩
    simp only [LinkedWithout, hno, false_implies, true_and, false_and, or_false]
    exact Iff.rfl
  · cases hreach : reachable (db.relationships.filter (· ≠ ⟨p, c⟩)) (db.getDescendantIds c) with
    | none =>
      rw [hreach] at h
      cases h
    | some rows =>
      rw [hreach] at h
      obtain rfl := Except.ok_snd h
      refine ⟨⟨_, _, rfl⟩, ?_⟩
      have hkept : (∃ n, ⟨a, d, n⟩ ∈ keptLineage db.lineage (db.getDescendantIds c)) ↔
          (db.Linked c d → a = d) ∧ db.Linked a d := by
        simp only [keptLineage, mem_filter, hbelow, decide_eq_true_eq, not_and, not_not, exists_and_right]
        exact and_comm
      have hself : (∃ gl ∈ keptLineage db.lineage (db.getDescendantIds c), gl.descendant = d ∧ gl.depth = 0) ↔
          ∃ x, (db.Linked c d → x = d) ∧ ⟨x, d, 0⟩ ∈ db.lineage := by
        simp only [keptLineage, mem_filter, hbelow, decide_eq_true_eq, not_and, not_not]
        constructor
        · rintro ⟨⟨x, _, _⟩, ⟨hx, hkeep⟩, rfl, rfl⟩
          exact ⟨x, hkeep, hx⟩
        · rintro ⟨x, hkeep, hx⟩
          exact ⟨_, ⟨hx, hkeep⟩, rfl, rfl⟩
      have hderived : ∀ n, ⟨a, d, n⟩ ∈ rows ↔
          db.Linked c d ∧ 0 < n ∧ Walk (DropEdge db.Edge p c) n a d := by
        intro n
        rw [mem_reachable_iff hreach, hbelow, edge_filter_ne]
      rw [Linked, rebuildLineage, exists_mem_upsertLeast, exists_mem_distinctOnLeast, hkept]
      simp only [mem_filter, any_eq_true, decide_eq_true_eq, hself, hderived]
      refine or_congr Iff.rfl ?_
      constructor
      · rintro ⟨n, ⟨hcd, hn, hwalk⟩, x, hx, hrow⟩
        exact ⟨hcd, hx hcd ▸ hrow, n, hn, hwalk⟩
      · rintro ⟨hcd, hrow, n, hn, hwalk⟩
        exact ⟨n, ⟨hcd, hn, hwalk⟩, d, fun _ => rfl, hrow⟩

def OnlyThrough (db : Db) (X : Id → Prop) (spId userId : Id) : Prop :=
  db.Routes spId userId ∧ ∀ a d, (⟨spId, a⟩ : SpGroupAssignment) ∈ db.spGroupAssignments → db.Linked a d →
    (⟨d, userId⟩ : Membership) ∈ db.memberships → X a ∨ X d

theorem routes_deleteGroupsWhere {selected : Group → Bool} :
    ¬ (db.Routes spId userId ↔ (db.deleteGroupsWhere selected).2.Routes spId userId) ↔
      db.OnlyThrough (db.Selected selected) spId userId := by
  have hafter : (db.deleteGroupsWhere selected).2.Routes spId userId ↔ ∃ a d,
      ⟨spId, a⟩ ∈ db.spGroupAssignments ∧ db.Linked a d ∧
        ⟨d, userId⟩ ∈ db.memberships ∧ ¬ db.Selected selected a ∧ ¬ db.Selected selected d := by
    simp only [routes_iff, Linked]
    simp only [deleteGroupsWhere, mem_filter, mem_map_filter_iff, decide_eq_true_eq]
    constructor
    · rintro ⟨a, d, ⟨ha, hsel⟩, ⟨n, hrow, -⟩, hm, hsel'⟩
      exact ⟨a, d, ha, ⟨n, hrow⟩, hm, hsel, hsel'⟩
    · rintro ⟨a, d, ha, ⟨n, hrow⟩, hm, hsel, hsel'⟩
      exact ⟨a, d, ⟨ha, hsel⟩, ⟨n, hrow, hsel, hsel'⟩, hm, hsel'⟩
  have hfewer : (db.deleteGroupsWhere selected).2.Routes spId userId → db.Routes spId userId := by
    rw [hafter, routes_iff]
    rintro ⟨a, d, ha, hlink, hm, -⟩
    exact ⟨a, d, ha, hlink, hm⟩
  have hthrough : (¬ (db.deleteGroupsWhere selected).2.Routes spId userId) ↔ ∀ a d,
      ⟨spId, a⟩ ∈ db.spGroupAssignments → db.Linked a d →
        ⟨d, userId⟩ ∈ db.memberships → db.Selected selected a ∨ db.Selected selected d := by
    rw [hafter]
    push Not
    refine forall₂_congr fun a d => ?_
    tauto
  rw [OnlyThrough]
  tauto

end Tables

end Db

variable {userId groupId : Id} {groupIds : List Id}

section Events

variable {db db₁ db' : Db}

variable {groupId : Id} {event : Event}

theorem mem_scimSpsGrantingViaGroup {sp : ServiceProvider} :
    sp ∈ db.scimSpsGrantingViaGroup groupId ↔ sp ∈ db.serviceProviders ∧ sp.scimEnabled ∧ db.Reaches sp.id groupId := by
  simp only [Db.scimSpsGrantingViaGroup, mem_filter, any_eq_true, decide_eq_true_eq]
  refine and_congr Iff.rfl (and_congr Iff.rfl ?_)
  constructor
  · rintro ⟨⟨_, a⟩, ha, rfl, ⟨_, _, n⟩, hrow, rfl, rfl⟩
    exact ⟨_, ha, n, hrow⟩
  · rintro ⟨a, ha, n, hrow⟩
    exact ⟨_, ha, rfl, _, hrow, rfl, rfl⟩

theorem mem_transitiveUserIdsForGroup : userId ∈ db.transitiveUserIdsForGroup groupId ↔
    ∃ d, db.Linked groupId d ∧ ⟨d, userId⟩ ∈ db.memberships := by
  simp only [Db.transitiveUserIdsForGroup, mem_dedup, mem_map, mem_filter, any_eq_true,
    decide_eq_true_eq]
  constructor
  · rintro ⟨⟨d, _⟩, ⟨hm, ⟨_, _, n⟩, hrow, rfl, rfl⟩, rfl⟩
    exact ⟨_, ⟨n, hrow⟩, hm⟩
  · rintro ⟨d, ⟨n, hrow⟩, hm⟩
    exact ⟨_, ⟨hm, _, hrow, rfl, rfl⟩, rfl⟩

theorem enqueuesChanges_of_membershipEvents {events : List Event}
    (hframe : db₁ = { db with memberships := db₁.memberships })
    (hevents : Enqueues (fun key => ∃ e ∈ events, pushes db₁ e key) db₁ db')
    (hcovered : ∀ g u, ¬ (⟨g, u⟩ ∈ db.memberships ↔ ⟨g, u⟩ ∈ db₁.memberships) →
      ∃ e ∈ events, eventTypeScimTriggers e.eventType = some .enqueueMembershipChange ∧ e.artifactId = g ∧
        u ∈ resolveIds e.metadata.userId e.metadata.userIds) :
    db.EnqueuesChanges db' := by
  have hsps : db₁.serviceProviders = db.serviceProviders := by
    rw [hframe]
  have hqueue : db₁.scimPushQueue = db.scimPushQueue := by
    rw [hframe]
  have hreaches : db₁.Reaches = db.Reaches := by
    rw [hframe]
    rfl
  refine (Db.enqueuesChanges_iff_of_enqueues hsps hqueue hevents).mpr fun user _ spId hgated hchanged => .inr ?_
  -- a route has come or gone, and so has the membership that it ends in
  obtain ⟨g, hreach, hmember⟩ : ∃ g, db.Reaches spId g ∧
      ¬ (⟨g, user.id⟩ ∈ db.memberships ↔ ⟨g, user.id⟩ ∈ db₁.memberships) := by
    by_contra hnone
    push Not at hnone
    apply hchanged
    rw [Db.routes_of_memberships hframe]
    exact exists_congr fun g => and_congr_right fun hreach => hnone g hreach
  obtain ⟨e, he, htrigger, rfl, huser⟩ := hcovered g user.id hmember
  obtain ⟨sp, hsp, hid⟩ := any_eq_true.mp hgated.1
  obtain ⟨rfl, henabled⟩ := of_decide_eq_true hid
  have hvia : sp ∈ db₁.scimSpsGrantingViaGroup e.artifactId := by
    rw [mem_scimSpsGrantingViaGroup, hsps, hreaches]
    exact ⟨hsp, henabled, hreach⟩
  refine ⟨e, he, ?_⟩
  rw [pushes, htrigger]
  exact ⟨ne_nil_of_mem huser, sp, hvia, .inl ⟨user.id, huser, rfl⟩⟩

theorem enqueuesChanges_of_assignmentEvent (hframe : db₁ = { db with spGroupAssignments := db₁.spGroupAssignments })
    (htrigger : eventTypeScimTriggers event.eventType = some .enqueueGrantFanOut)
    (hcovered : ∀ s g, ¬ (⟨s, g⟩ ∈ db.spGroupAssignments ↔ ⟨s, g⟩ ∈ db₁.spGroupAssignments) →
      s = event.artifactId ∧ g ∈ resolveIds event.metadata.groupId event.metadata.groupIds) :
    db.EnqueuesChanges (scimDispatch db₁ event) := by
  have hsps : db₁.serviceProviders = db.serviceProviders := by
    rw [hframe]
  have hqueue : db₁.scimPushQueue = db.scimPushQueue := by
    rw [hframe]
  have hlinked : db₁.Linked = db.Linked := by
    rw [hframe]
    rfl
  have hmembers : db₁.memberships = db.memberships := by
    rw [hframe]
  have hiff := Db.enqueuesChanges_iff_of_enqueues hsps hqueue (enqueues_scimDispatch db₁ event)
  refine hiff.mpr fun user _ spId hgated hchanged => .inr ?_
  obtain ⟨a, d, hlink, hm, hassigned⟩ : ∃ a d, db.Linked a d ∧ ⟨d, user.id⟩ ∈ db.memberships ∧
      ¬ (⟨spId, a⟩ ∈ db.spGroupAssignments ↔ ⟨spId, a⟩ ∈ db₁.spGroupAssignments) := by
    by_contra hnone
    push Not at hnone
    apply hchanged
    rw [Db.routes_of_assignments hframe, Db.routes_iff]
    refine exists₂_congr fun a d => ?_
    have hsame := hnone a d
    tauto
  obtain ⟨rfl, hgroup⟩ := hcovered spId a hassigned
  have henabled : db₁.isScimEnabledSp event.artifactId = true := by
    rw [Db.isScimEnabledSp, hsps]
    exact hgated.1
  have huser : user.id ∈ db₁.transitiveUserIdsForGroup a := by
    rw [mem_transitiveUserIdsForGroup, hlinked, hmembers]
    exact ⟨d, hlink, hm⟩
  rw [pushes, htrigger]
  exact ⟨henabled, a, hgroup, .inl ⟨user.id, huser, rfl⟩⟩

theorem enqueuesChanges_of_membershipEvent (hframe : db₁ = { db with memberships := db₁.memberships })
    (htrigger : eventTypeScimTriggers event.eventType = some .enqueueMembershipChange)
    (hcovered : ∀ g u, ¬ (⟨g, u⟩ ∈ db.memberships ↔ ⟨g, u⟩ ∈ db₁.memberships) →
      event.artifactId = g ∧ u ∈ resolveIds event.metadata.userId event.metadata.userIds) :
    db.EnqueuesChanges (scimDispatch db₁ event) := by
  have hevents : Enqueues (fun key => ∃ e ∈ [event], pushes db₁ e key) db₁ (scimDispatch db₁ event) := by
    simpa only [mem_singleton, exists_eq_left] using enqueues_scimDispatch db₁ event
  refine enqueuesChanges_of_membershipEvents hframe hevents fun g u hchanged => ?_
  exact ⟨event, mem_singleton_self event, htrigger, hcovered g u hchanged⟩

end Events

section Memberships

variable {db db' : Db} {user : RequestingUser} {userIds : List Id} {g : Id}

theorem Db.EnqueuesChanges.refl (db : Db) : db.EnqueuesChanges db := fun _ _ _ h => absurd Iff.rfl h

/-- What is claimed of a call only if it completes. -/
def Completing (P : Db → Prop) (r : Except Error Unit) (db' : Db) : Prop := r = .ok () → P db'

theorem completing_error {P : Db → Prop} {e : Error} : Completing P (.error e) db := by
  intro h
  cases h

theorem Db.bulkRemoveGroupMembers_eq_zero {us : List Id} (h : (db.bulkRemoveGroupMembers g us).1 = 0) :
    (db.bulkRemoveGroupMembers g us).2 = db := by
  have hnone := filter_eq_nil_iff.mp (length_eq_zero_iff.mp h)
  have hkeep : db.memberships.filter (fun m => ¬ (m.groupId = g ∧ m.userId ∈ us)) = db.memberships := by
    refine filter_eq_self.mpr fun m hm => ?_
    simpa [imp_iff_not_or] using hnone m hm
  simp only [bulkRemoveGroupMembers, hkeep]

/-- Pushes that are due after some steps stay due, since the queue only grows. -/
structure Covers (db db' : Db) : Prop where
  users : db'.users = db.users
  grows : ∀ key, db.Queued key → db'.Queued key
  changes : db.EnqueuesChanges db'

instance : Std.Refl Covers := ⟨fun db => ⟨rfl, fun _ h => h, .refl db⟩⟩

instance : IsTrans Db Covers where
  trans db₁ db₂ db₃ h h' := by
    refine ⟨h'.users.trans h.users, fun key hkey => h'.grows key (h.grows key hkey), ?_⟩
    intro user huser spId hchanged
    by_cases hfirst : userInScopeForSp db₁ user.id spId ↔ userInScopeForSp db₂ user.id spId
    · exact h'.changes user (h.users ▸ huser) spId fun hsecond => hchanged (hfirst.trans hsecond)
    · exact h'.grows _ (h.changes user huser spId hfirst)

theorem covers_insertMembership {n : Nat} (h : db.insertMembership groupId userId = .ok (n, db₁))
    (htrigger : eventTypeScimTriggers event.eventType = some .enqueueMembershipChange)
    (hgroup : event.artifactId = groupId) (huser : userId ∈ resolveIds event.metadata.userId event.metadata.userIds) :
    Covers db (scimDispatch db₁ event) := by
  obtain ⟨hframe, hmem⟩ := Db.insertMembership_eq_ok h
  have hevent := enqueues_scimDispatch db₁ event
  refine ⟨?_, fun key hkey => ?_, ?_⟩
  · rw [hevent.frame, hframe]
  · rw [hevent.queued, hframe]
    exact .inl hkey
  · refine enqueuesChanges_of_membershipEvent hframe htrigger fun g u hchanged => ?_
    rw [hmem] at hchanged
    obtain ⟨rfl, rfl⟩ : g = groupId ∧ u = userId := by
      by_contra hne
      simp [hne] at hchanged
    exact ⟨hgroup, huser⟩

theorem addMember_enqueues : (addMember user groupId userId).Ensures db (Completing db.EnqueuesChanges) := by
  refine .require completing_error fun _ => ?_
  refine .orRaise completing_error fun group _ => ?_
  refine .require completing_error fun _ => ?_
  refine .orRaise completing_error fun _ _ => ?_
  refine .require completing_error fun _ => ?_
  refine ensures_bind.mpr (ensures_tx.mpr ⟨fun n db₁ hinsert => ?_, fun _ _ => completing_error⟩)
  intro _
  apply (covers_insertMembership hinsert rfl rfl _).changes
  exact mem_singleton_self userId

theorem removed_covered {u : Id}
    (h : ¬ (⟨g, u⟩ ∈ db.memberships ↔ ⟨g, u⟩ ∈ (db.bulkRemoveGroupMembers groupId userIds).2.memberships)) :
    groupId = g ∧ u ∈ userIds := by
  by_contra hne
  have hkeep : ¬ (g = groupId ∧ u ∈ userIds) := fun hboth => hne ⟨hboth.1.symm, hboth.2⟩
  simp [Db.bulkRemoveGroupMembers, hkeep] at h

theorem removeMember_enqueues : (removeMember user groupId userId).Ensures db (Completing db.EnqueuesChanges) := by
  refine .require completing_error fun _ => ?_
  refine .orRaise completing_error fun group _ => ?_
  refine .require completing_error fun _ => ?_
  refine .require completing_error fun _ => fun _ => ?_
  exact enqueuesChanges_of_membershipEvent rfl rfl fun g u hchanged => removed_covered hchanged

theorem bulkAddMembers_enqueues : (bulkAddMembers user groupId userIds).Ensures db (Completing db.EnqueuesChanges) := by
  refine .require completing_error fun _ => ?_
  refine .orRaise completing_error fun group _ => ?_
  refine .require completing_error fun _ => ?_
  refine ensures_bind.mpr (ensures_tx.mpr ⟨fun count db₁ hinsert => ?_, fun _ _ => completing_error⟩)
  obtain ⟨hframe, hzero, hmem⟩ := Db.insertMemberships_eq_ok hinsert
  refine ensures_whenever.mpr ⟨fun _ _ => ?_, fun hcount _ => ?_⟩
  · refine enqueuesChanges_of_membershipEvent hframe rfl fun g u hchanged => ?_
    rw [hmem] at hchanged
    have hnew : ⟨g, u⟩ ∈ userIds.map (Membership.mk groupId) := by
      by_contra hne
      simp [hne] at hchanged
    obtain ⟨v, hv, hrow⟩ := mem_map.mp hnew
    cases hrow
    exact ⟨rfl, mem_resolveIds hv⟩
  · rw [hzero (by omega)]
    exact .refl db

theorem bulkRemoveMembers_enqueues :
    (bulkRemoveMembers user groupId userIds).Ensures db (Completing db.EnqueuesChanges) := by
  refine .require completing_error fun _ => ?_
  refine .orRaise completing_error fun group _ => ?_
  refine .require completing_error fun _ => ?_
  refine .read (.write ?_)
  refine ensures_whenever.mpr ⟨fun _ _ => ?_, fun hcount _ => ?_⟩
  · refine enqueuesChanges_of_membershipEvent rfl rfl fun g u hchanged => ?_
    obtain ⟨hgroup, huser⟩ := removed_covered hchanged
    exact ⟨hgroup, mem_resolveIds huser⟩
  · rw [Db.bulkRemoveGroupMembers_eq_zero (by omega)]
    exact .refl db

theorem bulkGroupAssignment_covers (groupId : Id) (userIds : List Id) :
    (bulkGroupAssignment groupId userIds).Within Covers := by
  refine .read fun group => within_whenever fun _ => within_forEach fun userId _ => ?_
  refine within_rescue ?_ fun _ => within_pure ()
  refine .read fun found => .read fun member => within_whenever fun _ => ?_
  refine within_iff_ensures.mpr fun db => ?_
  refine ensures_bind.mpr (ensures_tx.mpr ⟨fun n db₁ hinsert => ?_, fun _ _ => refl_of Covers db⟩)
  let event : Event := { eventType := .groupMemberAdded, artifactId := groupId, metadata := { userId := some userId } }
  have hcovers : Covers db (scimDispatch db₁ event) :=
    covers_insertMembership hinsert rfl rfl (mem_singleton_self userId)
  exact hcovers

theorem forEach_membershipEvents {eventType : EventType}
    (htrigger : eventTypeScimTriggers eventType = some .enqueueMembershipChange)
    (hframe : db₁ = { db with memberships := db₁.memberships })
    (hcovered : ∀ g u, ¬ (⟨g, u⟩ ∈ db.memberships ↔ ⟨g, u⟩ ∈ db₁.memberships) → u = userId ∧ g ∈ groupIds) :
    (forEach groupIds fun groupId => logEvent (membershipEvent eventType groupId userId)).Ensures db₁
      (Completing db.EnqueuesChanges) := by
  refine (enqueues_forEach_logEvent db₁ groupIds).mono fun r db' h _ => ?_
  have hevents : Enqueues (fun key => ∃ e ∈ groupIds.map (membershipEvent eventType · userId), pushes db₁ e key)
      db₁ db' := by
    simpa only [mem_map, exists_exists_and_eq_and] using h.2
  refine enqueuesChanges_of_membershipEvents hframe hevents fun g u hchanged => ?_
  obtain ⟨rfl, hgroup⟩ := hcovered g u hchanged
  exact ⟨_, mem_map.mpr ⟨g, hgroup, rfl⟩, htrigger, rfl, mem_singleton_self _⟩

theorem logMembershipAdditions_enqueues (userId : Id) (groupIds : List Id) :
    (logMembershipAdditions userId groupIds).Ensures db (Completing db.EnqueuesChanges) := by
  have hadd : (applyMembershipAdditions userId groupIds).Ensures db fun r db₁ => ∀ names, r = .ok names →
      db₁ = { db with memberships := db₁.memberships } ∧
        ∀ m, m ∈ db₁.memberships ↔ m ∈ db.memberships ∨ (m.userId = userId ∧ m.groupId ∈ groupIds) := by
    refine ensures_bind.mpr (ensures_tx.mpr ⟨fun n db₁ hbulk => ?_, fun e _ names h => by cases h⟩)
    exact fun _ _ => Db.bulkAddUserToGroups_eq_ok hbulk
  refine hadd.bind (fun names db₁ h => ?_) fun e _ _ => completing_error
  obtain ⟨hframe, hmem⟩ := h names rfl
  refine forEach_membershipEvents rfl hframe fun g u hchanged => ?_
  rw [hmem] at hchanged
  by_contra hne
  simp [hne] at hchanged

theorem logMembershipRemovals_enqueues (userId : Id) (groupIds : List Id) :
    (logMembershipRemovals userId groupIds).Ensures db (Completing db.EnqueuesChanges) := by
  have hremove : (applyMembershipRemovals userId groupIds).Ensures db fun r db₁ =>
      db₁ = db.bulkRemoveUserFromGroups userId groupIds := rfl
  refine hremove.bind (fun names db₁ h => ?_) fun e _ _ => completing_error
  subst h
  refine forEach_membershipEvents rfl rfl fun g u hchanged => ?_
  by_contra hne
  simp [Db.bulkRemoveUserFromGroups, hne] at hchanged

end Memberships

section Assignments

variable {db : Db} {user : RequestingUser} {spId : Id}

theorem assignSpToGroup_enqueues : (assignSpToGroup user spId groupId).Ensures db (Completing db.EnqueuesChanges) := by
  refine .require completing_error fun _ => ?_
  refine .orRaise completing_error fun _ _ => ?_
  refine .orRaise completing_error fun _ _ => ?_
  refine ensures_bind.mpr (ensures_tx.mpr ⟨fun _ db₁ hcreate => ?_, fun _ _ => completing_error⟩)
  unfold Db.createAssignment at hcreate
  split_ifs at hcreate
  obtain rfl := Except.ok_snd hcreate
  intro _
  refine enqueuesChanges_of_assignmentEvent rfl rfl fun s g hchanged => ?_
  obtain ⟨rfl, rfl⟩ : s = spId ∧ g = groupId := by
    by_contra hne
    simp [hne] at hchanged
  exact ⟨rfl, mem_singleton_self _⟩

theorem removeSpGroupAssignment_enqueues :
    (removeSpGroupAssignment user spId groupId).Ensures db (Completing db.EnqueuesChanges) := by
  refine .require completing_error fun _ => ?_
  refine .orRaise completing_error fun _ _ => ?_
  refine .require completing_error fun _ => fun _ => ?_
  refine enqueuesChanges_of_assignmentEvent rfl rfl fun s g hchanged => ?_
  obtain ⟨rfl, rfl⟩ : s = spId ∧ g = groupId := by
    by_contra hne
    simp [Db.deleteAssignment, hne] at hchanged
  exact ⟨rfl, mem_singleton_self _⟩

theorem bulkAssignSpToGroups_enqueues :
    (bulkAssignSpToGroups user spId groupIds).Ensures db (Completing db.EnqueuesChanges) := by
  refine .require completing_error fun _ => ?_
  refine .orRaise completing_error fun _ _ => ?_
  refine .require completing_error fun _ => ?_
  refine .read (.write ?_)
  refine ensures_whenever.mpr ⟨fun _ _ => ?_, fun hcount _ => ?_⟩
  · refine enqueuesChanges_of_assignmentEvent rfl rfl fun s g hchanged => ?_
    have hnew : s = spId ∧ g ∈ groupIds := by
      by_contra hne
      simp only [Db.bulkCreateAssignments, mem_append, mem_filter, mem_map, mem_dedup,
        SpGroupAssignment.mk.injEq] at hchanged
      have hno : ¬ ∃ g', g' ∈ groupIds ∧ spId = s ∧ g' = g := by
        rintro ⟨g', hg', rfl, rfl⟩
        exact hne ⟨rfl, hg'⟩
      exact hchanged ⟨.inl, fun h => h.resolve_right fun hnew => hno hnew.1⟩
    exact ⟨hnew.1, mem_resolveIds hnew.2⟩
  · have hnone := length_eq_zero_iff.mp (Nat.eq_zero_of_not_pos hcount)
    have hsame : (db.bulkCreateAssignments spId groupIds).2 = db := by
      rw [Db.bulkCreateAssignments, hnone, append_nil]
    rw [hsame]
    exact .refl db

end Assignments

end WeftId
