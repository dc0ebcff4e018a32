import WeftId.Groups.Cascade
import WeftId.Scim.Outbound

/-!
Who may use an application, as the five queries of the code decide it, and who is in a group, as seen from
the group and from the user.  Each query joins the closure table in its own way; they agree as long as the
table is the closure of the relationships.
-/

namespace WeftId

open List ClosureTable Relation

namespace Db

/-- The grant resolver of every kind of application; `grants` are the groups it is assigned to. -/
def userCanAccessApp (db : Db) (availableToAll : Bool) (grants : Id → Bool) (userId : Id) : Bool :=
  availableToAll || db.memberships.any fun m => m.userId = userId ∧
    db.lineage.any fun row => row.descendant = m.groupId ∧ grants row.ancestor

def spAssigned (db : Db) (spId groupId : Id) : Bool :=
  db.spGroupAssignments.any fun a => a.groupId = groupId ∧ a.spId = spId

def userCanAccessSp (db : Db) (userId spId : Id) : Bool :=
  db.userCanAccessApp (db.serviceProviders.any fun sp => sp.id = spId ∧ sp.availableToAll) (db.spAssigned spId) userId

def getAccessibleSpsForUser (db : Db) (userId : Id) : List ServiceProvider :=
  (db.serviceProviders.filter fun sp => db.grantedByGroup sp.id userId ∧ sp.enabled ∧ sp.trustEstablished) ∪
    db.serviceProviders.filter fun sp => sp.availableToAll ∧ sp.enabled ∧ sp.trustEstablished

def inEffectiveGroup (db : Db) (userId groupId : Id) : Bool :=
  db.hasMember groupId userId ||
    db.lineage.any fun row => row.ancestor = groupId ∧ 0 < row.depth ∧ db.hasMember row.descendant userId

def getEffectiveMemberships (db : Db) (userId : Id) : List (Group × Bool) :=
  (db.groups.filter fun g => db.inEffectiveGroup userId g.id).map fun g => (g, db.hasMember g.id userId)

def getAccessRelevantGroupNames (db : Db) (collate : Text → Text → Bool) (userId spId : Id) : List Text :=
  ((db.groups.filter fun g => db.inEffectiveGroup userId g.id ∧ (db.spAssigned spId g.id ∨ db.lineage.any fun row =>
    row.descendant = g.id ∧ 0 < row.depth ∧ db.spAssigned spId row.ancestor)).map (·.name)).mergeSort collate

/-- An effective group of the user with no other one above it. -/
def isTrunkGroup (db : Db) (userId groupId : Id) : Bool :=
  db.inEffectiveGroup userId groupId ∧ ¬ db.lineage.any fun row => row.descendant = groupId ∧ 0 < row.depth ∧
    db.inEffectiveGroup userId row.ancestor ∧ row.ancestor ≠ groupId

def getTrunkGroupNames (db : Db) (collate : Text → Text → Bool) (userId : Id) : List Text :=
  ((db.groups.filter fun g => db.isTrunkGroup userId g.id).map (·.name)).mergeSort collate

structure EffectiveMember where
  userId : Id
  isDirect : Bool
  firstName : Text
  lastName : Text
  email : Option Text

def effectiveUsers (db : Db) (groupId : Id) : List EffectiveMember :=
  (db.users.filter fun u => db.lineage.any fun row => row.ancestor = groupId ∧ db.hasMember row.descendant u.id).map
    fun u => {
      userId := u.id
      isDirect := db.lineage.any fun row => row.ancestor = groupId ∧ row.depth = 0 ∧ db.hasMember row.descendant u.id
      firstName := u.firstName
      lastName := u.lastName
      email := (db.userEmails.find? fun e => e.userId = u.id ∧ e.isPrimary).map (·.email) }

def getEffectiveMembers (db : Db) (collate : EffectiveMember → EffectiveMember → Bool) (groupId : Id)
    (page pageSize : Nat) : List EffectiveMember :=
  (((db.effectiveUsers groupId).insertionSort (collate · ·)).drop ((page - 1) * pageSize)).take pageSize

structure LineageIsClosure (db : Db) : Prop where
  closed : db.LineageClosed
  depth : ∀ row ∈ db.lineage, row.depth = 0 ↔ row.ancestor = row.descendant

variable {db : Db} {userId spId groupId : Id} {collate : Text → Text → Bool}

theorem LineageExact.lineageIsClosure (h : db.LineageExact) : db.LineageIsClosure := by
  refine ⟨h.lineageClosed, ?_⟩
  rintro ⟨a, d, n⟩ hrow
  obtain ⟨-, hwalk, hleast⟩ := h.mem_lineage_iff.mp hrow
  constructor
  · rintro rfl
    exact walk_zero_iff.mp hwalk
  · intro had
    obtain rfl : a = d := had
    exact Nat.le_zero.mp (hleast (.refl a))

def Granted (db : Db) (spId userId : Id) : Prop :=
  ∃ a m, db.spAssigned spId a = true ∧ db.hasMember m userId = true ∧ db.HasGroup a ∧ ReflTransGen db.Edge a m

theorem granted_iff_row (h : db.LineageClosed) : db.Granted spId userId ↔
    ∃ row ∈ db.lineage, db.spAssigned spId row.ancestor = true ∧ db.hasMember row.descendant userId = true := by
  constructor
  · rintro ⟨a, m, hassigned, hmember, hreach⟩
    obtain ⟨n, hrow⟩ := (h a m).mpr hreach
    exact ⟨_, hrow, hassigned, hmember⟩
  · rintro ⟨⟨a, m, n⟩, hrow, hassigned, hmember⟩
    exact ⟨a, m, hassigned, hmember, (h a m).mp ⟨n, hrow⟩⟩

theorem grantedByGroup_iff_granted (h : db.LineageClosed) :
    db.grantedByGroup spId userId = true ↔ db.Granted spId userId := by
  rw [granted_iff_row h]
  simp only [grantedByGroup, spAssigned, any_eq_true, decide_eq_true_eq]
  constructor
  · rintro ⟨a, ha, hsp, row, hrow, hanc, hmember⟩
    exact ⟨row, hrow, ⟨a, ha, hanc.symm, hsp⟩, hmember⟩
  · rintro ⟨row, hrow, ⟨a, ha, hanc, hsp⟩, hmember⟩
    exact ⟨a, ha, hsp, row, hrow, hanc.symm, hmember⟩

theorem userCanAccessApp_iff (h : db.LineageClosed) {availableToAll : Bool} :
    db.userCanAccessApp availableToAll (db.spAssigned spId) userId = true ↔
      availableToAll = true ∨ db.Granted spId userId := by
  rw [granted_iff_row h]
  simp only [userCanAccessApp, hasMember, Bool.or_eq_true, any_eq_true, decide_eq_true_eq]
  refine or_congr Iff.rfl ?_
  constructor
  · rintro ⟨m, hm, huser, row, hrow, hdesc, hassigned⟩
    exact ⟨row, hrow, hassigned, m, hm, hdesc.symm, huser⟩
  · rintro ⟨row, hrow, hassigned, m, hm, hgroup, huser⟩
    exact ⟨m, hm, huser, row, hrow, hgroup.symm, hassigned⟩

theorem LineageIsClosure.reaches_iff (h : db.LineageIsClosure) {a d : Id} (ha : db.HasGroup a) :
    ReflTransGen db.Edge a d ↔ a = d ∨ ∃ row ∈ db.lineage, row.ancestor = a ∧ 0 < row.depth ∧ row.descendant = d := by
  constructor
  · intro hreach
    obtain ⟨n, hrow⟩ := (h.closed a d).mpr ⟨ha, hreach⟩
    by_cases hn : n = 0
    · exact .inl ((h.depth _ hrow).mp hn)
    · exact .inr ⟨_, hrow, rfl, pos_of_ne_zero hn, rfl⟩
  · rintro (rfl | ⟨⟨a', d', n⟩, hrow, rfl, -, rfl⟩)
    · exact .refl
    · exact ((h.closed a' d').mp ⟨n, hrow⟩).2

theorem LineageIsClosure.inEffectiveGroup_iff (h : db.LineageIsClosure) (hgroup : db.HasGroup groupId) :
    db.inEffectiveGroup userId groupId = true ↔ ∃ m, db.hasMember m userId = true ∧ ReflTransGen db.Edge groupId m := by
  simp only [inEffectiveGroup, Bool.or_eq_true, any_eq_true, decide_eq_true_eq, h.reaches_iff hgroup]
  constructor
  · rintro (hmember | ⟨row, hrow, hanc, hdepth, hmember⟩)
    · exact ⟨groupId, hmember, .inl rfl⟩
    · exact ⟨row.descendant, hmember, .inr ⟨row, hrow, hanc, hdepth, rfl⟩⟩
  · rintro ⟨m, hmember, rfl | ⟨row, hrow, hanc, hdepth, rfl⟩⟩
    · exact .inl hmember
    · exact .inr ⟨row, hrow, hanc, hdepth, hmember⟩

theorem LineageIsClosure.getAccessRelevantGroupNames_ne_nil_iff (h : db.LineageIsClosure) :
    db.getAccessRelevantGroupNames collate userId spId ≠ [] ↔ db.Granted spId userId := by
  rw [getAccessRelevantGroupNames, ne_eq, ← length_eq_zero_iff, length_mergeSort, length_map, length_eq_zero_iff]
  simp only [filter_eq_nil_iff, decide_eq_true_eq, any_eq_true, not_forall, not_not]
  constructor
  · rintro ⟨g, hg, heffective, hassigned⟩
    have hgroup : db.HasGroup g.id := ⟨g, hg, rfl⟩
    obtain ⟨m, hmember, hreach⟩ := (h.inEffectiveGroup_iff hgroup).mp heffective
    rcases hassigned with hassigned | ⟨⟨a, d, n⟩, hrow, rfl, -, hassigned⟩
    · exact ⟨g.id, m, hassigned, hmember, hgroup, hreach⟩
    · obtain ⟨ha, habove⟩ := (h.closed a g.id).mp ⟨n, hrow⟩
      exact ⟨a, m, hassigned, hmember, ha, habove.trans hreach⟩
  · rintro ⟨a, m, hassigned, hmember, hgroup, hreach⟩
    have heffective := (h.inEffectiveGroup_iff hgroup).mpr ⟨m, hmember, hreach⟩
    obtain ⟨g, hg, rfl⟩ := hgroup
    exact ⟨g, hg, heffective, .inl hassigned⟩

theorem mem_pages_iff {α : Type} {l : List α} {pageSize : Nat} (hsize : 0 < pageSize) {a : α} :
    (∃ page, a ∈ (l.drop ((page - 1) * pageSize)).take pageSize) ↔ a ∈ l := by
  constructor
  · rintro ⟨page, ha⟩
    exact mem_of_mem_drop (mem_of_mem_take ha)
  · intro ha
    obtain ⟨i, hi, rfl⟩ := mem_iff_getElem.mp ha
    refine ⟨i / pageSize + 1, ?_⟩
    have hsplit := Nat.div_add_mod' i pageSize
    have hlt := Nat.mod_lt i hsize
    rw [Nat.add_sub_cancel, mem_take_iff_getElem]
    refine ⟨i % pageSize, ?_, ?_⟩
    · rw [length_drop]
      omega
    · simp [hsplit]

section Pages

variable {order : EffectiveMember → EffectiveMember → Bool} {pageSize : Nat} {row : EffectiveMember}

theorem mem_getEffectiveMembers_iff (hsize : 0 < pageSize) :
    (∃ page, row ∈ db.getEffectiveMembers order groupId page pageSize) ↔ row ∈ db.effectiveUsers groupId := by
  simp only [getEffectiveMembers]
  rw [mem_pages_iff hsize, mem_insertionSort]

theorem mem_first_page_iff (hsize : (db.effectiveUsers groupId).length ≤ pageSize) :
    row ∈ db.getEffectiveMembers order groupId 1 pageSize ↔ row ∈ db.effectiveUsers groupId := by
  rw [getEffectiveMembers, Nat.sub_self, Nat.zero_mul, drop_zero, take_of_length_le (by rwa [length_insertionSort]),
    mem_insertionSort]

end Pages

theorem LineageIsClosure.exists_effectiveUsers_iff (h : db.LineageIsClosure) {u : User} (hu : u ∈ db.users)
    (hgroup : db.HasGroup groupId) : (∃ row ∈ db.effectiveUsers groupId, row.userId = u.id) ↔
      ∃ m, db.hasMember m u.id = true ∧ ReflTransGen db.Edge groupId m := by
  have hrows : ∀ userId, (∃ row ∈ db.lineage, row.ancestor = groupId ∧ db.hasMember row.descendant userId = true) ↔
      ∃ m, db.hasMember m userId = true ∧ ReflTransGen db.Edge groupId m := by
    intro userId
    constructor
    · rintro ⟨⟨a, m, n⟩, hrow, rfl, hmember⟩
      exact ⟨m, hmember, ((h.closed a m).mp ⟨n, hrow⟩).2⟩
    · rintro ⟨m, hmember, hreach⟩
      obtain ⟨n, hrow⟩ := (h.closed groupId m).mpr ⟨hgroup, hreach⟩
      exact ⟨_, hrow, rfl, hmember⟩
  rw [← hrows]
  simp only [effectiveUsers, mem_map, mem_filter, any_eq_true, decide_eq_true_eq]
  constructor
  · rintro ⟨row, ⟨v, ⟨-, hv⟩, rfl⟩, hid⟩
    exact hid ▸ hv
  · intro hrow
    exact ⟨_, ⟨u, ⟨hu, hrow⟩, rfl⟩, rfl⟩

def EffectiveGroup (db : Db) (userId groupId : Id) : Prop :=
  ∃ entry ∈ db.getEffectiveMemberships userId, entry.1.id = groupId

theorem effectiveGroup_iff : db.EffectiveGroup userId groupId ↔
    db.HasGroup groupId ∧ db.inEffectiveGroup userId groupId = true := by
  simp only [EffectiveGroup, getEffectiveMemberships, mem_map, mem_filter]
  constructor
  · rintro ⟨entry, ⟨g, ⟨hg, heffective⟩, rfl⟩, rfl⟩
    exact ⟨⟨g, hg, rfl⟩, heffective⟩
  · rintro ⟨⟨g, hg, rfl⟩, heffective⟩
    exact ⟨_, ⟨g, ⟨hg, heffective⟩, rfl⟩, rfl⟩

theorem LineageExact.row_above_iff (h : db.LineageExact) {a : Id} :
    (∃ row ∈ db.lineage, row.descendant = groupId ∧ 0 < row.depth ∧ row.ancestor = a) ↔
      db.HasGroup a ∧ TransGen db.Edge a groupId := by
  have hclosure := h.lineageIsClosure
  constructor
  · rintro ⟨⟨a', d, n⟩, hrow, rfl, hdepth, rfl⟩
    obtain ⟨ha, hreach⟩ := (hclosure.closed a' d).mp ⟨n, hrow⟩
    refine ⟨ha, (reflTransGen_iff_eq_or_transGen.mp hreach).resolve_left fun heq => ?_⟩
    exact ne_of_gt hdepth ((hclosure.depth _ hrow).mpr heq.symm)
  · rintro ⟨ha, habove⟩
    obtain ⟨n, hrow⟩ := (hclosure.closed a groupId).mpr ⟨ha, habove.to_reflTransGen⟩
    refine ⟨_, hrow, rfl, pos_of_ne_zero fun hzero => ?_, rfl⟩
    obtain rfl : a = groupId := (hclosure.depth _ hrow).mp hzero
    exact h.acyclic a habove

def TrunkGroup (db : Db) (userId groupId : Id) : Prop :=
  db.EffectiveGroup userId groupId ∧ ∀ a, db.EffectiveGroup userId a → ¬ TransGen db.Edge a groupId

theorem LineageExact.isTrunkGroup_iff (h : db.LineageExact) (hgroup : db.HasGroup groupId) :
    db.isTrunkGroup userId groupId = true ↔ db.TrunkGroup userId groupId := by
  simp only [isTrunkGroup, TrunkGroup, effectiveGroup_iff, hgroup, true_and, decide_eq_true_eq, any_eq_true,
    not_exists, not_and]
  refine and_congr Iff.rfl ⟨fun hnone a heffective habove => ?_, fun hnone row hrow hdesc hdepth heffective hne => ?_⟩
  · obtain ⟨row, hrow, hdesc, hdepth, rfl⟩ := h.row_above_iff.mpr ⟨heffective.1, habove⟩
    refine hnone row hrow hdesc hdepth heffective.2 fun heq => ?_
    rw [heq] at habove
    exact h.acyclic groupId habove
  · obtain ⟨ha, habove⟩ := h.row_above_iff.mp ⟨row, hrow, hdesc, hdepth, rfl⟩
    exact hnone row.ancestor ⟨ha, heffective⟩ habove

theorem LineageExact.exists_trunkGroup (h : db.LineageExact) (heffective : db.EffectiveGroup userId groupId) :
    ∃ t, db.TrunkGroup userId t ∧ ReflTransGen db.Edge t groupId := by
  have hfinite : {a | db.EffectiveGroup userId a}.Finite := by
    refine (db.groups.map (·.id)).finite_toSet.subset fun a ha => ?_
    obtain ⟨g, hg, rfl⟩ := (effectiveGroup_iff.mp ha).1
    exact mem_map_of_mem hg
  obtain ⟨t, ht, hreach, hmax⟩ := h.acyclic.exists_source hfinite heffective
  exact ⟨t, ⟨ht, hmax⟩, hreach⟩

/-- The trunk groups are the maximal effective groups, and every effective group is one or lies below one. -/
theorem trunk_groups_are_maximal (db : Db) (h : db.LineageExact) (collate : Text → Text → Bool) (userId : Id) :
    (∃ trunks : List Group, trunks.Sublist db.groups ∧ (∀ g ∈ db.groups, g ∈ trunks ↔ db.TrunkGroup userId g.id) ∧
      (db.getTrunkGroupNames collate userId).Perm (trunks.map (·.name))) ∧
    ∀ groupId, db.EffectiveGroup userId groupId → ∃ t, db.TrunkGroup userId t ∧ ReflTransGen db.Edge t groupId := by
  refine ⟨⟨db.groups.filter fun g => db.isTrunkGroup userId g.id, filter_sublist, fun g hg => ?_, ?_⟩,
    fun groupId => h.exists_trunkGroup⟩
  · rw [mem_filter, h.isTrunkGroup_iff ⟨g, hg, rfl⟩]
    exact and_iff_right hg
  · exact mergeSort_perm _ _

theorem userCanAccessSp_iff (h : db.LineageClosed) (hkeys : (db.serviceProviders.map (·.id)).Nodup)
    {sp : ServiceProvider} (hsp : sp ∈ db.serviceProviders) :
    db.userCanAccessSp userId sp.id = true ↔ sp.availableToAll = true ∨ db.Granted sp.id userId := by
  have hflag : (db.serviceProviders.any fun sp' => sp'.id = sp.id ∧ sp'.availableToAll) = sp.availableToAll := by
    rw [Bool.eq_iff_iff, any_eq_true]
    constructor
    · rintro ⟨sp', hsp', hrow⟩
      obtain ⟨hid, hall⟩ := of_decide_eq_true hrow
      rwa [inj_on_of_nodup_map hkeys hsp' hsp hid] at hall
    · exact fun hall => ⟨sp, hsp, by simp [hall]⟩
  rw [userCanAccessSp, hflag, userCanAccessApp_iff h]

/-- The deciders of access agree, and so do the two views of who is in a group: whoever is on some page, ordered in
any way, has the group, and whoever has it is on some page of any one order, and on the first if it holds them all. -/
theorem access_deciders_agree (db : Db) (h : db.LineageIsClosure) (hkeys : (db.serviceProviders.map (·.id)).Nodup) :
    (∀ user ∈ db.users, ∀ sp ∈ db.serviceProviders, sp.enabled = true → sp.trustEstablished = true →
      (db.userCanAccessSp user.id sp.id = true ↔ sp ∈ db.getAccessibleSpsForUser user.id) ∧
      (db.userCanAccessSp user.id sp.id = true ↔
        sp.availableToAll = true ∨ ∀ collate, db.getAccessRelevantGroupNames collate user.id sp.id ≠ []) ∧
      (sp.scimEnabled = true → (db.userCanAccessSp user.id sp.id = true ↔ sp ∈ db.scimSpsGrantingUser user.id))) ∧
    ∀ user ∈ db.users, ∀ group ∈ db.groups, ∀ pageSize > 0,
      (∀ order page, (∃ row ∈ db.getEffectiveMembers order group.id page pageSize, row.userId = user.id) →
        ∃ entry ∈ db.getEffectiveMemberships user.id, entry.1.id = group.id) ∧
      ((∃ entry ∈ db.getEffectiveMemberships user.id, entry.1.id = group.id) → ∀ order,
        (∃ page, ∃ row ∈ db.getEffectiveMembers order group.id page pageSize, row.userId = user.id) ∧
        ((db.effectiveUsers group.id).length ≤ pageSize →
          ∃ row ∈ db.getEffectiveMembers order group.id 1 pageSize, row.userId = user.id)) := by
  refine ⟨fun user _ sp hsp henabled htrust => ?_, fun user huser group hgroup pageSize hsize => ?_⟩
  · simp only [userCanAccessSp_iff h.closed hkeys hsp, h.getAccessRelevantGroupNames_ne_nil_iff, forall_const]
    refine ⟨?_, trivial, fun hscim => ?_⟩
    · simp only [getAccessibleSpsForUser, mem_union_iff, mem_filter, decide_eq_true_eq,
        grantedByGroup_iff_granted h.closed, henabled, htrust, hsp, and_true, true_and]
      exact or_comm
    · simp only [scimSpsGrantingUser, mem_filter, decide_eq_true_eq, grantedByGroup_iff_granted h.closed, hscim, hsp,
        true_and]
  · have hexists : db.HasGroup group.id := ⟨group, hgroup, rfl⟩
    have hrows : (∃ entry ∈ db.getEffectiveMemberships user.id, entry.1.id = group.id) ↔
        ∃ row ∈ db.effectiveUsers group.id, row.userId = user.id := by
      change db.EffectiveGroup user.id group.id ↔ _
      rw [effectiveGroup_iff.trans (and_iff_right hexists), h.inEffectiveGroup_iff hexists,
        ← h.exists_effectiveUsers_iff huser hexists]
    rw [hrows]
    constructor
    · rintro order page ⟨row, hrow, hid⟩
      exact ⟨row, (mem_getEffectiveMembers_iff hsize).mp ⟨page, hrow⟩, hid⟩
    · rintro ⟨row, hrow, hid⟩ order
      obtain ⟨page, hpage⟩ := (mem_getEffectiveMembers_iff hsize).mpr hrow
      exact ⟨⟨page, row, hpage, hid⟩, fun hall => ⟨row, (mem_first_page_iff hall).mpr hrow, hid⟩⟩

/-- After any run of the group services the closure table answers by reachability. -/
theorem access_is_reachability_of_run (db : Db) (calls : List GroupCall) (memberships : List Membership)
    (spGroupAssignments : List SpGroupAssignment) (userId spId : Id) :
    let db' : Db := { Run.run GroupCall.exec db.withoutGroups calls with memberships, spGroupAssignments }
    db'.userCanAccessSp userId spId = true ↔
      (∃ sp ∈ db'.serviceProviders, sp.id = spId ∧ sp.availableToAll) ∨ db'.Granted spId userId := by
  intro db'
  have hclosed : db'.LineageClosed := (lineageExact_run db calls).lineageClosed
  rw [userCanAccessSp, userCanAccessApp_iff hclosed]
  simp

private def parentsAndChildren : List GroupCall :=
  [.createGroup ⟨0, .admin⟩ "parents", .createGroup ⟨0, .admin⟩ "children", .addChild ⟨0, .admin⟩ 0 1]

private def grantedFromAbove : Db := { Run.run GroupCall.exec {} parentsAndChildren with
  users := [{ id := 5 }]
  memberships := [⟨1, 5⟩]
  serviceProviders := [{ id := 7, trustEstablished := true, scimEnabled := true }]
  spGroupAssignments := [⟨7, 0⟩] }

theorem access_deciders_agree_from_above : grantedFromAbove.LineageIsClosure ∧
    grantedFromAbove.userCanAccessSp 5 7 = true ∧
    ∀ collate, grantedFromAbove.getAccessRelevantGroupNames collate 5 7 ≠ [] := by
  have hrun := (lineageExact_run {} parentsAndChildren).lineageIsClosure
  have hclosure : grantedFromAbove.LineageIsClosure := ⟨hrun.closed, hrun.depth⟩
  have hkeys : (grantedFromAbove.serviceProviders.map (·.id)).Nodup := nodup_singleton _
  have haccess : grantedFromAbove.userCanAccessSp 5 7 = true := by decide +kernel
  have hagree := (access_deciders_agree grantedFromAbove hclosure hkeys).1 _ (mem_singleton.mpr rfl) _
    (mem_singleton.mpr rfl) rfl rfl
  exact ⟨hclosure, haccess, (hagree.2.1.mp haccess).resolve_left (by decide)⟩

theorem trunk_groups_are_maximal_from_above : grantedFromAbove.LineageExact ∧
    grantedFromAbove.getTrunkGroupNames (fun _ _ => true) 5 = ["parents".toList] ∧
    ∃ t, grantedFromAbove.TrunkGroup 5 t ∧ ReflTransGen grantedFromAbove.Edge t 1 := by
  have hrun := lineageExact_run {} parentsAndChildren
  have hexact : grantedFromAbove.LineageExact :=
    ⟨⟨hrun.ids, hrun.fresh, hrun.endpoints, hrun.keyed⟩, hrun.exact, hrun.acyclic⟩
  have heffective : grantedFromAbove.EffectiveGroup 5 1 :=
    ⟨({ id := 1, name := "children".toList }, true), by decide +kernel, rfl⟩
  exact ⟨hexact, by decide +kernel,
    (trunk_groups_are_maximal grantedFromAbove hexact (fun _ _ => true) 5).2 1 heffective⟩

end Db

end WeftId
