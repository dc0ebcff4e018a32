import WeftId.Groups.Hierarchy
import WeftId.Lib.Run

/-!
The lineage table is the closure of the relationships, with shortest depths, in every state that the
group services reach.  Each database operation keeps this; the services inherit it.
-/

namespace WeftId

open List Proc ClosureTable Relation Run

namespace Db

def HasGroup (db : Db) (a : Id) : Prop := ∃ g ∈ db.groups, g.id = a

def Edge (db : Db) (a b : Id) : Prop := (⟨a, b⟩ : Relationship) ∈ db.relationships
  deriving Decidable

structure GroupKeys (db : Db) : Prop where
  ids : (db.groups.map Group.id).Nodup
  fresh : ∀ g ∈ db.groups, g.id < db.nextId
  endpoints : ∀ a b, db.Edge a b → db.HasGroup a ∧ db.HasGroup b
  keyed : Keyed db.lineage

structure LineageExact (db : Db) : Prop extends GroupKeys db where
  exact : Exact db.HasGroup db.Edge (depthOf db.lineage)
  acyclic : Acyclic db.Edge

variable {db : Db} {a d : Id}

theorem LineageExact.mem_lineage_iff (h : db.LineageExact) {n : Nat} :
    ⟨a, d, n⟩ ∈ db.lineage ↔ db.HasGroup a ∧ IsLeast {k | Walk db.Edge k a d} n := by
  rw [h.keyed.mem_iff, h.exact.eq_some_iff]

theorem LineageExact.exists_mem_lineage_iff (h : db.LineageExact) :
    (∃ n, ⟨a, d, n⟩ ∈ db.lineage) ↔ db.HasGroup a ∧ ReflTransGen db.Edge a d := by
  rw [← depthOf_isSome_iff, h.exact.isSome_iff]

theorem getGroupById_isSome : (db.getGroupById a).isSome ↔ db.HasGroup a := by
  simp [getGroupById, HasGroup]

variable {group : Id → Group} {lineage : List (Row Id)} {db' : Db} {id p c : Id} {n : Nat}

theorem insertGroup_eq_ok (h : db.insertGroup group = .ok (id, db')) :
    (depthOf db.lineage (group db.nextId).id (group db.nextId).id) = none ∧ id = (group db.nextId).id ∧
      db' = { db with
        nextId := db.nextId + 1
        groups := db.groups ++ [group db.nextId]
        lineage := db.lineage ++ [⟨(group db.nextId).id, (group db.nextId).id, 0⟩] } := by
  unfold insertGroup at h
  simp only at h
  split_ifs at h with h1 h2 h3 h4 h5 h6 h7 h8
  obtain ⟨hid, hdb⟩ := Prod.mk.inj (Except.ok.inj h)
  exact ⟨by simpa using h8, hid.symm, hdb.symm⟩

theorem GroupKeys.not_hasGroup_nextId (h : db.GroupKeys) : ¬ db.HasGroup db.nextId := by
  rintro ⟨g, hg, hid⟩
  exact lt_irrefl _ (hid ▸ h.fresh g hg)

theorem GroupKeys.insertGroup (h : db.GroupKeys)
    (hgroup : ∀ i, (group i).id = i) (hok : db.insertGroup group = .ok (id, db')) : db'.GroupKeys := by
  obtain ⟨hnone, -, rfl⟩ := insertGroup_eq_ok hok
  rw [hgroup] at hnone ⊢
  constructor
  · have hid : (group db.nextId).id ∉ db.groups.map Group.id := by
      rw [hgroup]
      intro hmem
      obtain ⟨g, hg, hgid⟩ := mem_map.mp hmem
      exact h.not_hasGroup_nextId ⟨g, hg, hgid⟩
    rw [map_append]
    exact List.Nodup.append h.ids (nodup_singleton _) (disjoint_singleton.mpr hid)
  · intro g hg
    rcases mem_concat_iff.mp hg with hg | rfl
    · exact Nat.lt_succ_of_lt (h.fresh g hg)
    · rw [hgroup]
      exact Nat.lt_succ_self _
  · intro a b hab
    obtain ⟨⟨g, hg, hga⟩, ⟨k, hk, hkb⟩⟩ := h.endpoints a b hab
    exact ⟨⟨g, mem_append_left _ hg, hga⟩, ⟨k, mem_append_left _ hk, hkb⟩⟩
  · have hkey : (db.nextId, db.nextId) ∉ db.lineage.map Row.key := by
      rw [mem_key_iff, ← depthOf_isSome_iff, hnone]
      simp
    unfold Keyed
    rw [map_append]
    exact List.Nodup.append h.keyed (nodup_singleton _) (disjoint_singleton.mpr hkey)

theorem LineageExact.insertGroup (h : db.LineageExact)
    (hgroup : ∀ i, (group i).id = i) (hok : db.insertGroup group = .ok (id, db')) : db'.LineageExact := by
  have hkeys := h.toGroupKeys.insertGroup hgroup hok
  obtain ⟨-, -, rfl⟩ := insertGroup_eq_ok hok
  rw [hgroup] at hkeys ⊢
  have hnew := h.not_hasGroup_nextId
  have hnone : ∀ d, depthOf db.lineage db.nextId d = none := by
    intro d
    by_contra hd
    have hsome := Option.isSome_iff_ne_none.mpr hd
    exact hnew (h.exact.isSome_iff.mp hsome).1
  have hnewExact := h.exact.addVertex
    (u := depthOf (db.lineage ++ [⟨db.nextId, db.nextId, 0⟩])) hnew
    (fun b hb => hnew (h.endpoints _ _ hb).1)
    (by rw [depthOf_append, hnone]; simp [depthOf])
    (fun a d had => by
      rw [depthOf_append]
      have hne : ¬ (db.nextId = a ∧ db.nextId = d) := fun h => had (by rw [← h.1, ← h.2])
      simp [depthOf, hne])
  refine ⟨hkeys, ?_, h.acyclic⟩
  have hV : HasGroup { db with
      nextId := db.nextId + 1
      groups := db.groups ++ [group db.nextId]
      lineage := db.lineage ++ [⟨db.nextId, db.nextId, 0⟩] } = fun a => db.HasGroup a ∨ a = db.nextId := by
    funext a
    simp [HasGroup, hgroup, eq_comm]
  rw [hV]
  exact hnewExact

theorem mem_crossLineage : ⟨a, d, n⟩ ∈ crossLineage lineage p c ↔
      ∃ i j, ⟨a, p, i⟩ ∈ lineage ∧ ⟨c, d, j⟩ ∈ lineage ∧ n = i + j + 1 := by
  simp only [crossLineage, mem_flatMap, mem_map, mem_filter, decide_eq_true_eq, Row.mk.injEq]
  constructor
  · rintro ⟨x, ⟨hx, rfl⟩, y, ⟨hy, rfl⟩, rfl, rfl, rfl⟩
    exact ⟨x.depth, y.depth, hx, hy, rfl⟩
  · rintro ⟨i, j, hi, hj, rfl⟩
    exact ⟨_, ⟨hi, rfl⟩, _, ⟨hj, rfl⟩, rfl, rfl, rfl⟩

theorem keyed_crossLineage (h : Keyed lineage) : Keyed (crossLineage lineage p c) := by
  have hside : ∀ (q : Row Id → Bool) (f : Row Id → Id), (∀ x y, q x → q y → f x = f y → x.key = y.key) →
      ((lineage.filter q).map f).Nodup := by
    intro q f hq
    refine List.Nodup.map_on (fun x hx y hy hxy => ?_) (List.Nodup.of_map _ (h.filter _))
    rw [mem_filter] at hx hy
    exact inj_on_of_nodup_map h hx.1 hy.1 (hq x y hx.2 hy.2 hxy)
  have hleft := hside (·.descendant = p) Row.ancestor (by simp +contextual [Row.key])
  have hright := hside (·.ancestor = c) Row.descendant (by simp +contextual [Row.key])
  have hprod := hleft.product hright
  simpa [Keyed, crossLineage, map_flatMap, flatMap_map, Function.comp_def, Row.key,
    SProd.sprod, product] using hprod

theorem depthOf_crossLineage (h : Keyed lineage) :
    depthOf (crossLineage lineage p c) a d = through (depthOf lineage) p c a d := by
  ext n
  rw [← (keyed_crossLineage h).mem_iff, mem_crossLineage, through_eq_some]
  simp [h.mem_iff]

section AddEdge

variable {db : Db} {p c : Id}

theorem edge_addGroupRelationship : Edge { db with
    relationships := db.relationships ++ [⟨p, c⟩]
    lineage := upsertLeast db.lineage (crossLineage db.lineage p c) } = AddEdge db.Edge p c := by
  funext a b
  simp [Edge, AddEdge]

theorem GroupKeys.addGroupRelationship (h : db.GroupKeys) (hp : db.HasGroup p) (hc : db.HasGroup c) :
    GroupKeys { db with
      relationships := db.relationships ++ [⟨p, c⟩]
      lineage := upsertLeast db.lineage (crossLineage db.lineage p c) } := by
  refine ⟨h.ids, h.fresh, ?_, keyed_upsertLeast h.keyed (keyed_crossLineage h.keyed)⟩
  intro a b hab
  rw [edge_addGroupRelationship] at hab
  rcases hab with hab | ⟨rfl, rfl⟩
  · exact h.endpoints a b hab
  · exact ⟨hp, hc⟩

theorem LineageExact.addGroupRelationship (h : db.LineageExact) (hp : db.HasGroup p) (hc : db.HasGroup c)
    (hcycle : db.wouldCreateCycle p c = false) :
    LineageExact { db with
      relationships := db.relationships ++ [⟨p, c⟩]
      lineage := upsertLeast db.lineage (crossLineage db.lineage p c) } := by
  have hnot : ¬ ReflTransGen db.Edge c p := by
    intro hr
    have hsome := h.exact.isSome_iff.mpr ⟨hc, hr⟩
    simp [wouldCreateCycle] at hcycle
    simp [hcycle] at hsome
  refine ⟨h.toGroupKeys.addGroupRelationship hp hc, ?_, ?_⟩
  · rw [edge_addGroupRelationship]
    have htable : depthOf (upsertLeast db.lineage (crossLineage db.lineage p c)) =
        fun a d => Option.merge min (depthOf db.lineage a d) (through (depthOf db.lineage) p c a d) := by
      funext a d
      rw [depthOf_upsertLeast, depthOf_crossLineage h.keyed]
    rw [htable]
    exact h.exact.addEdge hc
  · rw [edge_addGroupRelationship]
    exact h.acyclic.addEdge hnot

end AddEdge

theorem addGroupRelationship_eq_ok {b : Bool} (h : db.addGroupRelationship p c = .ok (b, db')) :
    (b = false ∧ db' = db) ∨ (b = true ∧ p ≠ c ∧ db.HasGroup p ∧ db.HasGroup c ∧ db' = { db with
      relationships := db.relationships ++ [⟨p, c⟩]
      lineage := upsertLeast db.lineage (crossLineage db.lineage p c) }) := by
  unfold addGroupRelationship at h
  simp only at h
  split_ifs at h with h1 h2 h3 h4 h5
  · obtain ⟨hb, hdb⟩ := Prod.mk.inj (Except.ok.inj h)
    exact .inl ⟨hb.symm, hdb.symm⟩
  · obtain ⟨hb, hdb⟩ := Prod.mk.inj (Except.ok.inj h)
    refine .inr ⟨hb.symm, h1, getGroupById_isSome.mp ?_, getGroupById_isSome.mp ?_, hdb.symm⟩
    · exact Option.isSome_iff_ne_none.mpr h3
    · exact Option.isSome_iff_ne_none.mpr h4

section Reachable

variable {relationships : List Relationship} {descendants : List Id} {rows : List (Row Id)} {a d : Id} {n : Nat}

def rowStep (relationships : List Relationship) (r r' : Row Id) : Prop :=
  ∃ b, (⟨b, r.ancestor⟩ : Relationship) ∈ relationships ∧ r' = ⟨b, r.descendant, r.depth + 1⟩

theorem mem_reachableNext (working : List (Row Id)) (x : Row Id) :
    x ∈ reachableNext relationships working ↔ ∃ r ∈ working, rowStep relationships r x := by
  simp only [reachableNext, mem_flatMap, mem_map, mem_filter, decide_eq_true_eq]
  constructor
  · rintro ⟨r, hr, gr, ⟨hgr, hchild⟩, rfl⟩
    exact ⟨r, hr, gr.parentGroupId, hchild ▸ hgr, rfl⟩
  · rintro ⟨r, hr, b, hb, rfl⟩
    exact ⟨r, hr, ⟨b, r.ancestor⟩, ⟨hb, rfl⟩, rfl⟩

theorem mem_reachableBase : ⟨a, d, n⟩ ∈ reachableBase relationships descendants ↔
      ⟨a, d⟩ ∈ relationships ∧ d ∈ descendants ∧ n = 1 := by
  simp only [reachableBase, mem_dedup, mem_map, mem_filter, decide_eq_true_eq, Row.mk.injEq]
  constructor
  · rintro ⟨gr, ⟨hgr, hd⟩, rfl, rfl, rfl⟩
    exact ⟨hgr, hd, rfl⟩
  · rintro ⟨hrel, hd, rfl⟩
    exact ⟨_, ⟨hrel, hd⟩, rfl, rfl, rfl⟩

theorem rowStep_reaches_iff :
    (∃ r ∈ reachableBase relationships descendants, ReflTransGen (rowStep relationships) r ⟨a, d, n⟩) ↔
      d ∈ descendants ∧ 0 < n ∧ Walk (fun a b => ⟨a, b⟩ ∈ relationships) n a d := by
  constructor
  · rintro ⟨⟨p, c, m⟩, hr, hreach⟩
    obtain ⟨hrel, hc, rfl⟩ := mem_reachableBase.mp hr
    generalize hx : (⟨a, d, n⟩ : Row Id) = x at hreach
    induction hreach generalizing a d n with
    | refl =>
      obtain ⟨rfl, rfl, rfl⟩ := Row.mk.inj hx
      exact ⟨hc, one_pos, .single hrel⟩
    | @tail y z hy hyz ih =>
      obtain ⟨b, hb, rfl⟩ := hyz
      obtain ⟨rfl, rfl, rfl⟩ := Row.mk.inj hx
      obtain ⟨hd, -, hw⟩ := ih rfl
      exact ⟨hd, Nat.succ_pos _, .head hb hw⟩
  · rintro ⟨hd, hpos, hw⟩
    induction hw with
    | refl => exact absurd hpos (lt_irrefl 0)
    | @head n a b d hab hbd ih =>
      cases hbd with
      | refl => exact ⟨_, mem_reachableBase.mpr ⟨hab, hd, rfl⟩, .refl⟩
      | head =>
        obtain ⟨r, hr, hreach⟩ := ih hd (Nat.succ_pos _)
        exact ⟨r, hr, hreach.tail ⟨a, hab, rfl⟩⟩

theorem mem_reachable_iff (h : reachable relationships descendants = some rows) : ⟨a, d, n⟩ ∈ rows ↔
      d ∈ descendants ∧ 0 < n ∧ Walk (fun a b => ⟨a, b⟩ ∈ relationships) n a d := by
  rw [mem_recursiveUnion_iff mem_reachableNext h, rowStep_reaches_iff]

theorem reachable_isSome (h : Acyclic fun a b => ⟨a, b⟩ ∈ relationships) :
    (reachable relationships descendants).isSome := by
  refine recursiveUnion_isSome mem_reachableNext Row.depth relationships.length ?_ ?_ ?_
  · rintro y x ⟨b, -, rfl⟩
    exact Nat.lt_succ_self y.depth
  · rintro y hy ⟨a, d, n⟩ hyx
    have hw := (rowStep_reaches_iff.mp ⟨y, hy, hyx⟩).2.2
    have hlen := h.walk_length_le (relationships.map fun gr => (gr.parentGroupId, gr.childGroupId))
      (fun a b hab => mem_map.mpr ⟨_, hab, rfl⟩) hw
    simpa using hlen
  · omega

end Reachable

section Remove

variable {db : Db} {p c a d : Id} {n : Nat} {rows : List (Row Id)}

theorem mem_getDescendantIds : d ∈ db.getDescendantIds c ↔ (depthOf db.lineage c d).isSome := by
  rw [depthOf_isSome_iff]
  simp only [getDescendantIds, mem_map, mem_filter, decide_eq_true_eq]
  constructor
  · rintro ⟨r, ⟨hr, rfl⟩, rfl⟩
    exact ⟨r.depth, hr⟩
  · rintro ⟨n, hn⟩
    exact ⟨_, ⟨hn, rfl⟩, rfl⟩

theorem depthOf_keptLineage : depthOf (keptLineage db.lineage (db.getDescendantIds c)) a d =
      if (depthOf db.lineage c d).isSome ∧ a ≠ d then none else depthOf db.lineage a d := by
  rw [keptLineage, depthOf_filter fun a d => decide (¬ (d ∈ db.getDescendantIds c ∧ a ≠ d))]
  by_cases hcond : (depthOf db.lineage c d).isSome ∧ a ≠ d
  · simp [mem_getDescendantIds, hcond]
  · simp only [mem_getDescendantIds, hcond, not_false_eq_true, decide_true, if_true, if_false]

theorem LineageExact.hasGroup_of_isSome (h : db.LineageExact) (hsome : (depthOf db.lineage a d).isSome) :
    db.HasGroup d := by
  obtain ⟨ha, hr⟩ := h.exact.isSome_iff.mp hsome
  rcases hr with _ | ⟨_, hlast⟩
  · exact ha
  · exact (h.endpoints _ _ hlast).2

theorem LineageExact.getDescendantIds_ne_nil (h : db.LineageExact) (hc : db.HasGroup c) :
    db.getDescendantIds c ≠ [] := by
  have hself := mem_getDescendantIds.mpr (by rw [h.exact.self hc]; rfl)
  exact ne_nil_of_mem hself

theorem edge_filter_ne : (fun a b => ⟨a, b⟩ ∈ db.relationships.filter (· ≠ ⟨p, c⟩)) =
    DropEdge db.Edge p c := by
  funext a b
  simp only [DropEdge, Edge, mem_filter, decide_eq_true_eq, ne_eq, Relationship.mk.injEq]

theorem LineageExact.mem_joined_iff (h : db.LineageExact)
    (hrows : ∀ r ∈ rows, r.descendant ∈ db.getDescendantIds c) {r : Row Id} :
    (r ∈ rows.filter fun r => (keptLineage db.lineage (db.getDescendantIds c)).any
      fun gl => gl.descendant = r.descendant ∧ gl.depth = 0) ↔ r ∈ rows := by
  simp only [mem_filter, and_iff_left_iff_imp]
  intro hr
  have hd := h.hasGroup_of_isSome (mem_getDescendantIds.mp (hrows r hr))
  have hself := mem_of_depthOf (h.exact.self hd)
  have hkept : ⟨r.descendant, r.descendant, 0⟩ ∈ keptLineage db.lineage (db.getDescendantIds c) :=
    mem_filter.mpr ⟨hself, by simp⟩
  exact any_eq_true.mpr ⟨_, hkept, by simp⟩

theorem LineageExact.exact_rebuildLineage (h : db.LineageExact) (hc : db.HasGroup c)
    (hrows : ∀ a d n, ⟨a, d, n⟩ ∈ rows ↔
      d ∈ db.getDescendantIds c ∧ 0 < n ∧ Walk (DropEdge db.Edge p c) n a d) : Exact db.HasGroup (DropEdge db.Edge p c)
      (depthOf (rebuildLineage (keptLineage db.lineage (db.getDescendantIds c)) rows)) := by
  have hjoined : ∀ r, _ ↔ r ∈ rows := fun r => h.mem_joined_iff fun r hr =>
    ((hrows r.ancestor r.descendant r.depth).mp hr).1
  have htable := h.exact.dropEdge
    (fun a b hab => (h.endpoints a b hab).1) hc
    (fun a d n hn => ((hrows a d n).mp ((hjoined _).mp (mem_of_depthOf_distinctOnLeast hn))).2)
    (fun a d k hcd hk hw => depthOf_distinctOnLeast_le
      ((hjoined _).mpr ((hrows a d k).mpr ⟨mem_getDescendantIds.mpr hcd, hk, hw⟩)))
  convert htable using 3
  rw [rebuildLineage, depthOf_upsertLeast, depthOf_keptLineage]

theorem LineageExact.removeGroupRelationship (h : db.LineageExact) (hpc : db.Edge p c) :
    ∃ db', db.removeGroupRelationship p c = .ok (1, db') ∧ db'.LineageExact ∧ db'.Edge = DropEdge db.Edge p c := by
  have hc := (h.endpoints p c hpc).2
  have hacyclic : Acyclic (DropEdge db.Edge p c) := h.acyclic.mono fun _ _ hab => hab.1
  obtain ⟨rows, hrows⟩ := Option.isSome_iff_exists.mp
    (reachable_isSome (edge_filter_ne ▸ hacyclic))
  have hmem : ∀ a d n, ⟨a, d, n⟩ ∈ rows ↔
      d ∈ db.getDescendantIds c ∧ 0 < n ∧ Walk (DropEdge db.Edge p c) n a d := by
    intro a d n
    rw [mem_reachable_iff hrows, edge_filter_ne]
  refine ⟨{ db with
    relationships := db.relationships.filter (· ≠ ⟨p, c⟩)
    lineage := rebuildLineage (keptLineage db.lineage (db.getDescendantIds c)) rows }, ?_, ?_, edge_filter_ne⟩
  · have hlinked : db.relationshipExists p c = true := decide_eq_true hpc
    simp only [Db.removeGroupRelationship, hlinked, not_true_eq_false, if_false, hrows]
    rw [if_neg (h.getDescendantIds_ne_nil hc)]
  · refine ⟨⟨h.ids, h.fresh, ?_, keyed_upsertLeast (h.keyed.filter _) keyed_distinctOnLeast⟩, ?_, ?_⟩
    · intro a b hab
      exact h.endpoints a b (mem_filter.mp hab).1
    · change Exact db.HasGroup (fun a b => ⟨a, b⟩ ∈ db.relationships.filter (· ≠ ⟨p, c⟩)) _
      rw [edge_filter_ne]
      exact h.exact_rebuildLineage hc hmem
    · change Acyclic fun a b => ⟨a, b⟩ ∈ db.relationships.filter (· ≠ ⟨p, c⟩)
      rw [edge_filter_ne]
      exact hacyclic

end Remove

section Delete

variable {db : Db} {selected : Group → Bool} {a d : Id} {n : Nat}

def Selected (db : Db) (selected : Group → Bool) (a : Id) : Prop := ∃ g ∈ db.groups, selected g ∧ g.id = a

theorem mem_map_filter_iff : a ∈ (db.groups.filter selected).map Group.id ↔ db.Selected selected a := by
  simp [Selected, and_assoc]

theorem edge_deleteGroupsWhere : (db.deleteGroupsWhere selected).2.Edge = CutOut db.Edge (db.Selected selected) := by
  funext a b
  simp only [deleteGroupsWhere, Edge, CutOut, mem_filter, mem_map_filter_iff, decide_eq_true_eq]

theorem mem_lineage_deleteGroupsWhere {r : Row Id} : r ∈ (db.deleteGroupsWhere selected).2.lineage ↔
    r ∈ db.lineage ∧ ¬ db.Selected selected r.ancestor ∧ ¬ db.Selected selected r.descendant := by
  simp only [deleteGroupsWhere, mem_filter, mem_map_filter_iff, decide_eq_true_eq]

theorem GroupKeys.hasGroup_deleteGroupsWhere (h : db.GroupKeys) :
    (db.deleteGroupsWhere selected).2.HasGroup a ↔ db.HasGroup a ∧ ¬ db.Selected selected a := by
  simp only [deleteGroupsWhere, HasGroup, mem_filter, decide_eq_true_eq]
  constructor
  · rintro ⟨g, ⟨hg, hkeep⟩, rfl⟩
    refine ⟨⟨g, hg, rfl⟩, ?_⟩
    rintro ⟨g', hg', hsel, hid⟩
    obtain rfl := inj_on_of_nodup_map h.ids hg' hg hid
    exact hkeep hsel
  · rintro ⟨⟨g, hg, rfl⟩, hnot⟩
    exact ⟨g, ⟨hg, fun hsel => hnot ⟨g, hg, hsel, rfl⟩⟩, rfl⟩

theorem GroupKeys.deleteGroupsWhere (h : db.GroupKeys) (selected : Group → Bool) :
    (db.deleteGroupsWhere selected).2.GroupKeys where
  ids := h.ids.sublist (filter_sublist.map Group.id)
  fresh g hg := h.fresh g (mem_filter.mp hg).1
  endpoints a b hab := by
    rw [edge_deleteGroupsWhere] at hab
    obtain ⟨hedge, ha, hb⟩ := hab
    have hends := h.endpoints a b hedge
    exact ⟨h.hasGroup_deleteGroupsWhere.mpr ⟨hends.1, ha⟩, h.hasGroup_deleteGroupsWhere.mpr ⟨hends.2, hb⟩⟩
  keyed := h.keyed.filter _

theorem LineageExact.exact_deleteGroupsWhere_iff (h : db.LineageExact) :
    (db.deleteGroupsWhere selected).2.LineageExact ↔ ∀ n p c, Detour db.Edge (db.Selected selected) n p c →
        ∃ k ≤ n, Walk (CutOut db.Edge (db.Selected selected)) k p c := by
  have hkeys := h.toGroupKeys.deleteGroupsWhere selected
  have hV : (db.deleteGroupsWhere selected).2.HasGroup = fun a => db.HasGroup a ∧ ¬ db.Selected selected a :=
    funext fun a => propext h.toGroupKeys.hasGroup_deleteGroupsWhere
  have ht : ∀ a d n, depthOf (db.deleteGroupsWhere selected).2.lineage a d = some n ↔
      depthOf db.lineage a d = some n ∧ ¬ db.Selected selected a ∧ ¬ db.Selected selected d := by
    intro a d n
    rw [← hkeys.keyed.mem_iff, mem_lineage_deleteGroupsWhere, h.keyed.mem_iff]
  have hiff := h.exact.cutOut_iff (fun a b hab => (h.endpoints a b hab).1) ht
  rw [← hV, ← edge_deleteGroupsWhere] at hiff
  constructor
  · intro h'
    rw [← edge_deleteGroupsWhere]
    exact hiff.mp h'.exact
  · intro hby
    rw [← edge_deleteGroupsWhere] at hby
    refine ⟨hkeys, hiff.mpr hby, ?_⟩
    rw [edge_deleteGroupsWhere]
    exact h.acyclic.mono fun _ _ hab => hab.1

theorem LineageExact.deleteGroup {g : Id} (h : db.LineageExact) (hparents : db.getGroupParents g = []) :
    (db.deleteGroup g).2.LineageExact := by
  rw [Db.deleteGroup, h.exact_deleteGroupsWhere_iff]
  rintro n p c ⟨-, -, x, -, -, -, hpx, ⟨g', -, hsel, rfl⟩, -⟩
  obtain rfl : g'.id = g := by simpa using hsel
  obtain ⟨parent, hparent⟩ := Option.isSome_iff_exists.mp (getGroupById_isSome.mpr (h.endpoints p g'.id hpx).1)
  have hmem : parent ∈ db.getGroupParents g'.id :=
    mem_filterMap.mpr ⟨⟨p, g'.id⟩, mem_filter.mpr ⟨hpx, by simp⟩, hparent⟩
  rw [hparents] at hmem
  exact absurd hmem not_mem_nil

end Delete

end Db

section Services

variable {db : Db} {user : RequestingUser} {p c g : Id}

theorem createGroup_preserves {name : Text} : (createGroup user name).Within (Preserves Db.LineageExact) := by
  refine .require fun _ => .require fun _ =>
    .read fun _ => .require fun _ => within_tx ?_
  intro db id db' hok h
  exact h.insertGroup (fun _ => rfl) hok

theorem createIdpBaseGroup_preserves {idpId : Id} {idpName : Text} {source : Source} :
    (createIdpBaseGroup idpId idpName source).Within (Preserves Db.LineageExact) := by
  refine .read fun _ => .require fun _ => within_tx ?_
  intro db id db' hok h
  exact h.insertGroup (fun _ => by cases source <;> rfl) hok

theorem addChild_preserves : (addChild user p c).Within (Preserves Db.LineageExact) := by
  intro db h
  change (addChild user p c).Ensures db fun _ db' => db'.LineageExact
  refine .require h fun _ => .require h fun _ => .orRaise h fun parent hp => .orRaise h fun child hc => ?_
  refine .read (.require h fun _ => .read (.require h fun _ => ?_))
  refine .read (.require h fun hcycle => ensures_bind.mpr (ensures_tx.mpr ⟨?_, fun _ _ => h⟩))
  intro linked db' hok
  rcases Db.addGroupRelationship_eq_ok hok with ⟨-, rfl⟩ | ⟨-, -, hp, hc, rfl⟩
  · exact h
  · exact h.addGroupRelationship hp hc (by simpa using hcycle)

theorem removeGroupRelationship_preserves :
    (tx (·.removeGroupRelationship p c)).Within (Preserves Db.LineageExact) := by
  refine within_tx fun db n db' hok h => ?_
  by_cases hpc : db.Edge p c
  · obtain ⟨db'', hok', h', -⟩ := h.removeGroupRelationship hpc
    rw [hok] at hok'
    obtain rfl := Except.ok_snd hok'
    exact h'
  · have hlinked : db.relationshipExists p c = false := decide_eq_false hpc
    simp only [Db.removeGroupRelationship, hlinked] at hok
    obtain rfl := Except.ok_snd hok
    exact h

theorem removeChild_preserves : (removeChild user p c).Within (Preserves Db.LineageExact) :=
  .require fun _ => .read fun _ =>
    .read fun _ => .read fun _ =>
    .require fun _ => within_bind removeGroupRelationship_preserves fun _ =>
    within_require

theorem removeAllRelationships_preserves :
    (removeAllRelationships user g).Within (Preserves Db.LineageExact) := by
  refine .require fun _ => .orRaise fun group =>
    .read fun parents => .read fun children =>
    within_bind (within_forEach fun parent _ => ?_) fun _ => within_forEach fun child _ => ?_
  all_goals
    exact .read fun _ => .read fun _ =>
      within_whenever fun _ => within_bind removeGroupRelationship_preserves fun _ => within_pure _

theorem deleteGroup_preserves : (deleteGroup user g).Within (Preserves Db.LineageExact) := by
  intro db h
  change (deleteGroup user g).Ensures db fun _ db' => db'.LineageExact
  refine .require h fun _ => .orRaise h fun existing _ => .require h fun _ => ?_
  refine .read (.read (.require h fun hrel => ?_))
  exact h.deleteGroup hrel.1

theorem GroupCall.exec_preserves (h : db.LineageExact) {call : GroupCall} : (call.exec db).LineageExact := by
  cases call with
  | createGroup => exact createGroup_preserves db h
  | createIdpBaseGroup => exact createIdpBaseGroup_preserves db h
  | addChild => exact addChild_preserves db h
  | removeChild => exact removeChild_preserves db h
  | removeAllRelationships user g => exact removeAllRelationships_preserves db h
  | deleteGroup user g => exact deleteGroup_preserves db h

def Db.withoutGroups (db : Db) : Db :=
  { db with groups := [], relationships := [], lineage := [], memberships := [] }

theorem lineageExact_withoutGroups : db.withoutGroups.LineageExact := by
  have hedge : ∀ a b, ¬ db.withoutGroups.Edge a b := by simp [Db.Edge, Db.withoutGroups]
  refine ⟨⟨nodup_nil, by simp [Db.withoutGroups], fun a b hab => absurd hab (hedge a b), nodup_nil⟩,
    ⟨?_, ?_⟩, ?_⟩
  · simp [Db.withoutGroups, depthOf]
  · rintro a d k ⟨g, hg, -⟩
    simp [Db.withoutGroups] at hg
  · intro a ha
    obtain ⟨b, hab, -⟩ := TransGen.head'_iff.mp ha
    exact hedge a b hab

theorem lineageExact_run (db : Db) (calls : List GroupCall) :
    (run GroupCall.exec db.withoutGroups calls).LineageExact :=
  invariant (fun _ _ h => GroupCall.exec_preserves h) lineageExact_withoutGroups

/-- In every state the group services reach from a tenant without groups, the lineage table holds the
shortest distances of the acyclic relationship graph, one row for each connected pair. -/
theorem lineage_is_closure_of_run (db : Db) (calls : List GroupCall) :
    let db' := run GroupCall.exec db.withoutGroups calls
    (∀ a d, (∃ n, (⟨a, d, n⟩ : Row Id) ∈ db'.lineage) ↔ db'.HasGroup a ∧ ReflTransGen db'.Edge a d) ∧
      (db'.lineage.map Row.key).Nodup ∧
      (∀ r ∈ db'.lineage, IsLeast {k | Walk db'.Edge k r.ancestor r.descendant} r.depth) ∧
      ∀ a, ¬ TransGen db'.Edge a a := by
  intro db'
  have h : db'.LineageExact := lineageExact_run db calls
  exact ⟨fun a d => h.exists_mem_lineage_iff, h.keyed, fun r hr => (h.mem_lineage_iff.mp hr).2, h.acyclic⟩

example :
    let admin : RequestingUser := ⟨0, .admin⟩
    let diamond := run GroupCall.exec {} [.createGroup admin "a", .createGroup admin "b",
      .createGroup admin "c", .createGroup admin "d", .addChild admin 0 1, .addChild admin 0 2,
      .addChild admin 1 3, .addChild admin 2 3, .addChild admin 0 3, .removeChild admin 0 3,
      .removeChild admin 1 3]
    depthOf diamond.lineage 0 3 = some 2 ∧ depthOf diamond.lineage 1 3 = none := by decide

end Services

end WeftId
