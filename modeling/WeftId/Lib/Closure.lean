import WeftId.Lib.Walk

/-!
A table of shortest distances kept beside a relation: what it means for the table to be exact, and
how an exact table is updated when an edge is added, an edge is removed or vertices are cut out.
-/

namespace ClosureTable

open List Relation

variable {α : Type*} {r : α → α → Prop} {V : α → Prop} {t : α → α → Option Nat}
  {a c d p : α} {k m n : Nat} {x y : Option Nat}

theorem merge_min_eq_some (h : Option.merge min x y = some n) : x = some n ∨ y = some n := by
  cases x with
  | none => exact .inr (by simpa using h)
  | some i =>
    cases y with
    | none => exact .inl (by simpa using h)
    | some j =>
      have hn : min i j = n := by simpa using h
      rcases le_total i j with hij | hij
      · exact .inl (by rw [← hn, min_eq_left hij])
      · exact .inr (by rw [← hn, min_eq_right hij])

theorem merge_min_le_left (h : x = some m) : ∃ n ≤ m, Option.merge min x y = some n := by
  subst h
  cases y with
  | none => exact ⟨m, le_rfl, rfl⟩
  | some j => exact ⟨min m j, min_le_left m j, rfl⟩

theorem merge_min_le_right (h : y = some m) : ∃ n ≤ m, Option.merge min x y = some n := by
  subst h
  cases x with
  | none => exact ⟨m, le_rfl, rfl⟩
  | some i => exact ⟨min i m, min_le_right i m, rfl⟩

/-- `t` holds the shortest distance between exactly the pairs with a path that starts in `V`. -/
structure Exact (V : α → Prop) (r : α → α → Prop) (t : α → α → Option Nat) : Prop where
  sound : ∀ a d n, t a d = some n → V a ∧ Walk r n a d
  short : ∀ a d k, V a → Walk r k a d → ∃ n ≤ k, t a d = some n

theorem Exact.eq_some_iff (h : Exact V r t) : t a d = some n ↔ V a ∧ IsLeast {k | Walk r k a d} n := by
  constructor
  · intro ht
    obtain ⟨hV, hw⟩ := h.sound a d n ht
    refine ⟨hV, hw, fun k hk => ?_⟩
    obtain ⟨n', hn', ht'⟩ := h.short a d k hV hk
    obtain rfl : n' = n := Option.some.inj (ht'.symm.trans ht)
    exact hn'
  · rintro ⟨hV, hw, hleast⟩
    obtain ⟨n', hn', ht'⟩ := h.short a d n hV hw
    have hle : n ≤ n' := hleast (h.sound a d n' ht').2
    obtain rfl : n' = n := by omega
    exact ht'

theorem Exact.isSome_iff (h : Exact V r t) : (t a d).isSome ↔ V a ∧ ReflTransGen r a d := by
  rw [Option.isSome_iff_exists]
  constructor
  · rintro ⟨n, hn⟩
    exact ⟨(h.sound a d n hn).1, (h.sound a d n hn).2.reflTransGen⟩
  · rintro ⟨hV, hr⟩
    obtain ⟨k, hk⟩ := reflTransGen_iff_walk.mp hr
    obtain ⟨n, -, hn⟩ := h.short a d k hV hk
    exact ⟨n, hn⟩

theorem Exact.self (h : Exact V r t) (ha : V a) : t a a = some 0 := by
  obtain ⟨n, hn, ht⟩ := h.short a a 0 ha (.refl a)
  obtain rfl : n = 0 := by omega
  exact ht

theorem Exact.addVertex {v : α} {u : α → α → Option Nat} (h : Exact V r t) (hv : ¬ V v)
    (hout : ∀ b, ¬ r v b) (hself : u v v = some 0)
    (hrest : ∀ a d, (a, d) ≠ (v, v) → u a d = t a d) : Exact (fun a => V a ∨ a = v) r u where
  sound a d n hn := by
    by_cases had : (a, d) = (v, v)
    · obtain ⟨ha, hd⟩ := Prod.mk.inj had
      rw [ha, hd] at hn ⊢
      obtain rfl : n = 0 := Option.some.inj (hn.symm.trans hself)
      exact ⟨.inr rfl, .refl v⟩
    · rw [hrest a d had] at hn
      exact ⟨.inl (h.sound a d n hn).1, (h.sound a d n hn).2⟩
  short a d k ha hw := by
    rcases ha with ha | rfl
    · have had : (a, d) ≠ (v, v) := fun had => hv ((Prod.mk.inj had).1 ▸ ha)
      rw [hrest a d had]
      exact h.short a d k ha hw
    · cases hw with
      | refl => exact ⟨0, le_rfl, hself⟩
      | head hab => exact absurd hab (hout _)

def through (t : α → α → Option Nat) (p c a d : α) : Option Nat :=
  match t a p, t c d with
  | some i, some j => some (i + j + 1)
  | _, _ => none

theorem through_eq_some : through t p c a d = some n ↔ ∃ i j, t a p = some i ∧ t c d = some j ∧ n = i + j + 1 := by
  unfold through
  cases hi : t a p with
  | none => simp
  | some i =>
    cases hj : t c d with
    | none => simp
    | some j => simp [eq_comm]

theorem Exact.addEdge (h : Exact V r t) (hc : V c) :
    Exact V (AddEdge r p c) fun a d => Option.merge min (t a d) (through t p c a d) where
  sound a d n hn := by
    rcases merge_min_eq_some hn with hn | hn
    · exact ⟨(h.sound a d n hn).1, walk_addEdge_of_walk (h.sound a d n hn).2⟩
    · obtain ⟨i, j, hi, hj, rfl⟩ := through_eq_some.mp hn
      exact ⟨(h.sound a p i hi).1, walk_addEdge_through (h.sound a p i hi).2 (h.sound c d j hj).2⟩
  short a d k hV hw := by
    rcases walk_addEdge_cases hw with hw | ⟨i, j, hk, hi, hj⟩
    · obtain ⟨m, hm, ht⟩ := h.short a d k hV hw
      obtain ⟨n, hn, hmerge⟩ := merge_min_le_left ht
      exact ⟨n, by omega, hmerge⟩
    · obtain ⟨i', hi', hti⟩ := h.short a p i hV hi
      obtain ⟨j', hj', htj⟩ := h.short c d j hc hj
      have hthrough := through_eq_some.mpr ⟨i', j', hti, htj, rfl⟩
      obtain ⟨n, hn, hmerge⟩ := merge_min_le_right hthrough
      exact ⟨n, by omega, hmerge⟩

theorem Exact.dropEdge (h : Exact V r t) {cte : α → α → Option Nat} (hV : ∀ a b, r a b → V a) (hc : V c)
    (hsound : ∀ a d n, cte a d = some n → 0 < n ∧ Walk (DropEdge r p c) n a d)
    (hshort : ∀ a d k, (t c d).isSome → 0 < k → Walk (DropEdge r p c) k a d → ∃ n ≤ k, cte a d = some n)
    [DecidableEq α] : Exact V (DropEdge r p c) fun a d =>
      Option.merge min (if (t c d).isSome ∧ a ≠ d then none else t a d) (cte a d) where
  sound a d n hn := by
    rcases merge_min_eq_some hn with hn | hn
    · by_cases hcd : (t c d).isSome ∧ a ≠ d
      · simp [hcd] at hn
      · rw [if_neg hcd] at hn
        obtain ⟨ha, hw⟩ := h.sound a d n hn
        by_cases had : a = d
        · subst had
          obtain rfl : n = 0 := Option.some.inj (hn.symm.trans (h.self ha))
          exact ⟨ha, .refl a⟩
        · have hnot : ¬ ReflTransGen r c d := fun hr => hcd ⟨h.isSome_iff.mpr ⟨hc, hr⟩, had⟩
          exact ⟨ha, walk_dropEdge_of_not_reaches hnot hw⟩
    · obtain ⟨hpos, hw⟩ := hsound a d n hn
      obtain ⟨k, rfl⟩ := Nat.exists_eq_succ_of_ne_zero (Nat.pos_iff_ne_zero.mp hpos)
      obtain ⟨b, hab, -⟩ := walk_succ_iff.mp hw
      exact ⟨hV a b hab.1, hw⟩
  short a d k ha hw := by
    obtain ⟨m, hm, htm⟩ := h.short a d k ha (walk_of_dropEdge hw)
    by_cases hcd : (t c d).isSome ∧ a ≠ d
    · have hpos : 0 < k := by
        rcases Nat.eq_zero_or_pos k with rfl | hk
        · exact absurd (walk_zero_iff.mp hw) hcd.2
        · exact hk
      obtain ⟨n, hn, hcte⟩ := hshort a d k hcd.1 hpos hw
      obtain ⟨n', hn', hmerge⟩ := merge_min_le_right hcte
      exact ⟨n', by omega, hmerge⟩
    · obtain ⟨n', hn', hmerge⟩ := merge_min_le_left
        (x := if (t c d).isSome ∧ a ≠ d then none else t a d) (by rw [if_neg hcd]; exact htm)
      exact ⟨n', by omega, hmerge⟩

section CutOut

variable {X : α → Prop} {rows : α → α → Prop}

/-- Restricting an exact table to the surviving vertices leaves it exact just when every detour
through the cut vertices has a surviving bypass that is no longer. -/
theorem Exact.cutOut_iff (h : Exact V r t) (hV : ∀ a b, r a b → V a) {t' : α → α → Option Nat}
    (ht' : ∀ a d n, t' a d = some n ↔ t a d = some n ∧ ¬ X a ∧ ¬ X d) : Exact (fun a => V a ∧ ¬ X a) (CutOut r X) t' ↔
      ∀ n p c, Detour r X n p c → ∃ k ≤ n, Walk (CutOut r X) k p c := by
  constructor
  · intro h' n p c hdet
    have hp : V p := by
      obtain ⟨-, -, x, -, -, -, hpx, -⟩ := hdet
      exact hV p x hpx
    obtain ⟨m, hm, htm⟩ := h.short p c n hp hdet.walk
    have := (ht' p c m).mpr ⟨htm, hdet.1, hdet.2.1⟩
    exact ⟨m, hm, (h'.sound p c m this).2⟩
  · intro hby
    constructor
    · intro a d n hn
      obtain ⟨htn, ha, hd⟩ := (ht' a d n).mp hn
      obtain ⟨hVa, hw⟩ := h.sound a d n htn
      obtain ⟨k, hk, hcut⟩ := walk_cutOut_of_short_bypass hby hw ha hd
      have hleast := (h.eq_some_iff.mp htn).2.2 (walk_of_cutOut hcut)
      obtain rfl : k = n := by omega
      exact ⟨⟨hVa, ha⟩, hcut⟩
    · rintro a d k ⟨hVa, ha⟩ hw
      obtain ⟨n, hn, htn⟩ := h.short a d k hVa (walk_of_cutOut hw)
      have hd : ¬ X d := by
        rcases reflTransGen_iff_walk.mpr ⟨k, hw⟩ with _ | ⟨_, hlast⟩
        · exact ha
        · exact hlast.2.2
      exact ⟨n, hn, (ht' a d n).mpr ⟨htn, ha, hd⟩⟩

theorem closure_cutOut_iff (h : ∀ a d, rows a d ↔ V a ∧ ReflTransGen r a d) (hV : ∀ a b, r a b → V a) :
    (∀ a d, (rows a d ∧ ¬ X a ∧ ¬ X d) ↔ (V a ∧ ¬ X a) ∧ ReflTransGen (CutOut r X) a d) ↔
      ∀ n p c, Detour r X n p c → ReflTransGen (CutOut r X) p c := by
  constructor
  · intro h' n p c hdet
    have hp : V p := by
      obtain ⟨-, -, x, -, -, -, hpx, -⟩ := hdet
      exact hV p x hpx
    exact ((h' p c).mp ⟨(h p c).mpr ⟨hp, hdet.walk.reflTransGen⟩, hdet.1, hdet.2.1⟩).2
  · intro hby a d
    constructor
    · rintro ⟨hrow, ha, hd⟩
      obtain ⟨hVa, hr⟩ := (h a d).mp hrow
      obtain ⟨n, hw⟩ := reflTransGen_iff_walk.mp hr
      exact ⟨⟨hVa, ha⟩, reflTransGen_cutOut_of_bypass hby hw ha hd⟩
    · rintro ⟨⟨hVa, ha⟩, hr⟩
      have hd : ¬ X d := by
        rcases hr with _ | ⟨_, hlast⟩
        · exact ha
        · exact hlast.2.2
      exact ⟨(h a d).mpr ⟨hVa, ReflTransGen.mono (fun _ _ hab => hab.1) a d hr⟩, ha, hd⟩

end CutOut

end ClosureTable
