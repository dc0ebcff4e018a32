import WeftId.Lib.Closure

/-!
Closure tables as lists of rows with one row per pair: the merging insert that keeps the smaller
depth, the selection of the least row per pair, and the evaluation of a recursive union query.
-/

theorem List.mem_concat_iff {α : Type*} {l : List α} {a b : α} : b ∈ l ++ [a] ↔ b ∈ l ∨ b = a := by simp

namespace ClosureTable

open List Relation

structure Row (α : Type*) where
  ancestor : α
  descendant : α
  depth : Nat
  deriving DecidableEq

variable {α : Type*} {rows new : List (Row α)} {a d : α} {n k : Nat}

def Row.key (x : Row α) : α × α := (x.ancestor, x.descendant)

def Keyed (rows : List (Row α)) : Prop := (rows.map Row.key).Nodup

instance [DecidableEq α] (rows : List (Row α)) : Decidable (Keyed rows) :=
  inferInstanceAs (Decidable (List.Nodup _))

theorem Keyed.filter (h : Keyed rows) (q : Row α → Bool) : Keyed (rows.filter q) :=
  h.sublist (filter_sublist.map Row.key)

theorem mem_key_iff : (a, d) ∈ rows.map Row.key ↔ ∃ n, ⟨a, d, n⟩ ∈ rows := by
  simp only [mem_map, Row.key, Prod.mk.injEq]
  constructor
  · rintro ⟨x, hx, rfl, rfl⟩
    exact ⟨x.depth, hx⟩
  · rintro ⟨n, hn⟩
    exact ⟨_, hn, rfl, rfl⟩

variable [DecidableEq α]

def depthOf : List (Row α) → α → α → Option Nat
  | [], _, _ => none
  | x :: xs, a, d => if x.ancestor = a ∧ x.descendant = d then some x.depth else depthOf xs a d

theorem depthOf_append : depthOf (rows ++ new) a d = (depthOf rows a d).or (depthOf new a d) := by
  induction rows with
  | nil => simp [depthOf]
  | cons x xs ih =>
    by_cases hx : x.ancestor = a ∧ x.descendant = d <;> simp [depthOf, hx, ih]

theorem depthOf_filter (q : α → α → Bool) : depthOf (rows.filter fun x => q x.ancestor x.descendant) a d =
      if q a d then depthOf rows a d else none := by
  induction rows with
  | nil => simp [depthOf]
  | cons x xs ih =>
    by_cases hx : x.ancestor = a ∧ x.descendant = d
    · obtain ⟨rfl, rfl⟩ := hx
      by_cases hq : q x.ancestor x.descendant <;> simp [depthOf, hq, ih]
    · by_cases hq : q x.ancestor x.descendant <;> simp [depthOf, hq, hx, ih]

theorem depthOf_map (f : α → α → Nat → Nat) :
    depthOf (rows.map fun x => { x with depth := f x.ancestor x.descendant x.depth }) a d =
      (depthOf rows a d).map (f a d) := by
  induction rows with
  | nil => rfl
  | cons x xs ih =>
    by_cases hx : x.ancestor = a ∧ x.descendant = d
    · obtain ⟨rfl, rfl⟩ := hx
      simp [depthOf]
    · simp [depthOf, hx, ih]

theorem mem_of_depthOf (h : depthOf rows a d = some n) : ⟨a, d, n⟩ ∈ rows := by
  induction rows with
  | nil => simp [depthOf] at h
  | cons x xs ih =>
    by_cases hx : x.ancestor = a ∧ x.descendant = d
    · obtain ⟨rfl, rfl⟩ := hx
      have hn : x.depth = n := by simpa [depthOf] using h
      subst hn
      exact mem_cons_self
    · exact mem_cons_of_mem x (ih (by simpa [depthOf, hx] using h))

theorem depthOf_isSome_iff : (depthOf rows a d).isSome ↔ ∃ n, ⟨a, d, n⟩ ∈ rows := by
  constructor
  · intro h
    obtain ⟨n, hn⟩ := Option.isSome_iff_exists.mp h
    exact ⟨n, mem_of_depthOf hn⟩
  · rintro ⟨n, hn⟩
    induction rows with
    | nil => simp at hn
    | cons x xs ih =>
      by_cases hx : x.ancestor = a ∧ x.descendant = d
      · simp [depthOf, hx]
      · rcases mem_cons.mp hn with rfl | hn
        · exact absurd ⟨rfl, rfl⟩ hx
        · simpa [depthOf, hx] using ih hn

theorem Keyed.mem_iff (h : Keyed rows) : ⟨a, d, n⟩ ∈ rows ↔ depthOf rows a d = some n := by
  refine ⟨fun hmem => ?_, mem_of_depthOf⟩
  obtain ⟨m, hm⟩ := Option.isSome_iff_exists.mp (depthOf_isSome_iff.mpr ⟨n, hmem⟩)
  have heq := inj_on_of_nodup_map h (mem_of_depthOf hm) hmem rfl
  have hmn : m = n := congrArg Row.depth heq
  rw [hm, hmn]

def upsertLeast (rows new : List (Row α)) : List (Row α) :=
  (rows.map fun x => { x with depth := (depthOf new x.ancestor x.descendant).elim x.depth (min x.depth) }) ++
    new.filter fun x => (depthOf rows x.ancestor x.descendant).isNone

theorem depthOf_upsertLeast :
    depthOf (upsertLeast rows new) a d = Option.merge min (depthOf rows a d) (depthOf new a d) := by
  rw [upsertLeast, depthOf_append,
    depthOf_map (fun a d n => (depthOf new a d).elim n (min n)),
    depthOf_filter (fun a d => (depthOf rows a d).isNone)]
  cases depthOf rows a d <;> cases depthOf new a d <;> simp

theorem exists_mem_upsertLeast : (∃ n, ⟨a, d, n⟩ ∈ upsertLeast rows new) ↔
    (∃ n, ⟨a, d, n⟩ ∈ rows) ∨ ∃ n, ⟨a, d, n⟩ ∈ new := by
  rw [← depthOf_isSome_iff, ← depthOf_isSome_iff, ← depthOf_isSome_iff, depthOf_upsertLeast]
  cases depthOf rows a d <;> cases depthOf new a d <;> simp

theorem keyed_upsertLeast (hrows : Keyed rows) (hnew : Keyed new) : Keyed (upsertLeast rows new) := by
  unfold Keyed upsertLeast
  rw [map_append, List.map_map]
  refine List.Nodup.append hrows (Keyed.filter hnew _) ?_
  rintro ⟨a, d⟩ hold hadded
  obtain ⟨x, hx, hkey⟩ := mem_map.mp hadded
  have hnone := (mem_filter.mp hx).2
  obtain ⟨rfl, rfl⟩ : x.ancestor = a ∧ x.descendant = d := by simpa [Row.key] using hkey
  have hsome := depthOf_isSome_iff.mpr (mem_key_iff.mp hold)
  simp at hnone
  simp [hnone] at hsome

def distinctOnLeast (rows : List (Row α)) : List (Row α) :=
  rows.foldr (fun x acc => upsertLeast acc [x]) []

theorem keyed_distinctOnLeast : Keyed (distinctOnLeast rows) := by
  induction rows with
  | nil => exact nodup_nil
  | cons x xs ih => exact keyed_upsertLeast ih (nodup_singleton x.key)

theorem mem_of_depthOf_distinctOnLeast (h : depthOf (distinctOnLeast rows) a d = some n) :
    ⟨a, d, n⟩ ∈ rows := by
  induction rows with
  | nil => simp [distinctOnLeast, depthOf] at h
  | cons x xs ih =>
    have hstep : distinctOnLeast (x :: xs) = upsertLeast (distinctOnLeast xs) [x] := rfl
    rw [hstep, depthOf_upsertLeast] at h
    rcases merge_min_eq_some h with h | h
    · exact mem_cons_of_mem x (ih h)
    · have hx := mem_of_depthOf h
      exact mem_cons.mpr (.inl (mem_singleton.mp hx))

theorem depthOf_distinctOnLeast_le (h : ⟨a, d, k⟩ ∈ rows) :
    ∃ n ≤ k, depthOf (distinctOnLeast rows) a d = some n := by
  induction rows with
  | nil => simp at h
  | cons x xs ih =>
    have hstep : distinctOnLeast (x :: xs) = upsertLeast (distinctOnLeast xs) [x] := rfl
    rw [hstep, depthOf_upsertLeast]
    rcases mem_cons.mp h with rfl | h
    · exact merge_min_le_right (by simp [depthOf])
    · obtain ⟨m, hm, hd⟩ := ih h
      obtain ⟨n, hn, hmerge⟩ := merge_min_le_left hd
      exact ⟨n, by omega, hmerge⟩

theorem exists_mem_distinctOnLeast : (∃ n, ⟨a, d, n⟩ ∈ distinctOnLeast rows) ↔
    ∃ n, ⟨a, d, n⟩ ∈ rows := by
  rw [← depthOf_isSome_iff]
  constructor
  · intro hsome
    obtain ⟨n, hn⟩ := Option.isSome_iff_exists.mp hsome
    exact ⟨n, mem_of_depthOf_distinctOnLeast hn⟩
  · rintro ⟨k, hk⟩
    obtain ⟨n, -, hn⟩ := depthOf_distinctOnLeast_le hk
    rw [hn]
    rfl

section RecursiveUnion

variable {β : Type*} [DecidableEq β] {next : List β → List β} {succ : β → β → Prop}
  {base working result out : List β} {fuel : Nat} {x y : β}

/-- Rounds of a recursive union query: each joins the rows of the last round, and only rows not seen
before go on.  `none` when the given number of rounds did not empty the working table. -/
def recursiveUnion (next : List β → List β) : Nat → List β → List β → Option (List β)
  | _, result, [] => some result
  | 0, _, _ :: _ => none
  | fuel + 1, result, y :: ys =>
    let fresh := (next (y :: ys)).dedup.filter (· ∉ result)
    recursiveUnion next fuel (result ++ fresh) fresh

theorem mem_fresh : x ∈ (next working).dedup.filter (· ∉ result) ↔ x ∈ next working ∧ x ∉ result := by
  simp

theorem recursiveUnion_sound (hnext : ∀ w x, x ∈ next w ↔ ∃ y ∈ w, succ y x)
    (hresult : ∀ x ∈ result, ∃ y ∈ base, ReflTransGen succ y x) (hw : ∀ x ∈ working, x ∈ result)
    (h : recursiveUnion next fuel result working = some out) : ∀ x ∈ out, ∃ y ∈ base, ReflTransGen succ y x := by
  induction fuel, result, working using recursiveUnion.induct next with
  | case1 =>
    rw [recursiveUnion] at h
    simpa [← Option.some.inj h] using hresult
  | case2 => simp [recursiveUnion] at h
  | case3 fuel result z zs fresh ih =>
    refine ih ?_ ?_ h
    · intro x hx
      rcases mem_append.mp hx with hx | hx
      · exact hresult x hx
      · obtain ⟨y, hy, hyx⟩ := (hnext (z :: zs) x).mp (mem_fresh.mp hx).1
        obtain ⟨b, hb, hby⟩ := hresult y (hw y hy)
        exact ⟨b, hb, hby.tail hyx⟩
    · exact fun x hx => mem_append.mpr (.inr hx)

theorem recursiveUnion_closed (hnext : ∀ w x, x ∈ next w ↔ ∃ y ∈ w, succ y x)
    (hresult : ∀ y ∈ result, y ∉ working → ∀ x, succ y x → x ∈ result)
    (h : recursiveUnion next fuel result working = some out) :
    (∀ x ∈ result, x ∈ out) ∧ ∀ y ∈ out, ∀ x, succ y x → x ∈ out := by
  induction fuel, result, working using recursiveUnion.induct next with
  | case1 fuel result =>
    obtain rfl : result = out := by simpa [recursiveUnion] using h
    exact ⟨fun x hx => hx, fun y hy => hresult y hy (by simp)⟩
  | case2 => simp [recursiveUnion] at h
  | case3 fuel result z zs fresh ih =>
    have hstep : ∀ y ∈ result, ∀ x, succ y x → x ∈ result ++ fresh := by
      intro y hy x hyx
      by_cases hx : x ∈ result
      · exact mem_append.mpr (.inl hx)
      · by_cases hyw : y ∈ z :: zs
        · exact mem_append.mpr (.inr (mem_fresh.mpr ⟨(hnext _ x).mpr ⟨y, hyw, hyx⟩, hx⟩))
        · exact absurd (hresult y hy hyw x hyx) hx
    have hrest := ih ?_ h
    · exact ⟨fun x hx => hrest.1 x (mem_append.mpr (.inl hx)), hrest.2⟩
    · intro y hy hyw
      rcases mem_append.mp hy with hy | hy
      · exact hstep y hy
      · exact absurd hy hyw

theorem mem_recursiveUnion_iff (hnext : ∀ w x, x ∈ next w ↔ ∃ y ∈ w, succ y x)
    (h : recursiveUnion next fuel base base = some out) : x ∈ out ↔ ∃ y ∈ base, ReflTransGen succ y x := by
  constructor
  · exact recursiveUnion_sound hnext (fun x hx => ⟨x, hx, .refl⟩) (fun _ hx => hx) h x
  · rintro ⟨y, hy, hyx⟩
    obtain ⟨hbase, hclosed⟩ := recursiveUnion_closed hnext (fun y hy hn => absurd hy hn) h
    induction hyx with
    | refl => exact hbase y hy
    | tail _ hstep ih => exact hclosed _ ih _ hstep

theorem recursiveUnion_isSome (hnext : ∀ w x, x ∈ next w ↔ ∃ y ∈ w, succ y x) (rank : β → Nat) (bound : Nat)
    (hsucc : ∀ y x, succ y x → rank y < rank x) (hbound : ∀ y ∈ working, ∀ x, ReflTransGen succ y x → rank x ≤ bound)
    (hrank : ∀ y ∈ working, bound + 1 ≤ rank y + fuel) : (recursiveUnion next fuel result working).isSome := by
  induction fuel, result, working using recursiveUnion.induct next with
  | case1 => simp [recursiveUnion]
  | case2 result y ys =>
    have hle := hbound y mem_cons_self y .refl
    have hge := hrank y mem_cons_self
    omega
  | case3 fuel result z zs fresh ih =>
    refine ih ?_ ?_
    · intro x hx x' hxx'
      obtain ⟨y, hy, hyx⟩ := (hnext _ x).mp (mem_fresh.mp hx).1
      exact hbound y hy x' (.head hyx hxx')
    · intro x hx
      obtain ⟨y, hy, hyx⟩ := (hnext _ x).mp (mem_fresh.mp hx).1
      have hlt := hsucc y x hyx
      have hge := hrank y hy
      omega

end RecursiveUnion

end ClosureTable
