import Mathlib.Order.WellFoundedSet

/-!
Paths with a length in a relation, and how they change when one edge is added, one edge is removed or
a set of vertices is cut out.  Reachability itself is `Relation.ReflTransGen`.
-/

namespace ClosureTable

open List Relation

variable {α : Type*} {r s : α → α → Prop} {a b c d p : α} {m n : Nat}

inductive Walk (r : α → α → Prop) : Nat → α → α → Prop
  | refl (a : α) : Walk r 0 a a
  | head {n : Nat} {a b c : α} : r a b → Walk r n b c → Walk r (n + 1) a c

theorem Walk.single (h : r a b) : Walk r 1 a b := .head h (.refl b)

theorem Walk.append (h : Walk r m a b) (k : Walk r n b c) : Walk r (m + n) a c := by
  induction h with
  | refl => simpa using k
  | @head m a b' b hab _ ih =>
    have hlen : m + 1 + n = m + n + 1 := by omega
    exact hlen ▸ .head hab (ih k)

theorem Walk.mono (hrs : ∀ a b, r a b → s a b) (h : Walk r n a b) : Walk s n a b := by
  induction h with
  | refl a => exact .refl a
  | head hab _ ih => exact .head (hrs _ _ hab) ih

theorem walk_zero_iff : Walk r 0 a b ↔ a = b := by
  constructor
  · intro h
    cases h
    rfl
  · rintro rfl
    exact .refl a

theorem walk_succ_iff : Walk r (n + 1) a c ↔ ∃ b, r a b ∧ Walk r n b c := by
  constructor
  · intro h
    cases h with
    | head hab hbc => exact ⟨_, hab, hbc⟩
  · rintro ⟨b, hab, hbc⟩
    exact .head hab hbc

theorem Walk.reflTransGen (h : Walk r n a b) : ReflTransGen r a b := by
  induction h with
  | refl => exact .refl
  | head hab _ ih => exact .head hab ih

theorem reflTransGen_iff_walk : ReflTransGen r a b ↔ ∃ n, Walk r n a b := by
  constructor
  · intro h
    induction h with
    | refl => exact ⟨0, .refl a⟩
    | tail _ hbc ih =>
      obtain ⟨n, hn⟩ := ih
      exact ⟨n + 1, hn.append (.single hbc)⟩
  · rintro ⟨n, h⟩
    exact h.reflTransGen

theorem transGen_iff_walk : TransGen r a b ↔ ∃ n, Walk r (n + 1) a b := by
  rw [TransGen.head'_iff]
  constructor
  · rintro ⟨c, hac, hcb⟩
    obtain ⟨n, hn⟩ := reflTransGen_iff_walk.mp hcb
    exact ⟨n, .head hac hn⟩
  · rintro ⟨n, h⟩
    obtain ⟨c, hac, hcb⟩ := walk_succ_iff.mp h
    exact ⟨c, hac, hcb.reflTransGen⟩

def Acyclic (r : α → α → Prop) : Prop := ∀ a, ¬ TransGen r a a

theorem Acyclic.mono (h : Acyclic s) (hrs : ∀ a b, r a b → s a b) : Acyclic r :=
  fun a ha => h a (TransGen.mono hrs a a ha)

theorem Acyclic.not_walk (h : Acyclic r) : ¬ Walk r (n + 1) a a :=
  fun hw => h a (transGen_iff_walk.mpr ⟨n, hw⟩)

theorem Acyclic.exists_nodup_targets (h : Acyclic r) (hw : Walk r n a b) :
    ∃ l : List α, l.length = n ∧ l.Nodup ∧ ∀ x ∈ l, TransGen r a x ∧ ∃ y, r y x := by
  induction hw with
  | refl => exact ⟨[], rfl, nodup_nil, by simp⟩
  | @head n a b c hab _ ih =>
    obtain ⟨l, hlen, hnd, hl⟩ := ih
    refine ⟨b :: l, by simp [hlen], nodup_cons.mpr ⟨fun hb => h b (hl b hb).1, hnd⟩, ?_⟩
    intro x hx
    rcases mem_cons.mp hx with rfl | hx
    · exact ⟨.single hab, a, hab⟩
    · exact ⟨.head hab (hl x hx).1, (hl x hx).2⟩

theorem Acyclic.walk_length_le (h : Acyclic r) (edges : List (α × α))
    (hr : ∀ a b, r a b → (a, b) ∈ edges) (hw : Walk r n a b) : n ≤ edges.length := by
  obtain ⟨l, hlen, hnd, hl⟩ := h.exists_nodup_targets hw
  have hsub : l ⊆ edges.map Prod.snd := by
    intro x hx
    obtain ⟨y, hy⟩ := (hl x hx).2
    exact mem_map.mpr ⟨(y, x), hr y x hy, rfl⟩
  have := (hnd.subperm hsub).length_le
  simpa [hlen] using this

theorem Acyclic.exists_source (h : Acyclic r) {S : Set α} (hS : S.Finite) (ha : a ∈ S) :
    ∃ m ∈ S, ReflTransGen r m a ∧ ∀ b ∈ S, ¬ TransGen r b m := by
  have : IsStrictOrder α (TransGen r) := { irrefl := h, trans := fun _ _ _ => TransGen.trans }
  refine Set.WellFoundedOn.induction (P := fun x => ∃ m ∈ S, ReflTransGen r m x ∧ ∀ b ∈ S, ¬ TransGen r b m)
    (hS.wellFoundedOn (r := TransGen r)) ha fun x hx ih => ?_
  by_cases habove : ∃ b ∈ S, TransGen r b x
  · obtain ⟨b, hb, hbx⟩ := habove
    obtain ⟨m, hm, hmb, hmax⟩ := ih b hb hbx
    exact ⟨m, hm, hmb.trans hbx.to_reflTransGen, hmax⟩
  · exact ⟨x, hx, .refl, fun b hb hbx => habove ⟨b, hb, hbx⟩⟩

def AddEdge (r : α → α → Prop) (p c : α) (a b : α) : Prop := r a b ∨ (a = p ∧ b = c)

theorem walk_addEdge_cases (h : Walk (AddEdge r p c) n a d) :
    Walk r n a d ∨ ∃ i j, i + j + 1 ≤ n ∧ Walk r i a p ∧ Walk r j c d := by
  induction h with
  | refl a => exact .inl (.refl a)
  | head hab _ ih =>
    rcases hab with hab | ⟨rfl, rfl⟩
    · rcases ih with hw | ⟨i, j, hle, hi, hj⟩
      · exact .inl (.head hab hw)
      · exact .inr ⟨i + 1, j, by omega, .head hab hi, hj⟩
    · rcases ih with hw | ⟨i, j, hle, _, hj⟩
      · exact .inr ⟨0, _, by omega, .refl _, hw⟩
      · exact .inr ⟨0, j, by omega, .refl _, hj⟩

theorem walk_addEdge_of_walk (h : Walk r n a d) : Walk (AddEdge r p c) n a d :=
  h.mono fun _ _ => .inl

theorem walk_addEdge_through (hi : Walk r m a p) (hj : Walk r n c d) : Walk (AddEdge r p c) (m + n + 1) a d := by
  have hedge : AddEdge r p c p c := .inr ⟨rfl, rfl⟩
  have := (walk_addEdge_of_walk hi).append (.head hedge (walk_addEdge_of_walk hj))
  exact (by omega : m + (n + 1) = m + n + 1) ▸ this

theorem Acyclic.addEdge (h : Acyclic r) (hpc : ¬ ReflTransGen r c p) : Acyclic (AddEdge r p c) := by
  intro a ha
  obtain ⟨n, hn⟩ := transGen_iff_walk.mp ha
  rcases walk_addEdge_cases hn with hw | ⟨i, j, _, hi, hj⟩
  · exact h.not_walk hw
  · exact hpc (hj.append hi).reflTransGen

def DropEdge (r : α → α → Prop) (p c : α) (a b : α) : Prop := r a b ∧ ¬ (a = p ∧ b = c)

theorem walk_of_dropEdge (h : Walk (DropEdge r p c) n a d) : Walk r n a d :=
  h.mono fun _ _ hab => hab.1

theorem walk_dropEdge_of_not_reaches (hd : ¬ ReflTransGen r c d) (h : Walk r n a d) : Walk (DropEdge r p c) n a d := by
  induction h with
  | refl a => exact .refl a
  | head hab hbd ih =>
    refine .head ⟨hab, ?_⟩ (ih hd)
    rintro ⟨rfl, rfl⟩
    exact hd hbd.reflTransGen

def CutOut (r : α → α → Prop) (X : α → Prop) (a b : α) : Prop := r a b ∧ ¬ X a ∧ ¬ X b

section CutOut

variable {X : α → Prop}

theorem walk_of_cutOut (h : Walk (CutOut r X) n a d) : Walk r n a d :=
  h.mono fun _ _ hab => hab.1

/-- A path of `n` edges that leaves the complement of `X`, runs inside `X` and comes back. -/
def Detour (r : α → α → Prop) (X : α → Prop) (n : Nat) (p c : α) : Prop :=
  ¬ X p ∧ ¬ X c ∧ ∃ x y m, n = m + 2 ∧ r p x ∧ X x ∧ Walk (fun a b => r a b ∧ X a ∧ X b) m x y ∧ r y c

theorem Detour.walk (h : Detour r X n p c) : Walk r n p c := by
  obtain ⟨-, -, x, y, m, rfl, hpx, -, hxy, hyc⟩ := h
  exact .head hpx ((hxy.mono fun _ _ hab => hab.1).append (.single hyc))

theorem walk_leaves (h : Walk r n b d) (hb : X b) (hd : ¬ X d) :
    ∃ y c m k, Walk (fun a b => r a b ∧ X a ∧ X b) m b y ∧ r y c ∧ ¬ X c ∧ Walk r k c d ∧ n = m + 1 + k := by
  induction h with
  | refl => exact absurd hb hd
  | @head n a b d hab hbd ih =>
    by_cases hXb : X b
    · obtain ⟨y, c, m, k, hby, hyc, hc, hcd, rfl⟩ := ih hXb hd
      exact ⟨y, c, m + 1, k, .head ⟨hab, hb, hXb⟩ hby, hyc, hc, hcd, by omega⟩
    · exact ⟨a, b, 0, n, .refl a, hab, hXb, hbd, by omega⟩

theorem walk_first_hop (h : Walk r n a d) (hn : n ≠ 0) (ha : ¬ X a) (hd : ¬ X d) :
    ∃ c m k, ((m = 1 ∧ CutOut r X a c) ∨ Detour r X m a c) ∧ ¬ X c ∧ Walk r k c d ∧ n = m + k ∧ 0 < m := by
  cases h with
  | refl => exact absurd rfl hn
  | @head n _ b _ hab hbd =>
    by_cases hb : X b
    · obtain ⟨y, c, m, k, hby, hyc, hc, hcd, rfl⟩ := walk_leaves hbd hb hd
      exact ⟨c, m + 2, k, .inr ⟨ha, hc, b, y, m, rfl, hab, hb, hby, hyc⟩, hc, hcd, by omega, by omega⟩
    · exact ⟨b, 1, n, .inl ⟨rfl, hab, ha, hb⟩, hb, hbd, by omega, by omega⟩

theorem reflTransGen_cutOut_of_bypass (hby : ∀ n p c, Detour r X n p c → ReflTransGen (CutOut r X) p c)
    (h : Walk r n a d) (ha : ¬ X a) (hd : ¬ X d) : ReflTransGen (CutOut r X) a d := by
  induction n using Nat.strong_induction_on generalizing a with
  | h n ih =>
    by_cases hn : n = 0
    · subst hn
      obtain rfl := walk_zero_iff.mp h
      exact .refl
    · obtain ⟨c, m, k, hac, hc, hcd, rfl, hm⟩ := walk_first_hop h hn ha hd
      have hrest := ih k (by omega) hcd hc
      rcases hac with ⟨-, hac⟩ | hac
      · exact .head hac hrest
      · exact (hby m a c hac).trans hrest

theorem walk_cutOut_of_short_bypass (hby : ∀ n p c, Detour r X n p c → ∃ k ≤ n, Walk (CutOut r X) k p c)
    (h : Walk r n a d) (ha : ¬ X a) (hd : ¬ X d) : ∃ k ≤ n, Walk (CutOut r X) k a d := by
  induction n using Nat.strong_induction_on generalizing a with
  | h n ih =>
    by_cases hn : n = 0
    · subst hn
      obtain rfl := walk_zero_iff.mp h
      exact ⟨0, le_rfl, .refl a⟩
    · obtain ⟨c, m, k, hac, hc, hcd, rfl, hm⟩ := walk_first_hop h hn ha hd
      obtain ⟨k', hk', hrest⟩ := ih k (by omega) hcd hc
      rcases hac with ⟨rfl, hac⟩ | hac
      · exact ⟨k' + 1, by omega, .head hac hrest⟩
      · obtain ⟨m', hm', hac'⟩ := hby m a c hac
        exact ⟨m' + k', by omega, hac'.append hrest⟩

end CutOut

end ClosureTable
