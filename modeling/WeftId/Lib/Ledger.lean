import Mathlib.Data.List.Nodup

/-!
Tables whose rows are numbered by a counter.  `Follows` says what statements may do to such a table: drop
rows, add rows under new numbers and change the others without undoing what is done to them.  A number that
is `Spent` then stays so.
-/

namespace Ledger

open List

variable {α : Type*} {id : α → Nat} {done : α → Prop} {n n' k : Nat} {l l' : List α}

def Fresh (id : α → Nat) (n : Nat) (l : List α) : Prop := ∀ a ∈ l, id a < n
  deriving Decidable

/-- The number has been given out, and every row that still bears it is done. -/
def Spent (id : α → Nat) (done : α → Prop) (n : Nat) (l : List α) (k : Nat) : Prop :=
  k < n ∧ ∀ a ∈ l, id a = k → done a

def Follows (id : α → Nat) (done : α → Prop) (n n' : Nat) (l l' : List α) : Prop :=
  ∀ b ∈ l', (n ≤ id b ∧ id b < n') ∨ ∃ a ∈ l, id a = id b ∧ (done a → done b)

theorem Follows.refl : Follows id done n n' l l := fun b hb => .inr ⟨b, hb, rfl, fun h => h⟩

theorem Follows.filter (p : α → Bool) : Follows id done n n' l (l.filter p) := fun b hb =>
  .inr ⟨b, (mem_filter.mp hb).1, rfl, fun h => h⟩

theorem Follows.map {f : α → α} (hid : ∀ a, id (f a) = id a) (hdone : ∀ a, done a → done (f a)) :
    Follows id done n n' l (l.map f) := by
  intro b hb
  obtain ⟨a, ha, rfl⟩ := mem_map.mp hb
  exact .inr ⟨a, ha, (hid a).symm, hdone a⟩

theorem Follows.concat (h : Follows id done n n' l l') {b : α} (hb : n ≤ id b) (hb' : id b < n') :
    Follows id done n n' l (l' ++ [b]) := by
  intro c hc
  rcases mem_append.mp hc with hc | hc
  · exact h c hc
  · rw [mem_singleton.mp hc]
    exact .inl ⟨hb, hb'⟩

theorem Follows.fresh (h : Follows id done n n' l l') (hn : n ≤ n') (hl : Fresh id n l) : Fresh id n' l' := by
  intro b hb
  rcases h b hb with ⟨-, hlt⟩ | ⟨a, ha, hid, -⟩
  · exact hlt
  · have hlt := hl a ha
    omega

theorem Follows.spent (h : Follows id done n n' l l') (hn : n ≤ n') (hk : Spent id done n l k) :
    Spent id done n' l' k := by
  refine ⟨Nat.lt_of_lt_of_le hk.1 hn, fun b hb hbk => ?_⟩
  rcases h b hb with ⟨hle, -⟩ | ⟨a, ha, hid, hkeep⟩
  · have hlt := hk.1
    omega
  · exact hkeep (hk.2 a ha (hid.trans hbk))

/-- Rows keep their numbers apart. -/
def KeepsKeys (id : α → Nat) (n : Nat) (l l' : List α) : Prop := Fresh id n l → (l.map id).Nodup → (l'.map id).Nodup

theorem KeepsKeys.refl : KeepsKeys id n l l := fun _ h => h

theorem KeepsKeys.filter (p : α → Bool) : KeepsKeys id n l (l.filter p) := fun _ h =>
  (filter_sublist.map id).nodup h

theorem KeepsKeys.map {f : α → α} (hid : ∀ a, id (f a) = id a) : KeepsKeys id n l (l.map f) := by
  intro _ h
  rw [map_map, show id ∘ f = id from funext hid]
  exact h

theorem KeepsKeys.concat (hsub : l'.Sublist l) {b : α} (hb : n ≤ id b) : KeepsKeys id n l (l' ++ [b]) := by
  intro hl h
  have hnew : id b ∉ l'.map id := by
    intro hmem
    obtain ⟨a, ha, hab⟩ := mem_map.mp hmem
    have hlt := hl a (hsub.subset ha)
    omega
  rw [map_append]
  exact ((hsub.map id).nodup h).append (nodup_singleton _) (disjoint_singleton.mpr hnew)

theorem id_ne_of_dropped {p : α → Bool} {a b : α} (h : (l.map id).Nodup) (ha : a ∈ l) (hp : p a = false)
    (hb : b ∈ l.filter p) : id b ≠ id a := by
  intro hid
  obtain ⟨hbl, hpb⟩ := mem_filter.mp hb
  obtain rfl := inj_on_of_nodup_map h hbl ha hid
  rw [hp] at hpb
  cases hpb

end Ledger
