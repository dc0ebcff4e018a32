import Mathlib.Data.List.Basic

/-!
A cache whose entries carry the time they expire at.  An entry is live strictly before that time, an entry
without one is live for ever, and `add` stores a value only for a key that has no live entry.
-/

structure TtlEntry (κ ν : Type) where
  key : κ
  value : ν
  expiresAt : Option Nat

abbrev TtlCache (κ ν : Type) := List (TtlEntry κ ν)

namespace TtlCache

variable {κ ν : Type} {now ttl t : Nat} {k k' : κ} {v : ν}

def Live (now : Nat) (e : TtlEntry κ ν) : Prop := ∀ expiry ∈ e.expiresAt, now < expiry
  deriving Decidable

variable [DecidableEq κ] {cache : TtlCache κ ν}

def get (cache : TtlCache κ ν) (now : Nat) (k : κ) : Option ν :=
  (cache.find? fun e => e.key = k ∧ Live now e).map TtlEntry.value

def add (cache : TtlCache κ ν) (now : Nat) (k : κ) (v : ν) (ttl : Nat) : Bool × TtlCache κ ν :=
  match cache.get now k with
  | some _ => (false, cache)
  | none => (true, { key := k, value := v, expiresAt := if ttl = 0 then none else some (now + ttl) } :: cache)

theorem isSome_get_iff : (cache.get now k).isSome ↔ ∃ e ∈ cache, e.key = k ∧ Live now e := by
  simp [get]

theorem isSome_get_anti (h : (cache.get t k).isSome) (hle : now ≤ t) : (cache.get now k).isSome := by
  rw [isSome_get_iff] at h ⊢
  obtain ⟨e, he, hk, hlive⟩ := h
  have hearlier : Live now e := fun expiry hexpiry => Nat.lt_of_le_of_lt hle (hlive expiry hexpiry)
  exact ⟨e, he, hk, hearlier⟩

theorem add_of_live (h : (cache.get now k).isSome) : cache.add now k v ttl = (false, cache) := by
  obtain ⟨w, hw⟩ := Option.isSome_iff_exists.mp h
  simp [add, hw]

theorem add_of_none (h : cache.get now k = none) : cache.add now k v ttl =
      (true, { key := k, value := v, expiresAt := if ttl = 0 then none else some (now + ttl) } :: cache) := by
  simp [add, h]

theorem isSome_get_add (h : (cache.get t k').isSome) : ((cache.add now k v ttl).2.get t k').isSome := by
  cases hk : cache.get now k with
  | some w => simpa [add, hk] using h
  | none =>
    rw [add_of_none hk, isSome_get_iff]
    obtain ⟨e, he, hkey⟩ := isSome_get_iff.mp h
    exact ⟨e, List.mem_cons_of_mem _ he, hkey⟩

theorem isSome_get_add_self (h : cache.get now k = none) (ht : t < now + ttl) :
    ((cache.add now k v ttl).2.get t k).isSome := by
  rw [add_of_none h, isSome_get_iff]
  refine ⟨_, List.mem_cons_self, rfl, ?_⟩
  by_cases hzero : ttl = 0
  · simp [Live, hzero]
  · simpa [Live, hzero] using ht

theorem get_add_eq_none (h : cache.get now k = none) (hpos : 0 < ttl) (ht : now + ttl ≤ t) :
    (cache.add now k v ttl).2.get t k = none := by
  rw [← Option.not_isSome_iff_eq_none, isSome_get_iff, add_of_none h]
  rintro ⟨e, he, hk, hlive⟩
  rcases List.mem_cons.mp he with rfl | he
  · have hlt : t < now + ttl := by simpa [Live, Nat.ne_of_gt hpos] using hlive
    omega
  · have hfree : ¬ (cache.get now k).isSome := by simp [h]
    apply hfree
    apply isSome_get_anti (isSome_get_iff.mpr ⟨e, he, hk, hlive⟩)
    omega

end TtlCache
