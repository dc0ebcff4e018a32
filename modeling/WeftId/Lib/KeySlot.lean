import Mathlib.Data.Option.Basic
import Mathlib.Data.List.Basic

/-!
A slot for a signing key that is replaced from time to time.  The key it replaces is kept beside it until
the end of a grace period, so that what was signed with it can still be checked.
-/

structure KeySlot (κ : Type*) where
  current : κ
  previous : Option κ := none
  graceEndsAt : Option Nat := none

namespace KeySlot

variable {κ : Type*} {slot : KeySlot κ} {now later : Nat} {k : κ}

def InGrace (slot : KeySlot κ) (now : Nat) : Prop := ∃ e ∈ slot.graceEndsAt, now < e
  deriving Decidable

/-- The new key comes in, and the key that the caller has read is noted as the one before it. -/
def rotate (_ : KeySlot κ) (read new : κ) (graceEndsAt : Nat) : KeySlot κ where
  current := new
  previous := some read
  graceEndsAt := some graceEndsAt

def clearPrevious (slot : KeySlot κ) (now : Nat) : KeySlot κ :=
  if ∃ e ∈ slot.graceEndsAt, e < now then { slot with previous := none, graceEndsAt := none } else slot

def stored (slot : KeySlot κ) : List κ := slot.current :: slot.previous.toList

def published (slot : KeySlot κ) (now : Nat) : List κ :=
  slot.current :: if slot.InGrace now then slot.previous.toList else []

theorem InGrace.mono (h : slot.InGrace later) (hle : now ≤ later) : slot.InGrace now := by
  obtain ⟨e, he, hlt⟩ := h
  exact ⟨e, he, Nat.lt_of_le_of_lt hle hlt⟩

theorem clearPrevious_current (slot : KeySlot κ) (now : Nat) : (slot.clearPrevious now).current = slot.current := by
  unfold clearPrevious
  split_ifs
  · rfl
  · rfl

theorem InGrace.of_clearPrevious {t : Nat} (h : (slot.clearPrevious t).InGrace now) : slot.InGrace now := by
  unfold clearPrevious at h
  split_ifs at h
  · obtain ⟨e, he, -⟩ := h
    cases he
  · exact h

/-- The key is the previous one for at least as long as it is needed, if it still is. -/
def Retains (slot : KeySlot κ) (now : Nat) (k : κ) (needed : Nat) : Prop :=
  needed ≤ now ∨ slot.previous = some k ∧ ∃ e ∈ slot.graceEndsAt, needed ≤ e

variable {needed : Nat}

theorem retains_rotate {new : κ} {graceEndsAt : Nat} (h : needed ≤ graceEndsAt) :
    (slot.rotate k new graceEndsAt).Retains now k needed :=
  .inr ⟨rfl, graceEndsAt, rfl, h⟩

theorem Retains.of_not_inGrace (h : slot.Retains now k needed) (hgrace : ¬ slot.InGrace now) : needed ≤ now := by
  rcases h with hover | ⟨-, e, he, hle⟩
  · exact hover
  · have hend : e ≤ now := Nat.le_of_not_lt fun hlt => hgrace ⟨e, he, hlt⟩
    exact Nat.le_trans hle hend

theorem Retains.mono (h : slot.Retains now k needed) (hle : now ≤ later) : slot.Retains later k needed :=
  h.imp_left fun hover => Nat.le_trans hover hle

theorem Retains.clearPrevious (h : slot.Retains now k needed) : (slot.clearPrevious now).Retains now k needed := by
  unfold KeySlot.clearPrevious
  split_ifs with hended
  · obtain ⟨e, he, hlt⟩ := hended
    rcases h with hover | ⟨-, e', he', hle⟩
    · exact .inl hover
    · obtain rfl : e' = e := Option.some.inj (he'.symm.trans he)
      exact .inl (Nat.le_of_lt (Nat.lt_of_le_of_lt hle hlt))
  · exact h

theorem Retains.mem_published (h : slot.Retains now k needed) (hneeded : now < needed) : k ∈ slot.published now := by
  rcases h with hover | ⟨hprevious, e, he, hle⟩
  · omega
  · have hgrace : slot.InGrace now := ⟨e, he, Nat.lt_of_lt_of_le hneeded hle⟩
    simp [published, hgrace, hprevious]

theorem mem_stored_of_mem_published (h : k ∈ slot.published now) : k ∈ slot.stored := by
  unfold published at h
  split_ifs at h
  · exact h
  · rw [List.mem_singleton.mp h]
    exact List.mem_cons_self

end KeySlot
