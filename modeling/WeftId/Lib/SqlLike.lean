import Mathlib.Data.List.Infix
import WeftId.Lib.Text

/-!
The SQL `LIKE` operator with a backslash as its escape character, and the escaping of a text that is
to be matched literally.
-/

namespace SqlLike

/-- `%` matches any text and `_` any character; a backslash takes the next character literally. -/
def like : Text → Text → Bool
  | [], s => s.isEmpty
  | '%' :: p, s => s.tails.any (like p)
  | '_' :: p, s =>
    match s with
    | [] => false
    | _ :: s => like p s
  | '\\' :: c :: p, s =>
    match s with
    | [] => false
    | d :: s => c == d && like p s
  | c :: p, s =>
    match s with
    | [] => false
    | d :: s => c == d && like p s

def escape (s : Text) : Text :=
  s.flatMap fun c => if c = '\\' ∨ c = '%' ∨ c = '_' then ['\\', c] else [c]

variable {s p t : Text} {c : Char}

theorem like_percent : like ('%' :: p) t ↔ ∃ u, u <:+ t ∧ like p u := by
  rw [like]
  simp

theorem like_escape_singleton : like (escape [c] ++ p) t ↔ ∃ u, c :: u = t ∧ like p u := by
  by_cases hc : c = '\\' ∨ c = '%' ∨ c = '_'
  · have hescape : escape [c] = ['\\', c] := by simp [escape, hc]
    rw [hescape]
    cases t <;> simp [like]
  · have hescape : escape [c] = [c] := by simp [escape, hc]
    rw [hescape]
    cases t <;> simp_all [like]

/-- An escaped text matches itself and nothing else, whatever pattern follows. -/
theorem like_escape : like (escape s ++ p) t ↔ ∃ u, s ++ u = t ∧ like p u := by
  induction s generalizing t with
  | nil => simp [escape]
  | cons c s ih =>
    have hcons : escape (c :: s) ++ p = escape [c] ++ (escape s ++ p) := by simp [escape]
    rw [hcons, like_escape_singleton]
    simp only [ih]
    constructor
    · rintro ⟨_, rfl, u, rfl, hu⟩
      exact ⟨u, rfl, hu⟩
    · rintro ⟨u, rfl, hu⟩
      exact ⟨s ++ u, rfl, u, rfl, hu⟩

end SqlLike
