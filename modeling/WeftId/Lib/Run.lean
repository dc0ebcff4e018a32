import Mathlib.Data.List.Basic

/-!
Runs of a deterministic machine over a list of inputs: a condition that every step of the run meets
in the state before it, and the rule that carries an invariant through such a run.
-/

namespace Run

open List

variable {σ ι : Type*} {step : σ → ι → σ} {P Q : σ → ι → Prop} {I : σ → Prop} {s : σ} {i : ι} {l l' : List ι}

def run (step : σ → ι → σ) (s : σ) (l : List ι) : σ := l.foldl step s

@[simp] theorem run_nil : run step s [] = s := rfl

@[simp] theorem run_cons : run step s (i :: l) = run step (step s i) l := rfl

theorem run_append : run step s (l ++ l') = run step (run step s l) l' := foldl_append

/-- Every step of the run meets `P` in the state it is taken from. -/
def Along (step : σ → ι → σ) (P : σ → ι → Prop) (s : σ) (l : List ι) : Prop :=
  ∀ l₁ i l₂, l = l₁ ++ i :: l₂ → P (run step s l₁) i

theorem along_nil : Along step P s [] := fun l₁ _ _ hl => by simp at hl

theorem forall_split_cons {R : List ι → ι → List ι → Prop} : (∀ l₁ j l₂, i :: l = l₁ ++ j :: l₂ → R l₁ j l₂) ↔
    R [] i l ∧ ∀ l₁ j l₂, l = l₁ ++ j :: l₂ → R (i :: l₁) j l₂ := by
  constructor
  · intro h
    refine ⟨h [] i l rfl, fun l₁ j l₂ hl => ?_⟩
    exact h (i :: l₁) j l₂ (by rw [hl, cons_append])
  · rintro ⟨hi, h⟩ l₁ j l₂ hl
    cases l₁ with
    | nil =>
      obtain ⟨rfl, rfl⟩ := List.cons.inj hl
      exact hi
    | cons k l₁ =>
      obtain ⟨rfl, htail⟩ := List.cons.inj hl
      exact h l₁ j l₂ htail

theorem along_cons : Along step P s (i :: l) ↔ P s i ∧ Along step P (step s i) l := forall_split_cons

instance decidableAlong [∀ s i, Decidable (P s i)] : ∀ s l, Decidable (Along step P s l)
  | _, [] => isTrue along_nil
  | s, i :: l =>
    have := decidableAlong (step s i) l
    decidable_of_iff (P s i ∧ Along step P (step s i) l) along_cons.symm

theorem Along.left (h : Along step P s (l ++ l')) : Along step P s l :=
  fun l₁ i l₂ hl => h l₁ i (l₂ ++ l') (by simp [hl])

theorem Along.right (h : Along step P s (l ++ l')) : Along step P (run step s l) l' := by
  intro l₁ i l₂ hl
  rw [← run_append]
  exact h (l ++ l₁) i l₂ (by rw [hl, append_assoc])

theorem along_of_forall {A : ι → Prop} (h : ∀ i ∈ l, A i) : Along step (fun _ i => A i) s l :=
  fun l₁ i l₂ hl => h i (by simp [hl])

theorem along_of_sorted {clock : σ → Nat} {time : ι → Nat} (hstep : ∀ s i, clock (step s i) = time i)
    (horder : l.Pairwise fun i j => time i ≤ time j) (hclock : ∀ i ∈ l, clock s ≤ time i) :
    Along step (fun s i => clock s ≤ time i) s l := by
  induction l generalizing s with
  | nil => exact along_nil
  | cons i l ih =>
    rw [pairwise_cons] at horder
    refine along_cons.mpr ⟨hclock i mem_cons_self, ih horder.2 fun j hj => ?_⟩
    rw [hstep]
    exact horder.1 j hj

theorem invariant_of_along (hstep : ∀ s i, I s → P s i → I (step s i)) (hs : I s)
    (h : Along step P s l) : I (run step s l) := by
  induction l generalizing s with
  | nil => exact hs
  | cons i l ih =>
    rw [along_cons] at h
    exact ih (hstep s i hs h.1) h.2

theorem along_of_invariant (hstep : ∀ s i, I s → P s i → I (step s i)) (hQ : ∀ s i, I s → P s i → Q s i) (hs : I s)
    (h : Along step P s l) : Along step Q s l := by
  intro l₁ i l₂ hl
  subst hl
  exact hQ _ i (invariant_of_along hstep hs h.left) (h l₁ i l₂ rfl)

theorem invariant (hstep : ∀ s i, I s → I (step s i)) (hs : I s) : I (run step s l) :=
  invariant_of_along (P := fun _ _ => True) (fun s i h _ => hstep s i h) hs fun _ _ _ _ => trivial

theorem reached_iff_along {A : σ → Prop} (hkeep : ∀ s i, I s → P s i → I (step s i))
    (hneed : ∀ s i, I s → A (step s i) → P s i) (hA : ∀ s, I s → A s) (hs : I s) :
    (∀ l₁ l₂, l = l₁ ++ l₂ → A (run step s l₁)) ↔ Along step P s l := by
  induction l generalizing s with
  | nil =>
    refine ⟨fun _ => along_nil, fun _ l₁ l₂ hl => ?_⟩
    obtain ⟨rfl, -⟩ := append_eq_nil_iff.mp hl.symm
    exact hA s hs
  | cons i l ih =>
    rw [along_cons]
    constructor
    · intro h
      have hi : P s i := hneed s i hs (h [i] l rfl)
      refine ⟨hi, (ih (hkeep s i hs hi)).mp fun l₁ l₂ hl => ?_⟩
      exact h (i :: l₁) l₂ (by rw [hl, cons_append])
    · rintro ⟨hi, h⟩ l₁ l₂ hl
      cases l₁ with
      | nil => exact hA s hs
      | cons j l₁ =>
        obtain ⟨rfl, htail⟩ := List.cons.inj hl
        exact (ih (hkeep s i hs hi)).mpr h l₁ l₂ htail

/-- Some step of the run meets `Q` in the state it is taken from. -/
def Meets (step : σ → ι → σ) (Q : σ → ι → Prop) (s : σ) (l : List ι) : Prop :=
  ∃ l₁ i l₂, l = l₁ ++ i :: l₂ ∧ Q (run step s l₁) i

theorem meets_cons : Meets step Q s (i :: l) ↔ Q s i ∨ Meets step Q (step s i) l := by
  constructor
  · rintro ⟨l₁, j, l₂, hl, hj⟩
    cases l₁ with
    | nil =>
      obtain ⟨rfl, -⟩ := List.cons.inj hl
      exact .inl hj
    | cons k l₁ =>
      obtain ⟨rfl, htail⟩ := List.cons.inj hl
      exact .inr ⟨l₁, j, l₂, htail, hj⟩
  · rintro (hi | ⟨l₁, j, l₂, hl, hj⟩)
    · exact ⟨[], i, l, rfl, hi⟩
    · exact ⟨i :: l₁, j, l₂, by rw [hl, cons_append], hj⟩

theorem not_meets_iff : ¬ Meets step Q s l ↔ Along step (fun s i => ¬ Q s i) s l := by
  unfold Meets
  push Not
  rfl

/-- Every step of the run that meets `P` is followed by a later one that meets `Q`. -/
def FollowedBy (step : σ → ι → σ) (P Q : σ → ι → Prop) (s : σ) (l : List ι) : Prop :=
  ∀ l₁ i l₂, l = l₁ ++ i :: l₂ → P (run step s l₁) i → Meets step Q (run step s (l₁ ++ [i])) l₂

theorem followedBy_cons : FollowedBy step P Q s (i :: l) ↔
    (P s i → Meets step Q (step s i) l) ∧ FollowedBy step P Q (step s i) l := forall_split_cons

theorem followedBy_of_last (hQ : Q (run step s l) i) (hP : ¬ P (run step s l) i) :
    FollowedBy step P Q s (l ++ [i]) := by
  intro l₁ j l₂ hl hj
  rcases eq_nil_or_concat l₂ with rfl | ⟨l₃, k, rfl⟩
  · obtain ⟨rfl, hlast⟩ := append_inj' hl rfl
    obtain rfl := singleton_inj.mp hlast
    exact absurd hj hP
  · rw [concat_eq_append, ← cons_append, ← append_assoc] at hl
    obtain ⟨rfl, hlast⟩ := append_inj' hl rfl
    obtain rfl := singleton_inj.mp hlast
    refine ⟨l₃, i, [], concat_eq_append, ?_⟩
    rw [← run_append, append_assoc]
    exact hQ

/-- A property that only `P`-steps can break and that every `Q`-step restores holds at the end of a run
in which each `P`-step is followed by a `Q`-step. -/
theorem restored_of_followedBy {C : σ → Prop} (hinv : ∀ s i, I s → I (step s i))
    (hkeep : ∀ s i, I s → C s → ¬ P s i → C (step s i)) (hrestore : ∀ s i, I s → Q s i → C (step s i))
    (hs : I s) (hstart : C s ∨ Meets step Q s l) (h : FollowedBy step P Q s l) : C (run step s l) := by
  induction l generalizing s with
  | nil =>
    rcases hstart with hC | ⟨l₁, i, l₂, hl, -⟩
    · exact hC
    · simp at hl
  | cons i l ih =>
    rw [followedBy_cons] at h
    refine ih (hinv s i hs) ?_ h.2
    by_cases hQ : Q s i
    · exact .inl (hrestore s i hs hQ)
    · by_cases hP : P s i
      · exact .inr (h.1 hP)
      · rcases hstart with hC | hmeets
        · exact .inl (hkeep s i hs hC hP)
        · exact .inr ((meets_cons.mp hmeets).resolve_left hQ)

/-- No two steps of the run meet `Q`. -/
def AtMostOnce (step : σ → ι → σ) (Q : σ → ι → Prop) (s : σ) (l : List ι) : Prop :=
  ∀ l₁ i l₂ j l₃, l = l₁ ++ i :: (l₂ ++ j :: l₃) → Q (run step s l₁) i → ¬ Q (run step s (l₁ ++ i :: l₂)) j

theorem atMostOnce_of_mark_along {M : σ → Prop} (hinv : ∀ s i, I s → P s i → I (step s i))
    (hmark : ∀ s i, I s → Q s i → M (step s i)) (hkeep : ∀ s i, I s → M s → M (step s i))
    (hrule : ∀ s i, I s → M s → ¬ Q s i) (hs : I s) (h : Along step P s l) : AtMostOnce step Q s l := by
  intro l₁ i l₂ j l₃ hl hi
  subst hl
  have h₁ := invariant_of_along hinv hs h.left
  have hP := h l₁ i _ rfl
  have hrest := (along_cons.mp h.right).2.left
  have hboth :=
    invariant_of_along (I := fun s => I s ∧ M s)
      (fun s k hk hPk => ⟨hinv s k hk.1 hPk, hkeep s k hk.1 hk.2⟩) ⟨hinv _ i h₁ hP, hmark _ i h₁ hi⟩ hrest
  rw [run_append]
  exact hrule _ j hboth.1 hboth.2

theorem atMostOnce_of_mark {M : σ → Prop} (hinv : ∀ s i, I s → I (step s i))
    (hmark : ∀ s i, I s → Q s i → M (step s i)) (hkeep : ∀ s i, I s → M s → M (step s i))
    (hrule : ∀ s i, I s → M s → ¬ Q s i) (hs : I s) : AtMostOnce step Q s l :=
  atMostOnce_of_mark_along (P := fun _ _ => True) (fun s i h _ => hinv s i h) hmark hkeep hrule hs
    fun _ _ _ _ => trivial

end Run
