import WeftId.Lib.Proc

/-!
Calls whose statements may fail.  A script says for each statement in turn whether it fails, and past its end none
does.  A failed statement changes nothing and ends the call; what the statements before it did stays.
-/

namespace Fault

open Proc

variable {σ ε α β : Type}

structure Scripted (σ : Type) where
  store : σ
  faults : List Bool

def statement (e : ε) (f : σ → α × σ) : Proc (Scripted σ) ε α := fun s =>
  match s.faults with
  | true :: faults => (.error e, { s with faults })
  | faults => (.ok (f s.store).1, ⟨(f s.store).2, faults.tail⟩)

/-- Without a failure the call returns `a` and leaves `s'`. -/
def Completes (x : Proc (Scripted σ) ε α) (s : σ) (a : α) (s' : σ) : Prop :=
  ∀ faults, true ∉ faults → ∃ faults', true ∉ faults' ∧ x ⟨s, faults⟩ = (.ok a, ⟨s', faults'⟩)

/-- Without a failure of a statement the call raises `e` and leaves `s'`. -/
def Refuses (x : Proc (Scripted σ) ε α) (s : σ) (e : ε) (s' : σ) : Prop :=
  ∀ faults, true ∉ faults → ∃ faults', x ⟨s, faults⟩ = (.error e, ⟨s', faults'⟩)

variable {s s' s'' : σ} {a : α} {b : β} {e : ε} {g : α → Proc (Scripted σ) ε β} {f : σ → α × σ}
  {x : Proc (Scripted σ) ε α}

theorem completes_pure (a : α) (s : σ) : Completes (pure a : Proc (Scripted σ) ε α) s a s :=
  fun faults hfaults => ⟨faults, hfaults, rfl⟩

theorem completes_statement : Completes (statement e f) s (f s).1 (f s).2 := by
  intro faults hfaults
  cases faults with
  | nil => exact ⟨[], hfaults, rfl⟩
  | cons fault faults =>
    simp only [List.mem_cons, not_or] at hfaults
    cases fault with
    | true => exact absurd rfl hfaults.1
    | false => exact ⟨faults, hfaults.2, rfl⟩

theorem Completes.bind (hx : Completes x s a s') (hg : Completes (g a) s' b s'') : Completes (x >>= g) s b s'' := by
  intro faults hfaults
  obtain ⟨faults', hfaults', hx⟩ := hx faults hfaults
  rw [bind_apply_of_ok hx]
  exact hg faults' hfaults'

theorem refuses_raise : Refuses (raise e : Proc (Scripted σ) ε α) s e s :=
  fun faults _ => ⟨faults, rfl⟩

theorem Completes.bind_refuses (hx : Completes x s a s') (hg : Refuses (g a) s' e s'') : Refuses (x >>= g) s e s'' := by
  intro faults hfaults
  obtain ⟨faults', hfaults', hx⟩ := hx faults hfaults
  rw [bind_apply_of_ok hx]
  exact hg faults' hfaults'

theorem completes_forEach {body : β → Proc (Scripted σ) ε Unit} {f : σ → β → σ}
    (hbody : ∀ s b, Completes (body b) s () (f s b)) (bs : List β) (s : σ) :
    Completes (forEach bs body) s () (bs.foldl f s) := by
  induction bs generalizing s with
  | nil => exact completes_pure () s
  | cons b bs ih => exact (hbody s b).bind (ih (f s b))

section Within

variable {R : σ → σ → Prop}

def OnStore (R : σ → σ → Prop) (s s' : Scripted σ) : Prop := R s.store s'.store

instance [Std.Refl R] : Std.Refl (OnStore R) := ⟨fun s => refl_of R s.store⟩

instance [IsTrans σ R] : IsTrans (Scripted σ) (OnStore R) := ⟨fun _ _ _ => trans_of R⟩

theorem within_statement [Std.Refl R] (hf : ∀ s, R s (f s).2) : (statement e f).Within (OnStore R) := by
  intro s
  obtain ⟨store, faults⟩ := s
  have hkeep := refl_of R store
  cases faults with
  | nil => exact hf store
  | cons fault faults =>
    cases fault with
    | true => exact hkeep
    | false => exact hf store

theorem ensures_statement {s : Scripted σ} {Q : Except ε α → Scripted σ → Prop}
    (hfail : ∀ faults, Q (.error e) ⟨s.store, faults⟩)
    (hdone : ∀ faults, Q (.ok (f s.store).1) ⟨(f s.store).2, faults⟩) : (statement e f).Ensures s Q := by
  obtain ⟨store, faults⟩ := s
  cases faults with
  | nil => exact hdone []
  | cons fault faults =>
    cases fault with
    | true => exact hfail faults
    | false => exact hdone faults

end Within

end Fault
