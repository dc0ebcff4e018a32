import Mathlib.Data.List.Basic
import WeftId.Lib.Proc

/-!
Fibers are calls on a shared store made of atomic steps, between which steps of other fibers may run.
`Ensures` says what a fiber returns, and what it keeps of the store, however the others interfere; a
`Pool` is a store with the fibers in flight on it.
-/

inductive Fiber (ℓ σ ε α : Type) : Type 1
  | done (result : Except ε α)
  | step {β : Type} (label : ℓ) (call : Proc σ ε β) (next : Except ε β → Fiber ℓ σ ε α)

namespace Fiber

variable {ℓ σ ε α β : Type} {x : Fiber ℓ σ ε α} {c : Prop} {call : Proc σ ε α} {e : ε} {f : α → Fiber ℓ σ ε β}
  {handler : ε → Fiber ℓ σ ε α}

def andThen : Fiber ℓ σ ε α → (Except ε α → Fiber ℓ σ ε β) → Fiber ℓ σ ε β
  | .done result, f => f result
  | .step label call next, f => .step label call fun result => (next result).andThen f

instance : Monad (Fiber ℓ σ ε) where
  pure a := .done (.ok a)
  bind x f := x.andThen fun
    | .ok a => f a
    | .error e => .done (.error e)

def raise (e : ε) : Fiber ℓ σ ε α := .done (.error e)

def rescue (x : Fiber ℓ σ ε α) (handler : ε → Fiber ℓ σ ε α) : Fiber ℓ σ ε α := x.andThen fun
  | .ok a => .done (.ok a)
  | .error e => handler e

def require (c : Prop) [Decidable c] (e : ε) : Fiber ℓ σ ε Unit := if c then pure () else raise e

def whenever (c : Prop) [Decidable c] (x : Fiber ℓ σ ε Unit) : Fiber ℓ σ ε Unit := if c then x else pure ()

def atomic (label : ℓ) (call : Proc σ ε α) : Fiber ℓ σ ε α := .step label call .done

def forEach : List β → (β → Fiber ℓ σ ε Unit) → Fiber ℓ σ ε Unit
  | [], _ => pure ()
  | b :: bs, f => do
    f b
    forEach bs f

def collect : List (Fiber ℓ σ ε α) → Fiber ℓ σ ε (List α)
  | [] => pure []
  | x :: xs => do
    let a ← x
    let as ← collect xs
    pure (a :: as)

section Ensures

variable {I : σ → Prop} {C : ℓ → σ → Prop} {Q Q' : α → Prop}

/-- From any store in which `I` and the condition of the step hold, every step keeps `I`; the fiber raises
or returns a value that meets `Q`. -/
def Ensures (I : σ → Prop) (C : ℓ → σ → Prop) (Q : α → Prop) : Fiber ℓ σ ε α → Prop
  | .done (.ok a) => Q a
  | .done (.error _) => True
  | .step label call next => ∀ s, I s → C label s → I (call.exec s) ∧ (next (call s).1).Ensures I C Q

theorem ensures_atomic {label : ℓ} (h : ∀ s, I s → C label s → I (call.exec s))
    (hQ : ∀ s a, I s → C label s → (call s).1 = .ok a → Q a) : (atomic label call).Ensures I C Q := by
  intro s hs hC
  refine ⟨h s hs hC, ?_⟩
  cases hcall : (call s).1 with
  | ok a => exact hQ s a hs hC hcall
  | error e => trivial

theorem Ensures.andThen {f : Except ε α → Fiber ℓ σ ε β} {P : β → Prop} (hx : x.Ensures I C Q)
    (hok : ∀ a, Q a → (f (.ok a)).Ensures I C P) (herr : ∀ e, (f (.error e)).Ensures I C P) :
    (x.andThen f).Ensures I C P := by
  induction x with
  | done result =>
    cases result with
    | ok a => exact hok a hx
    | error e => exact herr e
  | step label call next ih =>
    intro s hs hC
    have hstep := hx s hs hC
    exact ⟨hstep.1, ih _ hstep.2⟩

theorem Ensures.bind {P : β → Prop} (hx : x.Ensures I C Q)
    (hf : ∀ a, Q a → (f a).Ensures I C P) : (x >>= f).Ensures I C P :=
  hx.andThen hf fun _ => trivial

theorem Ensures.rescue (hx : x.Ensures I C Q)
    (hh : ∀ e, (handler e).Ensures I C Q) : (x.rescue handler).Ensures I C Q :=
  hx.andThen (fun _ ha => ha) hh

theorem Ensures.mono (hx : x.Ensures I C Q) (h : ∀ a, Q a → Q' a) : x.Ensures I C Q' := by
  induction x with
  | done result =>
    cases result with
    | ok a => exact h a hx
    | error e => trivial
  | step label call next ih =>
    intro s hs hC
    have hstep := hx s hs hC
    exact ⟨hstep.1, ih _ hstep.2⟩

theorem ensures_ite [Decidable c] {y : Fiber ℓ σ ε α} (hx : c → x.Ensures I C Q)
    (hy : ¬ c → y.Ensures I C Q) : (if c then x else y).Ensures I C Q := by
  by_cases hc : c
  · rw [if_pos hc]
    exact hx hc
  · rw [if_neg hc]
    exact hy hc

theorem ensures_require [Decidable c] : (require c e : Fiber ℓ σ ε Unit).Ensures I C fun _ => c :=
  ensures_ite (fun hc => hc) fun _ => trivial

theorem ensures_read {label : ℓ} {f : σ → α} :
    (atomic label (Proc.read f) : Fiber ℓ σ ε α).Ensures I C fun a => ∃ s, I s ∧ C label s ∧ a = f s :=
  ensures_atomic (fun _ hs _ => hs) fun s _ hs hC ha => ⟨s, hs, hC, (Except.ok.inj ha).symm⟩

end Ensures

section Alone

def toProc : Fiber ℓ σ ε α → Proc σ ε α
  | .done result => fun s => (result, s)
  | .step _ call next => fun s => (next (call s).1).toProc (call s).2

theorem toProc_andThen (x : Fiber ℓ σ ε α) (f : Except ε α → Fiber ℓ σ ε β) (s : σ) :
    (x.andThen f).toProc s = (f (x.toProc s).1).toProc (x.toProc s).2 := by
  induction x generalizing s with
  | done result => rfl
  | step label call next ih => exact ih (call s).1 (call s).2

theorem toProc_bind (x : Fiber ℓ σ ε α) (f : α → Fiber ℓ σ ε β) :
    (x >>= f).toProc = x.toProc >>= fun a => (f a).toProc := by
  funext s
  refine (toProc_andThen x _ s).trans ?_
  cases hx : x.toProc s with
  | mk result s' =>
    cases result with
    | ok a => exact (Proc.bind_apply_of_ok hx fun a => (f a).toProc).symm
    | error e => exact (Proc.bind_apply_of_error hx fun a => (f a).toProc).symm

theorem toProc_pure (a : α) : (pure a : Fiber ℓ σ ε α).toProc = pure a := rfl

theorem toProc_raise (e : ε) : (raise e : Fiber ℓ σ ε α).toProc = Proc.raise e := rfl

theorem toProc_rescue (x : Fiber ℓ σ ε α) (handler : ε → Fiber ℓ σ ε α) :
    (x.rescue handler).toProc = Proc.rescue x.toProc fun e => (handler e).toProc := by
  funext s
  refine (toProc_andThen x _ s).trans ?_
  unfold Proc.rescue
  cases x.toProc s with
  | mk result s' => cases result <;> rfl

theorem toProc_whenever (c : Prop) [Decidable c] (x : Fiber ℓ σ ε Unit) :
    (whenever c x).toProc = Proc.whenever c x.toProc := by
  unfold whenever Proc.whenever
  by_cases hc : c
  · rw [if_pos hc, if_pos hc]
  · rw [if_neg hc, if_neg hc]
    rfl

theorem toProc_require (c : Prop) [Decidable c] (e : ε) :
    (require c e : Fiber ℓ σ ε Unit).toProc = Proc.require c e := by
  unfold require Proc.require
  by_cases hc : c
  · rw [if_pos hc, if_pos hc]
    rfl
  · rw [if_neg hc, if_neg hc]
    rfl

end Alone

section Machine

variable {τ : Type}

def act (s : σ) (x : Fiber ℓ σ ε α) : σ × Fiber ℓ σ ε α :=
  match x with
  | .done result => (s, .done result)
  | .step _ call next => (call.exec s, next (call s).1)

def result : Fiber ℓ σ ε α → Option (Except ε α)
  | .done result => some result
  | .step .. => none

def label : Fiber ℓ σ ε α → Option ℓ
  | .done _ => none
  | .step label _ _ => some label

theorem act_atomic_bind_of_ok {label : ℓ} {s s' : σ} {a : α} (h : call s = (.ok a, s')) :
    (atomic label call >>= f).act s = (s', f a) := by
  have hact : (atomic label call >>= f).act s = (call.exec s, match (call s).1 with
      | .ok a => f a
      | .error e => .done (.error e)) := rfl
  rw [hact, Proc.exec, h]

theorem andThen_assoc {γ : Type} (x : Fiber ℓ σ ε α) (f : Except ε α → Fiber ℓ σ ε β) (g : Except ε β → Fiber ℓ σ ε γ) :
    (x.andThen f).andThen g = x.andThen fun result => (f result).andThen g := by
  induction x with
  | done result => rfl
  | step label call next ih => simp only [andThen, ih]

theorem bind_bind {γ : Type} (x : Fiber ℓ σ ε α) (f : α → Fiber ℓ σ ε β) (g : β → Fiber ℓ σ ε γ) :
    (x >>= f) >>= g = x >>= fun a => f a >>= g := by
  refine (andThen_assoc x _ _).trans ?_
  congr 1
  funext result
  cases result <;> rfl

def Runs (fiber : τ → Fiber ℓ σ ε α) (act : σ → τ → σ × τ) : Prop :=
  ∀ s t, match fiber t with
    | .done result => (act s t).1 = s ∧ fiber (act s t).2 = .done result
    | .step _ call next => (act s t).1 = call.exec s ∧ fiber (act s t).2 = next (call s).1

end Machine

section Steps

variable {S : ℓ → (σ → σ) → Prop}

/-- What each step of the fiber does to the store is among what `S` allows under its label. -/
def Steps (S : ℓ → (σ → σ) → Prop) : Fiber ℓ σ ε α → Prop
  | .done _ => True
  | .step label call next => S label call.exec ∧ ∀ result, (next result).Steps S

theorem Steps.andThen {f : Except ε α → Fiber ℓ σ ε β} (hx : x.Steps S)
    (hf : ∀ result, (f result).Steps S) : (x.andThen f).Steps S := by
  induction x with
  | done result => exact hf result
  | step label call next ih => exact ⟨hx.1, fun result => ih result (hx.2 result)⟩

theorem Steps.bind (hx : x.Steps S) (hf : ∀ a, (f a).Steps S) : (x >>= f).Steps S := by
  apply hx.andThen
  intro result
  cases result with
  | ok a => exact hf a
  | error e => trivial

theorem Steps.rescue (hx : x.Steps S) (hh : ∀ e, (handler e).Steps S) : (x.rescue handler).Steps S := by
  apply hx.andThen
  intro result
  cases result with
  | ok a => trivial
  | error e => exact hh e

theorem steps_raise : (raise e : Fiber ℓ σ ε α).Steps S := trivial

theorem steps_atomic {label : ℓ} (h : S label call.exec) : (atomic label call).Steps S :=
  ⟨h, fun _ => trivial⟩

theorem steps_whenever [Decidable c] {x : Fiber ℓ σ ε Unit} (h : c → x.Steps S) : (whenever c x).Steps S := by
  unfold whenever
  by_cases hc : c
  · rw [if_pos hc]
    exact h hc
  · rw [if_neg hc]
    trivial

theorem steps_pure (a : α) : (pure a : Fiber ℓ σ ε α).Steps S := trivial

theorem Steps.atomic {label : ℓ} (hcall : S label call.exec)
    (hf : ∀ a, (f a).Steps S) : (atomic label call >>= f).Steps S := by
  have hx : (Fiber.atomic label call).Steps S := ⟨hcall, fun _ => trivial⟩
  exact hx.bind hf

theorem Steps.require [Decidable c] {f : Unit → Fiber ℓ σ ε β} (hf : c → (f ()).Steps S) :
    (require c e >>= f).Steps S := by
  unfold Fiber.require
  by_cases hc : c
  · rw [if_pos hc]
    exact hf hc
  · rw [if_neg hc]
    trivial

theorem steps_forEach {bs : List β} {f : β → Fiber ℓ σ ε Unit} (h : ∀ b, (f b).Steps S) : (forEach bs f).Steps S := by
  induction bs with
  | nil => trivial
  | cons b bs ih => exact (h b).bind fun _ => ih

end Steps

section Obeys

variable {R : ℓ → σ → σ → Fiber ℓ σ ε α → Prop} {f : Unit → Fiber ℓ σ ε α}

/-- In whatever store a step is taken, `R` relates its label, the stores before and after it and the fiber
that is left. -/
def Obeys (R : ℓ → σ → σ → Fiber ℓ σ ε α → Prop) : Fiber ℓ σ ε α → Prop
  | .done _ => True
  | .step label call next => ∀ s, R label s (call.exec s) (next (call s).1) ∧ (next (call s).1).Obeys R

theorem obeys_raise : (raise e : Fiber ℓ σ ε α).Obeys R := trivial

theorem obeys_pure {a : α} : (pure a : Fiber ℓ σ ε α).Obeys R := trivial

theorem Obeys.atomic {label : ℓ} {call : Proc σ ε β} {f : β → Fiber ℓ σ ε α}
    (hok : ∀ s b, (call s).1 = .ok b → R label s (call.exec s) (f b) ∧ (f b).Obeys R)
    (herror : ∀ s e, (call s).1 = .error e → R label s (call.exec s) (raise e)) :
    (atomic label call >>= f).Obeys R := by
  intro s
  cases hresult : (call s).1 with
  | ok b => exact hok s b hresult
  | error e => exact ⟨herror s e hresult, trivial⟩

theorem Obeys.read {label : ℓ} {g : σ → β} {f : β → Fiber ℓ σ ε α}
    (h : ∀ s, R label s s (f (g s)) ∧ (f (g s)).Obeys R) : (Fiber.atomic label (Proc.read g) >>= f).Obeys R := h

theorem Obeys.write {label : ℓ} {g : σ → σ}
    (h : ∀ s, R label s (g s) (f ())) (hf : (f ()).Obeys R) : (Fiber.atomic label (Proc.write g) >>= f).Obeys R :=
  fun s => ⟨h s, hf⟩

theorem Obeys.orRaise {label : ℓ} {g : σ → Option β} {f : β → Fiber ℓ σ ε α}
    (hsome : ∀ s b, g s = some b → R label s s (f b) ∧ (f b).Obeys R) (hnone : ∀ s, R label s s (raise e)) :
    (Fiber.atomic label (Proc.orRaise g e) >>= f).Obeys R := by
  apply Obeys.atomic
  · intro s b hb
    unfold Proc.exec Proc.orRaise at *
    cases hg : g s with
    | none => simp [hg] at hb
    | some b' =>
      obtain rfl : b' = b := by simpa [hg] using hb
      exact hsome s b' hg
  · intro s e' he
    unfold Proc.exec Proc.orRaise at *
    cases hg : g s with
    | none =>
      obtain rfl : e = e' := by simpa [hg] using he
      exact hnone s
    | some b => simp [hg] at he

theorem Obeys.require [Decidable c] (hf : c → (f ()).Obeys R) : (Fiber.require c e >>= f).Obeys R := by
  unfold Fiber.require
  by_cases hc : c
  · rw [if_pos hc]
    exact hf hc
  · rw [if_neg hc]
    trivial

theorem label_require [Decidable c] {l : ℓ}
    (h : (Fiber.require c e >>= f).label = some l) : c ∧ (f ()).label = some l := by
  unfold require at h
  by_cases hc : c
  · rw [if_pos hc] at h
    exact ⟨hc, h⟩
  · rw [if_neg hc] at h
    cases h

end Obeys

/-- What a fiber may count on.  Between its steps the others move the store along `rely`; a step is taken in a
store that meets `cond`, and from the moment it is next, `before` holds.  `track` keeps a note of what the
fiber's own steps did to the store, and `guar` says what they may do. -/
structure Rely (ℓ σ γ : Type) where
  track : σ → σ → γ → γ
  rely : γ → σ → σ → Prop
  cond : ℓ → γ → σ → Prop
  before : ℓ → γ → σ → Prop
  guar : ℓ → (σ → σ) → Prop

section Secures

variable {γ : Type} {R : Rely ℓ σ γ} {g : γ} {s : σ} {Q : Except ε α → γ → σ → Prop} {P : Except ε β → γ → σ → Prop}

/-- However the others move the store, the fiber stands at each step as `before` says, does what `guar` allows
and ends as `Q` says. -/
def Secures (R : Rely ℓ σ γ) (Q : Except ε α → γ → σ → Prop) : Fiber ℓ σ ε α → γ → σ → Prop
  | .done result, g, s => Q result g s
  | .step label call next, g, s => (R.before label g s ∧ R.guar label call.exec) ∧
      ∀ s', R.rely g s s' → R.cond label g s' → (next (call s').1).Secures R Q
        (R.track s' (call.exec s') g) (call.exec s')

theorem secures_atomic {label : ℓ} (hbefore : R.before label g s) (hguar : R.guar label call.exec)
    (h : ∀ s', R.rely g s s' → R.cond label g s' → Q (call s').1 (R.track s' (call.exec s') g) (call.exec s')) :
    (atomic label call).Secures R Q g s := ⟨⟨hbefore, hguar⟩, h⟩

theorem Secures.andThen {f : Except ε α → Fiber ℓ σ ε β} (hx : x.Secures R Q g s)
    (hf : ∀ result g s, Q result g s → (f result).Secures R P g s) : (x.andThen f).Secures R P g s := by
  induction x generalizing g s with
  | done result => exact hf result g s hx
  | step label call next ih => exact ⟨hx.1, fun s' hrely hcond => ih _ (hx.2 s' hrely hcond)⟩

theorem Secures.bind (hx : x.Secures R Q g s) (hok : ∀ a g s, Q (.ok a) g s → (f a).Secures R P g s)
    (herr : ∀ e g s, Q (.error e) g s → P (.error e) g s) : (x >>= f).Secures R P g s := by
  apply hx.andThen
  intro result g s h
  cases result with
  | ok a => exact hok a g s h
  | error e => exact herr e g s h

theorem Secures.rescue {P : Except ε α → γ → σ → Prop}
    (hx : x.Secures R Q g s) (hok : ∀ a g s, Q (.ok a) g s → P (.ok a) g s)
    (herr : ∀ e g s, Q (.error e) g s → (handler e).Secures R P g s) : (x.rescue handler).Secures R P g s := by
  apply hx.andThen
  intro result g s h
  cases result with
  | ok a => exact hok a g s h
  | error e => exact herr e g s h

theorem Secures.mono {P : Except ε α → γ → σ → Prop} (hx : x.Secures R Q g s)
    (h : ∀ result g s, Q result g s → P result g s) : x.Secures R P g s := by
  induction x generalizing g s with
  | done result => exact h result g s hx
  | step label call next ih => exact ⟨hx.1, fun s' hrely hcond => ih _ (hx.2 s' hrely hcond)⟩

theorem Secures.later {s' : σ} (hx : x.Secures R Q g s)
    (htrans : ∀ s₁ s₂ s₃, R.rely g s₁ s₂ → R.rely g s₂ s₃ → R.rely g s₁ s₃)
    (hbefore : ∀ label, R.before label g s → R.before label g s') (hQ : ∀ result, Q result g s → Q result g s')
    (hs : R.rely g s s') : x.Secures R Q g s' := by
  cases x with
  | done result => exact hQ result hx
  | step label => exact ⟨⟨hbefore label hx.1.1, hx.1.2⟩, fun s'' hrely => hx.2 s'' (htrans _ _ _ hs hrely)⟩

end Secures

end Fiber

/-- A store, the fibers in flight on it and the fibers that have ended, each with the request it serves. -/
structure Pool (ℓ σ ε α κ : Type) : Type 1 where
  store : σ
  inFlight : List (κ × Fiber ℓ σ ε α) := []
  finished : List (κ × Except ε α) := []

namespace Pool

variable {ℓ σ ε α κ : Type} {I : σ → Prop} {C : κ → ℓ → σ → Prop} {Q : κ → α → Prop} {p : Pool ℓ σ ε α κ}
  {fiber : Fiber ℓ σ ε α}

def start (p : Pool ℓ σ ε α κ) (request : κ) (fiber : Fiber ℓ σ ε α) : Pool ℓ σ ε α κ :=
  { p with inFlight := p.inFlight ++ [(request, fiber)] }

def advance (p : Pool ℓ σ ε α κ) (i : Nat) : Pool ℓ σ ε α κ :=
  match p.inFlight[i]? with
  | none => p
  | some (request, .done result) =>
    { p with inFlight := p.inFlight.eraseIdx i, finished := p.finished ++ [(request, result)] }
  | some (request, .step _ call next) =>
    { p with store := call.exec p.store, inFlight := p.inFlight.set i (request, next (call p.store).1) }

/-- The store keeps `I`, every fiber in flight will end well if its steps meet their conditions, and those
that ended did. -/
structure Sound (I : σ → Prop) (C : κ → ℓ → σ → Prop) (Q : κ → α → Prop) (p : Pool ℓ σ ε α κ) : Prop where
  store : I p.store
  inFlight : ∀ request fiber, (request, fiber) ∈ p.inFlight → fiber.Ensures I (C request) (Q request)
  finished : ∀ request a, (request, .ok a) ∈ p.finished → Q request a

theorem Sound.start (h : p.Sound I C Q) (request : κ)
    (hfiber : fiber.Ensures I (C request) (Q request)) : (p.start request fiber).Sound I C Q where
  store := h.store
  inFlight := by
    intro request' fiber' hmem
    rcases List.mem_append.mp hmem with hold | hnew
    · exact h.inFlight request' fiber' hold
    · obtain ⟨rfl, rfl⟩ := Prod.mk.inj (List.mem_singleton.mp hnew)
      exact hfiber
  finished := h.finished

/-- The condition of the step that the fiber at `i` takes next. -/
def StepMeets (C : κ → ℓ → σ → Prop) (p : Pool ℓ σ ε α κ) (i : Nat) : Prop :=
  match p.inFlight[i]? with
  | some (request, .step label _ _) => C request label p.store
  | _ => True

instance [∀ request label s, Decidable (C request label s)] (i : Nat) : Decidable (p.StepMeets C i) := by
  unfold StepMeets
  split <;> infer_instance

theorem Sound.advance (h : p.Sound I C Q) {i : Nat} (hC : p.StepMeets C i) : (p.advance i).Sound I C Q := by
  unfold Pool.advance
  cases hi : p.inFlight[i]? with
  | none => exact h
  | some entry =>
    obtain ⟨request, fiber⟩ := entry
    have hmem := List.mem_of_getElem? hi
    have hfiber := h.inFlight request fiber hmem
    cases fiber with
    | done result =>
      refine ⟨h.store, fun request' fiber' hmem' => ?_, fun request' a hmem' => ?_⟩
      · exact h.inFlight request' fiber' (List.mem_of_mem_eraseIdx hmem')
      · rcases List.mem_append.mp hmem' with hold | hnew
        · exact h.finished request' a hold
        · obtain ⟨rfl, rfl⟩ := Prod.mk.inj (List.mem_singleton.mp hnew)
          exact hfiber
    | step =>
      rw [StepMeets, hi] at hC
      have hstep := hfiber p.store h.store hC
      refine ⟨hstep.1, fun request' fiber' hmem' => ?_, h.finished⟩
      rcases List.mem_or_eq_of_mem_set hmem' with hold | hnew
      · exact h.inFlight request' fiber' hold
      · obtain ⟨rfl, rfl⟩ := Prod.mk.inj hnew
        exact hstep.2

section Obeys

variable {R : ℓ → σ → σ → Fiber ℓ σ ε α → Prop}

def Obeys (R : ℓ → σ → σ → Fiber ℓ σ ε α → Prop) (p : Pool ℓ σ ε α κ) : Prop :=
  ∀ call ∈ p.inFlight, call.2.Obeys R

theorem Obeys.start (h : p.Obeys R) (request : κ) (hfiber : fiber.Obeys R) : (p.start request fiber).Obeys R := by
  intro call hcall
  rcases List.mem_append.mp hcall with hold | hnew
  · exact h call hold
  · obtain rfl := List.mem_singleton.mp hnew
    exact hfiber

/-- The fiber at a place takes its step: the store changes as `R` says, and what is left takes the fiber's place. -/
structure Moved (R : ℓ → σ → σ → Fiber ℓ σ ε α → Prop) (p q : Pool ℓ σ ε α κ) (i : Nat) (request : κ)
    (fiber : Fiber ℓ σ ε α) (label : ℓ) (next : Fiber ℓ σ ε α) : Prop where
  here : p.inFlight[i]? = some (request, fiber)
  labelled : fiber.label = some label
  inFlight : q.inFlight = p.inFlight.set i (request, next)
  effect : R label p.store q.store next

theorem Obeys.advance_cases (h : p.Obeys R) (i : Nat) : (p.advance i).Obeys R ∧
    ((p.advance i).store = p.store ∧ (∀ call ∈ (p.advance i).inFlight, call ∈ p.inFlight) ∧
        (∀ call ∈ p.inFlight, call.2.label ≠ none → call ∈ (p.advance i).inFlight) ∨
      ∃ request fiber label next, Moved R p (p.advance i) i request fiber label next) := by
  unfold Pool.advance
  cases hi : p.inFlight[i]? with
  | none => exact ⟨h, .inl ⟨rfl, fun _ hcall => hcall, fun _ hcall _ => hcall⟩⟩
  | some entry =>
    obtain ⟨request, fiber⟩ := entry
    have hfiber := h _ (List.mem_of_getElem? hi)
    cases fiber with
    | done result =>
      refine ⟨fun call hcall => h call (List.mem_of_mem_eraseIdx hcall),
        .inl ⟨rfl, fun call hcall => List.mem_of_mem_eraseIdx hcall, fun call hcall hlabel => ?_⟩⟩
      obtain ⟨j, hj⟩ := List.mem_iff_getElem?.mp hcall
      have hne : j ≠ i := by
        rintro rfl
        obtain rfl := Option.some.inj (hi.symm.trans hj)
        exact hlabel rfl
      exact List.mem_eraseIdx_iff_getElem?.mpr ⟨j, hne, hj⟩
    | step label =>
      obtain ⟨heffect, hnext⟩ := hfiber p.store
      refine ⟨fun other hother => ?_, .inr ⟨request, _, label, _, hi, rfl, rfl, heffect⟩⟩
      rcases List.mem_or_eq_of_mem_set hother with hold | rfl
      · exact h other hold
      · exact hnext

end Obeys

section Steps

variable {S : κ → ℓ → (σ → σ) → Prop}

def Steps (S : κ → ℓ → (σ → σ) → Prop) (p : Pool ℓ σ ε α κ) : Prop :=
  ∀ request fiber, (request, fiber) ∈ p.inFlight → fiber.Steps (S request)

theorem Steps.start (h : p.Steps S) (request : κ) (hfiber : fiber.Steps (S request)) :
    (p.start request fiber).Steps S := by
  intro request' fiber' hmem
  rcases List.mem_append.mp hmem with hold | hnew
  · exact h request' fiber' hold
  · obtain ⟨rfl, rfl⟩ := Prod.mk.inj (List.mem_singleton.mp hnew)
    exact hfiber

theorem Steps.advance (h : p.Steps S) (i : Nat) : (p.advance i).Steps S := by
  unfold Pool.advance
  cases hi : p.inFlight[i]? with
  | none => exact h
  | some entry =>
    obtain ⟨request, fiber⟩ := entry
    have hfiber := h request fiber (List.mem_of_getElem? hi)
    cases fiber with
    | done result => exact fun request' fiber' hmem => h request' fiber' (List.mem_of_mem_eraseIdx hmem)
    | step =>
      intro request' fiber' hmem
      rcases List.mem_or_eq_of_mem_set hmem with hold | hnew
      · exact h request' fiber' hold
      · obtain ⟨rfl, rfl⟩ := Prod.mk.inj hnew
        exact hfiber.2 _

theorem Steps.advance_store (h : p.Steps S) {i : Nat} :
    (p.advance i).store = p.store ∧ (∀ C : κ → ℓ → σ → Prop, p.StepMeets C i) ∨
      ∃ request label f, S request label f ∧ (p.advance i).store = f p.store ∧
        ∀ C : κ → ℓ → σ → Prop, p.StepMeets C i ↔ C request label p.store := by
  unfold Pool.advance StepMeets
  cases hi : p.inFlight[i]? with
  | none => exact .inl ⟨rfl, fun _ => trivial⟩
  | some entry =>
    obtain ⟨request, fiber⟩ := entry
    cases fiber with
    | done result => exact .inl ⟨rfl, fun _ => trivial⟩
    | step label call next =>
      have hfiber := h request _ (List.mem_of_getElem? hi)
      exact .inr ⟨request, label, call.exec, hfiber.1, rfl, fun _ => Iff.rfl⟩

end Steps

end Pool
