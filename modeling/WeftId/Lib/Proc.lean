import Mathlib.Order.Defs.Unbundled

/-!
Calls that read and write a store and may raise.  What a call committed before it raises stays in the
store; only a `transaction` takes its own writes back.  `Ensures` is the postcondition of a call run
from a given store, and `Within` bounds by a relation what a call can do to any store.
-/

theorem Except.ok_snd {σ ε α : Type} {a b : α} {s s' : σ}
    (h : (.ok (a, s) : Except ε (α × σ)) = .ok (b, s')) : s = s' :=
  (Prod.mk.inj (Except.ok.inj h)).2

def Proc (σ ε α : Type) : Type := σ → Except ε α × σ

namespace Proc

variable {σ ε α β : Type} {x : Proc σ ε α} {c : Prop} {e : ε} {f : α → Proc σ ε β} {handler : ε → Proc σ ε α}
  {find : σ → Except ε α}

instance : Monad (Proc σ ε) where
  pure a := fun s => (.ok a, s)
  bind x f := fun s =>
    match x s with
    | (.ok a, s') => f a s'
    | (.error e, s') => (.error e, s')

def read (f : σ → α) : Proc σ ε α := fun s => (.ok (f s), s)

def write (f : σ → σ) : Proc σ ε Unit := fun s => (.ok (), f s)

def raise (e : ε) : Proc σ ε α := fun s => (.error e, s)

def orRaise (f : σ → Option α) (e : ε) : Proc σ ε α := fun s =>
  match f s with
  | some a => (.ok a, s)
  | none => (.error e, s)

def lookup (f : σ → Except ε α) : Proc σ ε α := fun s => (f s, s)

def require (c : Prop) [Decidable c] (e : ε) : Proc σ ε Unit := if c then pure () else raise e

def whenever (c : Prop) [Decidable c] (x : Proc σ ε Unit) : Proc σ ε Unit := if c then x else pure ()

def transaction (f : σ → Except ε (α × σ)) : Proc σ ε α := fun s =>
  match f s with
  | .ok (a, s') => (.ok a, s')
  | .error e => (.error e, s)

def rescue (x : Proc σ ε α) (handler : ε → Proc σ ε α) : Proc σ ε α := fun s =>
  match x s with
  | (.ok a, s') => (.ok a, s')
  | (.error e, s') => handler e s'

def forEach : List β → (β → Proc σ ε Unit) → Proc σ ε Unit
  | [], _ => pure ()
  | b :: bs, f => do
    f b
    forEach bs f

def exec (x : Proc σ ε α) (s : σ) : σ := (x s).2

section Apply

variable (s : σ)

@[simp] theorem pure_apply (a : α) : (pure a : Proc σ ε α) s = (.ok a, s) := rfl

@[simp] theorem raise_apply (e : ε) : (raise e : Proc σ ε α) s = (.error e, s) := rfl

@[simp] theorem read_apply (f : σ → α) : (read f : Proc σ ε α) s = (.ok (f s), s) := rfl

@[simp] theorem write_apply {f : σ → σ} : (write f : Proc σ ε Unit) s = (.ok (), f s) := rfl

@[simp] theorem pure_bind_apply (a : α) (g : α → Proc σ ε β) : ((pure a : Proc σ ε α) >>= g) s = g a s := rfl

@[simp] theorem raise_bind_apply {g : α → Proc σ ε β} : (raise e >>= g) s = (.error e, s) := rfl

@[simp] theorem read_bind_apply (f : σ → α) (g : α → Proc σ ε β) : (read f >>= g) s = g (f s) s := rfl

@[simp] theorem write_bind_apply (f : σ → σ) (g : Unit → Proc σ ε β) : (write f >>= g) s = g () (f s) := rfl

theorem lookup_bind_apply (a : α) (g : α → Proc σ ε β) : (lookup (fun _ => .ok a) >>= g) s = g a s := rfl

theorem orRaise_bind_apply (find : σ → Option α) (e : ε) (g : α → Proc σ ε β) :
    (orRaise find e >>= g) s = match find s with
      | some a => g a s
      | none => (.error e, s) := by
  simp only [orRaise, Bind.bind]
  cases find s <;> rfl

theorem bind_apply_of_ok {s s' : σ} {a : α} (h : x s = (.ok a, s')) (g : α → Proc σ ε β) : (x >>= g) s = g a s' := by
  change (match x s with
    | (.ok a, s') => g a s'
    | (.error e, s') => (.error e, s')) = g a s'
  rw [h]

theorem bind_apply_of_error {s s' : σ} (h : x s = (.error e, s'))
    (g : α → Proc σ ε β) : (x >>= g) s = (.error e, s') := by
  change (match x s with
    | (.ok a, s') => g a s'
    | (.error e, s') => (.error e, s')) = (.error e, s')
  rw [h]

end Apply

section Ensures

variable {s : σ} {Q Q' : Except ε α → σ → Prop} {P : σ → Prop}

def Ensures (x : Proc σ ε α) (s : σ) (Q : Except ε α → σ → Prop) : Prop := Q (x s).1 (x s).2

theorem Ensures.mono (h : x.Ensures s Q) (hQ : ∀ r s', Q r s' → Q' r s') : x.Ensures s Q' := hQ _ _ h

@[simp] theorem ensures_pure (a : α) : (pure a : Proc σ ε α).Ensures s Q ↔ Q (.ok a) s := Iff.rfl

@[simp] theorem ensures_raise (e : ε) : (raise e : Proc σ ε α).Ensures s Q ↔ Q (.error e) s := Iff.rfl

@[simp] theorem ensures_read (f : σ → α) : (read f : Proc σ ε α).Ensures s Q ↔ Q (.ok (f s)) s := Iff.rfl

@[simp] theorem ensures_write (f : σ → σ) {Q : Except ε Unit → σ → Prop} :
    (write f : Proc σ ε Unit).Ensures s Q ↔ Q (.ok ()) (f s) := Iff.rfl

theorem ensures_bind {Q : Except ε β → σ → Prop} : (x >>= f).Ensures s Q ↔ x.Ensures s fun r s' =>
      match r with
      | .ok a => (f a).Ensures s' Q
      | .error e => Q (.error e) s' := by
  unfold Ensures
  change Q (match x s with
    | (.ok a, s') => f a s'
    | (.error e, s') => (.error e, s')).1 (match x s with
    | (.ok a, s') => f a s'
    | (.error e, s') => (.error e, s')).2 ↔ _
  rcases x s with ⟨_ | _, _⟩ <;> rfl

theorem ensures_orRaise {f : σ → Option α} : (orRaise f e : Proc σ ε α).Ensures s Q ↔
      (∀ a, f s = some a → Q (.ok a) s) ∧ (f s = none → Q (.error e) s) := by
  unfold Ensures orRaise
  cases h : f s <;> simp

theorem ensures_lookup {f : σ → Except ε α} : (lookup f).Ensures s Q ↔ Q (f s) s := Iff.rfl

theorem ensures_require [Decidable c] {Q : Except ε Unit → σ → Prop} :
    (require c e : Proc σ ε Unit).Ensures s Q ↔ (c → Q (.ok ()) s) ∧ (¬ c → Q (.error e) s) := by
  unfold require
  by_cases h : c <;> simp [h]

theorem ensures_whenever [Decidable c] {x : Proc σ ε Unit} {Q : Except ε Unit → σ → Prop} :
    (whenever c x).Ensures s Q ↔ (c → x.Ensures s Q) ∧ (¬ c → Q (.ok ()) s) := by
  unfold whenever
  by_cases h : c <;> simp [h]

theorem ensures_transaction {f : σ → Except ε (α × σ)} : (transaction f).Ensures s Q ↔
      (∀ a s', f s = .ok (a, s') → Q (.ok a) s') ∧ (∀ e, f s = .error e → Q (.error e) s) := by
  unfold Ensures transaction
  rcases h : f s with e | ⟨a, s'⟩ <;> simp

theorem ensures_rescue : (rescue x handler).Ensures s Q ↔ x.Ensures s fun r s' =>
      match r with
      | .ok a => Q (.ok a) s'
      | .error e => (handler e).Ensures s' Q := by
  unfold Ensures rescue
  rcases x s with ⟨_ | _, _⟩ <;> rfl

/-- A call that ends in `P` or raises without having written anything. -/
def OrUnchanged (s : σ) (P : σ → Prop) : Except ε α → σ → Prop
  | .ok _, s' => P s'
  | .error _, s' => s' = s

theorem Ensures.exec_cases (h : x.Ensures s (OrUnchanged s P)) :
    x.exec s = s ∨ (∃ a, (x s).1 = .ok a) ∧ P (x.exec s) := by
  unfold Ensures at h
  unfold exec
  rcases hx : x s with ⟨_ | a, _⟩
  · rw [hx] at h
    exact .inl h
  · rw [hx] at h
    exact .inr ⟨⟨a, rfl⟩, h⟩

theorem Ensures.exec_or (h : x.Ensures s (OrUnchanged s P)) :
    x.exec s = s ∨ P (x.exec s) := h.exec_cases.imp_right And.right

theorem Ensures.of_ok {a : α} (h : x.Ensures s (OrUnchanged s P)) (hok : (x s).1 = .ok a) : P (x.exec s) := by
  unfold Ensures at h
  rw [hok] at h
  exact h

section Sequence

variable {f : α → Proc σ ε β} {g : Unit → Proc σ ε β} {P : Except ε β → σ → Prop} {e : ε}

theorem ensures_read_bind {h : σ → α} : (read h >>= f).Ensures s P ↔ (f (h s)).Ensures s P := Iff.rfl

theorem Ensures.read {h : σ → α} (hf : (f (h s)).Ensures s P) : (read h >>= f).Ensures s P := hf

theorem Ensures.write {h : σ → σ} (hg : (g ()).Ensures (h s) P) : (write h >>= g).Ensures s P := hg

theorem Ensures.require [Decidable c] (herr : P (.error e) s) (h : c → (g ()).Ensures s P) :
    (require c e >>= g).Ensures s P :=
  ensures_bind.mpr (ensures_require.mpr ⟨h, fun _ => herr⟩)

theorem Ensures.orRaise {find : σ → Option α} (herr : P (.error e) s)
    (h : ∀ a, find s = some a → (f a).Ensures s P) : (orRaise find e >>= f).Ensures s P :=
  ensures_bind.mpr (ensures_orRaise.mpr ⟨h, fun _ => herr⟩)

theorem Ensures.lookup (hok : ∀ a, find s = .ok a → (f a).Ensures s P)
    (herr : ∀ e, find s = .error e → P (.error e) s) : (lookup find >>= f).Ensures s P := by
  rw [ensures_bind, ensures_lookup]
  cases hfind : find s with
  | ok a => exact hok a hfind
  | error e => exact herr e hfind

theorem Ensures.bind (hx : x.Ensures s Q)
    (hok : ∀ a s', Q (.ok a) s' → (f a).Ensures s' P) (herr : ∀ e s', Q (.error e) s' → P (.error e) s') :
    (x >>= f).Ensures s P :=
  ensures_bind.mpr (hx.mono fun r s' hr => by
    cases r with
    | ok a => exact hok a s' hr
    | error e => exact herr e s' hr)

theorem Ensures.forEach {I : σ → Prop} {f : α → Proc σ ε Unit} {xs : List α}
    (hf : ∀ x ∈ xs, ∀ s, I s → (f x).Ensures s fun r s' => r = .ok () ∧ I s') (hs : I s) :
    (forEach xs f).Ensures s fun r s' => r = .ok () ∧ I s' := by
  induction xs generalizing s with
  | nil => exact ⟨rfl, hs⟩
  | cons x xs ih =>
    refine (hf x List.mem_cons_self s hs).bind ?_ ?_
    · rintro a s' ⟨-, hs'⟩
      exact ih (fun y hy => hf y (List.mem_cons_of_mem x hy)) hs'
    · rintro e s' ⟨he, -⟩
      cases he

end Sequence

end Ensures

section Returns

/-- Every value that the call returns, from whatever store, meets `P`. -/
def Returns (P : α → Prop) (x : Proc σ ε α) : Prop := ∀ s a, (x s).1 = .ok a → P a

theorem returns_pure {P : α → Prop} {a : α} (h : P a) : (pure a : Proc σ ε α).Returns P := by
  rintro s b hb
  obtain rfl : a = b := Except.ok.inj hb
  exact h

theorem returns_bind {P : β → Prop} (h : ∀ a, (f a).Returns P) : (x >>= f).Returns P := by
  intro s b hb
  rcases hx : x s with ⟨_ | a, s'⟩
  · rw [bind_apply_of_error hx] at hb
    cases hb
  · rw [bind_apply_of_ok hx] at hb
    exact h a s' b hb

end Returns

section Within

variable {R : σ → σ → Prop}

def Within (R : σ → σ → Prop) (x : Proc σ ε α) : Prop := ∀ s, R s (x.exec s)

theorem within_iff_ensures : x.Within R ↔ ∀ s, x.Ensures s fun _ s' => R s s' := Iff.rfl

theorem Within.apply {s s' : σ} {r : Except ε α} (h : x.Within R) (hx : x s = (r, s')) : R s s' := by
  have hs : R s (x s).2 := h s
  rwa [hx] at hs

theorem Within.mono {R' : σ → σ → Prop} (h : x.Within R) (hR : ∀ s s', R s s' → R' s s') :
    x.Within R' := fun s => hR _ _ (h s)

theorem within_pure [Std.Refl R] (a : α) : (pure a : Proc σ ε α).Within R := fun s => refl_of R s

theorem within_raise [Std.Refl R] : (raise e : Proc σ ε α).Within R := fun s => refl_of R s

theorem within_read [Std.Refl R] {f : σ → α} : (read f : Proc σ ε α).Within R := fun s => refl_of R s

theorem within_write {f : σ → σ} (h : ∀ s, R s (f s)) : (write f : Proc σ ε Unit).Within R := h

theorem within_orRaise [Std.Refl R] {f : σ → Option α} : (orRaise f e : Proc σ ε α).Within R :=
  within_iff_ensures.mpr fun s => ensures_orRaise.mpr ⟨fun _ _ => refl_of R s, fun _ => refl_of R s⟩

theorem within_lookup [Std.Refl R] {f : σ → Except ε α} : (lookup f).Within R := fun s => refl_of R s

theorem within_require [Std.Refl R] [Decidable c] : (require c e : Proc σ ε Unit).Within R :=
  within_iff_ensures.mpr fun s => ensures_require.mpr ⟨fun _ => refl_of R s, fun _ => refl_of R s⟩

theorem within_whenever [Std.Refl R] [Decidable c] {x : Proc σ ε Unit} (h : c → x.Within R) : (whenever c x).Within R :=
  within_iff_ensures.mpr fun s => ensures_whenever.mpr ⟨fun hc => h hc s, fun _ => refl_of R s⟩

theorem within_bind [IsTrans σ R] (hx : x.Within R) (hf : ∀ a, (f a).Within R) : (x >>= f).Within R := by
  rw [within_iff_ensures]
  intro s
  rw [ensures_bind]
  have hstep := hx s
  unfold Ensures
  unfold exec at hstep
  rcases hxs : x s with ⟨_ | a, s'⟩ <;> rw [hxs] at hstep
  · exact hstep
  · exact trans_of R hstep (hf a s')

section Sequence

variable [Std.Refl R] [IsTrans σ R] {f : α → Proc σ ε β} (h : ∀ a, (f a).Within R)

include h

theorem Within.read {get : σ → α} : (read get >>= f).Within R := within_bind within_read h

theorem Within.orRaise {find : σ → Option α} : (orRaise find e >>= f).Within R :=
  within_bind within_orRaise h

theorem Within.lookup : (lookup find >>= f).Within R :=
  within_bind within_lookup h

end Sequence

theorem Within.require [Std.Refl R] [IsTrans σ R] [Decidable c] {f : Unit → Proc σ ε β}
    (h : ∀ u, (f u).Within R) : (require c e >>= f).Within R :=
  within_bind within_require h

theorem within_rescue [IsTrans σ R] (hx : x.Within R)
    (hh : ∀ e, (handler e).Within R) : (rescue x handler).Within R := by
  rw [within_iff_ensures]
  intro s
  rw [ensures_rescue]
  have hstep := hx s
  unfold Ensures
  unfold exec at hstep
  rcases hxs : x s with ⟨e | a, s'⟩ <;> rw [hxs] at hstep
  · exact trans_of R hstep (hh e s')
  · exact hstep

theorem within_forEach [Std.Refl R] [IsTrans σ R] {f : β → Proc σ ε Unit} {bs : List β}
    (h : ∀ b ∈ bs, (f b).Within R) : (forEach bs f).Within R := by
  induction bs with
  | nil => exact within_pure ()
  | cons b bs ih =>
    have hb := h b List.mem_cons_self
    exact within_bind hb fun _ => ih fun b' hb' => h b' (List.mem_cons_of_mem b hb')

def Preserves (I : σ → Prop) (s s' : σ) : Prop := I s → I s'

instance (I : σ → Prop) : Std.Refl (Preserves I) := ⟨fun _ h => h⟩

instance (I : σ → Prop) : IsTrans σ (Preserves I) := ⟨fun _ _ _ h h' hs => h' (h hs)⟩

end Within

end Proc
