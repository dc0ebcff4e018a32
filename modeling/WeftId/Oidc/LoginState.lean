import WeftId.Lib.Contest
import WeftId.Lib.Text

/-!
The started sign-ins at upstream providers, for one `state` value.  A sign-in is taken by a read and a delete,
and a posted callback writes the entry back after a read of its own, so the entry can be read twice or come back.
-/

namespace WeftId

open List Run

structure LoginState where
  tenantId : Text
  connectionId : Text
  nonce : Text
  codeVerifier : Text
  entry : Text
  callbackFields : Option (List (Text × Text)) := none
  deriving DecidableEq

def loginStateTtl : Nat := 600

/-- The two cache entries of one `state` value, with the times they expire at. -/
structure StateCache where
  now : Nat
  entry : Option (LoginState × Nat)
  posted : Option Nat

def loadLoginState (state : Text) (cache : StateCache) : Option LoginState :=
  if state = [] then none else (cache.entry.filter (cache.now < ·.2)).map (·.1)

def callbackFields : List Text := ["code", "error", "user"]

/-- A call of `take_login_state` or a posted callback, by what it does next. -/
inductive LoginCall
  | take
  | delete (loginState : LoginState)
  | taken (result : Option LoginState)
  | post (tenantId connectionId : Text) (fields : List (Text × Text))
  | mark (loginState : LoginState) (fields : List (Text × Text))
  | attach (loginState : LoginState) (fields : List (Text × Text))
  | attached (success : Bool)
  deriving DecidableEq

namespace LoginCall

def act (state : Text) (cache : StateCache) : LoginCall → StateCache × LoginCall
  | .take =>
    match loadLoginState state cache with
    | none => (cache, .taken none)
    | some loginState => (cache, .delete loginState)
  | .delete loginState => ({ cache with entry := none }, .taken (some loginState))
  | .post tenantId connectionId fields =>
    match loadLoginState state cache with
    | none => (cache, .attached false)
    | some loginState =>
      if loginState.tenantId ≠ tenantId ∨ loginState.connectionId ≠ connectionId ∨ loginState.callbackFields ≠ none
      then (cache, .attached false) else (cache, .mark loginState fields)
  | .mark loginState fields =>
    if ∃ expiry ∈ cache.posted, cache.now < expiry then (cache, .attached false)
    else ({ cache with posted := some (cache.now + loginStateTtl) }, .attach loginState fields)
  | .attach loginState fields =>
    let kept := fields.filter fun field => field.1 ∈ callbackFields ∧ field.2 ≠ []
    ({ cache with entry := some ({ loginState with callbackFields := some kept }, cache.now + loginStateTtl) },
      .attached true)
  | call => (cache, call)

def wait (cache : StateCache) (seconds : Nat) : StateCache := { cache with now := cache.now + seconds }

abbrev step (state : Text) : Contest StateCache LoginCall → ContestEvent Nat → Contest StateCache LoginCall :=
  Contest.step (act state) wait

def Begins : LoginCall → Prop
  | .take => True
  | .post .. => True
  | _ => False

def Holds : LoginCall → Prop
  | .delete _ => True
  | .taken (some _) => True
  | _ => False

def between : LoginCall → Bool
  | .delete _ => true
  | _ => false

/-- What the next step of a call needs: a sign-in is read while no other call stands between its read and its delete,
and the posted fields are stored while the sign-in is still there. -/
def Ready (state : Text) (x : Contest StateCache LoginCall) : LoginCall → Prop
  | .take => ∀ other ∈ x.stages, other.between = false
  | .attach _ _ => (loadLoginState state x.store).isSome
  | _ => True

instance {state : Text} {x : Contest StateCache LoginCall} (call : LoginCall) : Decidable (Ready state x call) := by
  unfold Ready
  split <;> infer_instance

def Orderly (state : Text) (x : Contest StateCache LoginCall) : ContestEvent Nat → Prop
  | .advance i => ∀ call ∈ x.stages[i]?, Ready state x call
  | .other _ => True

instance {state : Text} {x : Contest StateCache LoginCall} : ∀ event, Decidable (Orderly state x event)
  | .advance _ => inferInstanceAs (Decidable (∀ call ∈ _, _))
  | .other _ => isTrue trivial

structure TakenOnce (state : Text) (x : Contest StateCache LoginCall) : Prop where
  sole : Contest.Sole Holds x
  gone : ∀ loginState, .taken (some loginState) ∈ x.stages → loadLoginState state x.store = none

variable {state : Text} {x : Contest StateCache LoginCall} {event : ContestEvent Nat} {cache : StateCache} {i : Nat}
  {call next : LoginCall}

theorem loadLoginState_wait {seconds : Nat} (h : loadLoginState state cache = none) :
    loadLoginState state (wait cache seconds) = none := by
  unfold loadLoginState at h ⊢
  split_ifs at h ⊢
  · rfl
  · rw [Option.map_eq_none_iff, Option.filter_eq_none_iff] at h ⊢
    intro e he hlater
    have hlive : cache.now + seconds < e.2 := of_decide_eq_true hlater
    exact h e he (decide_eq_true (by omega))

theorem TakenOnce.set (h : TakenOnce state x) (hi : x.stages[i]? = some call)
    (hfirst : ∀ (j : Nat) (other : LoginCall), x.stages[j]? = some other → j ≠ i → next.Holds → ¬ other.Holds)
    (hgone : ∀ loginState, .taken (some loginState) ∈ x.stages ∨ .taken (some loginState) = next →
      loadLoginState state cache = none) : TakenOnce state { store := cache, stages := x.stages.set i next } :=
  ⟨h.sole.set hi hfirst, fun loginState hmem => hgone loginState (mem_or_eq_of_mem_set hmem)⟩

theorem TakenOnce.set_quiet (h : TakenOnce state x) (hi : x.stages[i]? = some call) (hnext : ¬ next.Holds)
    (hload : loadLoginState state cache = loadLoginState state x.store) :
    TakenOnce state { store := cache, stages := x.stages.set i next } := by
  refine h.set hi (fun _ _ _ _ hholds => absurd hholds hnext) fun loginState htaken => ?_
  rcases htaken with hold | rfl
  · exact hload.trans (h.gone loginState hold)
  · exact absurd trivial hnext

theorem TakenOnce.step (h : TakenOnce state x) (horderly : Orderly state x event) :
    TakenOnce state (step state x event) := by
  unfold LoginCall.step
  refine Contest.step_cases h (fun seconds _ => ⟨h.sole, fun l hl => loadLoginState_wait (h.gone l hl)⟩) ?_
  rintro i call rfl hi
  have hready := horderly call hi
  cases call with
  | take =>
    simp only [act]
    cases hload : loadLoginState state x.store with
    | none => exact h.set_quiet hi id rfl
    | some =>
      refine h.set hi (fun j other hj _ _ hother => ?_) fun l htaken => ?_
      · cases other with
        | delete l => cases hready _ (mem_of_getElem? hj)
        | taken result =>
          cases result with
          | none => exact hother
          | some l => simp [h.gone l (mem_of_getElem? hj)] at hload
        | _ => exact hother
      · rcases htaken with hold | hnew
        · exact h.gone l hold
        · cases hnew
  | delete =>
    refine h.set hi (fun j other hj hne _ hother => hne (h.sole j i _ _ hj hi hother trivial)) fun _ _ => ?_
    simp [loadLoginState, act]
  | taken result =>
    refine h.set hi (fun j other hj hne hholds hother => hne (h.sole j i _ _ hj hi hother hholds)) fun l htaken => ?_
    exact h.gone l (htaken.elim id fun hsame => hsame ▸ mem_of_getElem? hi)
  | post =>
    simp only [act]
    split
    · exact h.set_quiet hi id rfl
    · split_ifs <;> exact h.set_quiet hi id rfl
  | mark =>
    simp only [act]
    split_ifs <;> exact h.set_quiet hi id rfl
  | attach =>
    refine h.set hi (fun _ _ _ _ hholds => hholds.elim) fun l htaken => ?_
    rcases htaken with hold | hnew
    · have hsome : (loadLoginState state x.store).isSome := hready
      simp [h.gone l hold] at hsome
    · cases hnew
  | attached => exact h.set_quiet hi id rfl

theorem takenOnce_of_begins (h : ∀ call ∈ x.stages, call.Begins) : TakenOnce state x where
  sole i _ call _ hi _ hholds := by
    have hbegins := h call (mem_of_getElem? hi)
    cases call <;> first | exact hholds.elim | exact hbegins.elim
  gone l hmem := (h _ hmem).elim

/-- In a run in which every sign-in is read with no other call between its read and its delete, and posted fields are
stored only while the sign-in is there, one call at most returns it, and so one set of posted fields at most. -/
theorem sign_in_taken_once {events : List (ContestEvent Nat)} (hbegins : ∀ call ∈ x.stages, call.Begins)
    (h : Along (step state) (Orderly state) x events) {i j : Nat} {l l' : LoginState}
    (hi : (run (step state) x events).stages[i]? = some (.taken (some l)))
    (hj : (run (step state) x events).stages[j]? = some (.taken (some l'))) : i = j ∧ l = l' := by
  have hrun := invariant_of_along (fun _ _ hx hstep => TakenOnce.step hx hstep) (takenOnce_of_begins hbegins) h
  obtain rfl : i = j := hrun.sole i j _ _ hi hj trivial trivial
  rw [hi] at hj
  cases hj
  exact ⟨rfl, rfl⟩

def started : LoginState := { tenantId := [], connectionId := [], nonce := [], codeVerifier := [], entry := [] }

def twoTakes : Contest StateCache LoginCall where
  store := { now := 0, entry := some (started, 600), posted := none }
  stages := [.take, .take]

theorem sign_in_taken_in_turn :
    (run (step "s") twoTakes [.advance 0, .advance 0, .advance 1]).stages = [.taken (some started), .taken none] ∧
      0 = 0 ∧ started = started := by
  have hstages : (run (step "s") twoTakes [.advance 0, .advance 0, .advance 1]).stages =
      [.taken (some started), .taken none] := by decide +kernel
  refine ⟨hstages, sign_in_taken_once (by simp [twoTakes, Begins]) ?_ (congrArg (·[0]?) hstages)
    (congrArg (·[0]?) hstages)⟩
  decide +kernel

theorem sign_in_taken_twice : (run (step "s") twoTakes [.advance 0, .advance 1, .advance 0, .advance 1]).stages =
    [.taken (some started), .taken (some started)] := by decide +kernel

end LoginCall

end WeftId
