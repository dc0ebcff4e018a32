import Mathlib.Algebra.GroupWithZero.Nat
import WeftId.Lib.Contest
import WeftId.Lib.Fiber
import WeftId.Lib.Text

/-!
Rate limits on counters in Memcached.  A call increments the counter of its key, creates it if it is missing,
and increments it again if another call was faster.  An increment without an answer lets the call pass, and the
client also gives no answer for a key that Memcached does not accept.  A client that does not wait for replies, as
the one of the repository, takes every creation for its own.
-/

namespace WeftId

open List Proc Run Fiber

structure CounterCache where
  counters : Text → Option Nat := fun _ => none

/-- What the limiter gets from its surroundings: `str.format` with keyword arguments, the keys that Memcached
accepts, and whether the client waits for the reply to an `add`. -/
structure LimiterEnv where
  format : Text → List (Text × Text) → Except String Text
  accepts : Text → Bool
  waits : Bool

structure PreventRequest where
  pattern : Text
  limit : Nat
  timespan : Nat
  kwargs : List (Text × Text) := []
  deriving DecidableEq

inductive PreventError
  | rateLimit (message : String) (limit timespan retryAfter : Nat)
  | exception (name : String)

namespace RateLimiter

inductive CacheStep
  | count
  | create
  | recount
  deriving DecidableEq

abbrev CacheCall (α : Type) := Proc CounterCache PreventError α

abbrev Limited (α : Type) := Fiber CacheStep CounterCache PreventError α

def keyPrefix : Text := "ratelimit:"

section Prevent

variable (env : LimiterEnv)

/-- An exception of the client, as for a key that is not accepted, is logged and answered with none. -/
def incr (key : Text) : CacheCall (Option Nat) := fun cache =>
  match cache.counters key with
  | some count =>
    if env.accepts key then (.ok (some (count + 1)), ⟨Function.update cache.counters key (some (count + 1))⟩)
    else (.ok none, cache)
  | none => (.ok none, cache)

/-- The answer for a counter that exists is false, if the client waits for it. -/
def add (key : Text) (value : Nat) : CacheCall Bool := fun cache =>
  if env.accepts key then
    match cache.counters key with
    | some _ => (.ok (!env.waits), cache)
    | none => (.ok true, ⟨Function.update cache.counters key (some value)⟩)
  else (.ok false, cache)

def buildKey (pattern : Text) (kwargs : List (Text × Text)) : Except String Text :=
  (env.format pattern kwargs).map (keyPrefix ++ ·)

def increment (key : Text) : Limited (Option Nat) := do
  let count ← atomic .count (incr env key)
  match count with
  | some count => pure (some count)
  | none => do
    let added ← atomic .create (add env key 1)
    if added then pure (some 1) else atomic .recount (incr env key)

def judge (request : PreventRequest) : Option Nat → Except PreventError Nat
  | none => .ok 0
  | some count =>
    if request.limit < count then
      .error (.rateLimit "Too many requests. Please try again later." request.limit request.timespan request.timespan)
    else .ok count

def prevent (request : PreventRequest) : Limited Nat :=
  match buildKey env request.pattern request.kwargs with
  | .error e => Fiber.raise (.exception e)
  | .ok key => do
    let count ← increment env key
    .done (judge request count)

end Prevent

/-- A call of `prevent` in flight. -/
structure LimitCall where
  request : PreventRequest
  fiber : Limited Nat

def LimitCall.act (cache : CounterCache) (call : LimitCall) : CounterCache × LimitCall :=
  ((call.fiber.act cache).1, { call with fiber := (call.fiber.act cache).2 })

def LimitCall.returned (call : LimitCall) : Option Nat := call.fiber.result.bind Except.toOption

abbrev step : Contest CounterCache LimitCall → ContestEvent Empty → Contest CounterCache LimitCall :=
  Contest.step LimitCall.act fun cache _ => cache

def start (env : LimiterEnv) (cache : CounterCache) (requests : List PreventRequest) :
    Contest CounterCache LimitCall where
  store := cache
  stages := requests.map fun request => ⟨request, prevent env request⟩

def passes (request : PreventRequest) (x : Contest CounterCache LimitCall) : Nat :=
  x.stages.countP fun call => call.request = request ∧ call.returned.isSome

variable {n : Nat}

section Steps

variable {env : LimiterEnv} {request : PreventRequest} {key : Text} {cache : CounterCache}

def creating (env : LimiterEnv) (request : PreventRequest) (key : Text) : Limited Nat := do
  let added ← atomic .create (add env key 1)
  let count ← if added then pure (some 1) else atomic .recount (incr env key)
  .done (judge request count)

def recounting (env : LimiterEnv) (request : PreventRequest) (key : Text) : Limited Nat := do
  let count ← atomic .recount (incr env key)
  .done (judge request count)

def counted (cache : CounterCache) (key : Text) : Nat := (cache.counters key).getD 0 + 1

def increased (cache : CounterCache) (key : Text) : CounterCache :=
  ⟨Function.update cache.counters key (some (counted cache key))⟩

theorem incr_of_counter (haccepts : env.accepts key = true) (h : cache.counters key = some n) :
    incr env key cache = (.ok (some (counted cache key)), increased cache key) := by
  simp [incr, increased, counted, h, haccepts]

theorem incr_of_none (h : env.accepts key = true → cache.counters key = none) :
    incr env key cache = (.ok none, cache) := by
  unfold incr
  cases hcounter : cache.counters key with
  | none => rfl
  | some n =>
    have haccepts : ¬ env.accepts key = true := fun haccepts => by simp [h haccepts] at hcounter
    simp [haccepts]

theorem add_of_none (haccepts : env.accepts key = true) (h : cache.counters key = none) :
    add env key 1 cache = (.ok true, increased cache key) := by
  simp [add, increased, counted, h, haccepts]

theorem add_of_counter (haccepts : env.accepts key = true) (h : cache.counters key = some n) :
    add env key 1 cache = (.ok (!env.waits), cache) := by
  simp [add, h, haccepts]

theorem prevent_eq (hkey : buildKey env request.pattern request.kwargs = .ok key) :
    prevent env request = atomic .count (incr env key) >>= fun count =>
      match count with
      | some count => .done (judge request (some count))
      | none => creating env request key := by
  simp only [prevent, hkey, increment, bind_bind]
  congr 1
  funext count
  cases count with
  | some count => rfl
  | none =>
    simp only [bind_bind]
    congr 1
    funext added
    cases added <;> rfl

/-- What one step of a call does: nothing new, or one more on the counter with the call judged by it. -/
inductive Moves (env : LimiterEnv) (request : PreventRequest) (key : Text) (cache : CounterCache) :
    Limited Nat → CounterCache × Limited Nat → Prop
  | finished (result : Except PreventError Nat) : Moves env request key cache (.done result) (cache, .done result)
  | incremented {x : Limited Nat} (haccepts : env.accepts key = true) :
    Moves env request key cache x
      (increased cache key, .done (judge request (some (counted cache key))))
  | missed (h : env.accepts key = true → cache.counters key = none) :
    Moves env request key cache (prevent env request) (cache, creating env request key)
  | late (h : env.accepts key = true → (cache.counters key).isSome) :
    Moves env request key cache (creating env request key) (cache, recounting env request key)
  | unanswered (h : env.accepts key = true → cache.counters key = none) :
    Moves env request key cache (recounting env request key) (cache, .done (.ok 0))
  | assumed (hcounter : cache.counters key ≠ none) (hwaits : env.waits = false) :
    Moves env request key cache (creating env request key) (cache, .done (judge request (some 1)))

theorem moves_incr {site : CacheStep} {x : Limited Nat} {next : Option Nat → Limited Nat}
    (hx : x = atomic site (incr env key) >>= next) (hsome : ∀ n, next (some n) = .done (judge request (some n)))
    (hnone : (env.accepts key = true → cache.counters key = none) → Moves env request key cache x (cache, next none)) :
    Moves env request key cache x (x.act cache) := by
  by_cases h : env.accepts key = true → cache.counters key = none
  · have hact : x.act cache = (cache, next none) := hx ▸ act_atomic_bind_of_ok (incr_of_none h)
    rw [hact]
    exact hnone h
  · push Not at h
    obtain ⟨haccepts, hcounter⟩ := h
    obtain ⟨n, hn⟩ := Option.ne_none_iff_exists'.mp hcounter
    have hact : x.act cache = (increased cache key, next (some (counted cache key))) :=
      hx ▸ act_atomic_bind_of_ok (incr_of_counter haccepts hn)
    rw [hact, hsome]
    exact .incremented haccepts

theorem moves_prevent (hkey : buildKey env request.pattern request.kwargs = .ok key) :
    Moves env request key cache (prevent env request) ((prevent env request).act cache) :=
  moves_incr (prevent_eq hkey) (fun _ => rfl) .missed

theorem moves_creating : Moves env request key cache (creating env request key)
    ((creating env request key).act cache) := by
  by_cases haccepts : env.accepts key = true
  · cases hcounter : cache.counters key with
    | none =>
      have hact : (creating env request key).act cache = (increased cache key, .done (judge request (some 1))) :=
        act_atomic_bind_of_ok (add_of_none haccepts hcounter)
      have hone : counted cache key = 1 := by simp [counted, hcounter]
      rw [hact, ← hone]
      exact .incremented haccepts
    | some n =>
      have hadd := add_of_counter haccepts hcounter
      cases hwaits : env.waits with
      | true =>
        rw [hwaits] at hadd
        have hact : (creating env request key).act cache = (cache, recounting env request key) :=
          act_atomic_bind_of_ok hadd
        rw [hact]
        exact .late fun _ => by simp [hcounter]
      | false =>
        rw [hwaits] at hadd
        have hact : (creating env request key).act cache = (cache, .done (judge request (some 1))) :=
          act_atomic_bind_of_ok hadd
        rw [hact]
        exact .assumed (by simp [hcounter]) hwaits
  · have hadd : add env key 1 cache = (.ok false, cache) := by simp [add, haccepts]
    have hact : (creating env request key).act cache = (cache, recounting env request key) := act_atomic_bind_of_ok hadd
    rw [hact]
    exact .late fun h => absurd h haccepts

theorem moves_recounting :
    Moves env request key cache (recounting env request key) ((recounting env request key).act cache) :=
  moves_incr rfl (fun _ => rfl) fun h => .unanswered h

end Steps

section Runs

variable {env : LimiterEnv} {request : PreventRequest} {key own : Text} {cache : CounterCache} {call : LimitCall}
  {x : Contest CounterCache LimitCall} {y : CounterCache × Limited Nat} {count : Nat}

def Stands (env : LimiterEnv) (call : LimitCall) : Prop :=
  match buildKey env call.request.pattern call.request.kwargs with
  | .error e => call.fiber = .done (.error (.exception e))
  | .ok key => call.fiber = prevent env call.request ∨ call.fiber = creating env call.request key ∨
      call.fiber = recounting env call.request key ∨ ∃ result, call.fiber = .done result

/-- The count of a call on the counter of `key` that has returned. -/
def countOn (env : LimiterEnv) (key : Text) (call : LimitCall) : Option Nat :=
  if buildKey env call.request.pattern call.request.kwargs = .ok key then call.returned else none

structure Counts (env : LimiterEnv) (key : Text) (cache : CounterCache) (call : LimitCall) : Prop where
  stands : Stands env call
  alive : buildKey env call.request.pattern call.request.kwargs = .ok key →
    call.fiber.label = some .recount → (cache.counters key).isSome
  bounded : ∀ count, countOn env key call = some count →
    0 < count ∧ count ≤ call.request.limit ∧ ∃ n, cache.counters key = some n ∧ count ≤ n

theorem moves_of_stands (cache : CounterCache) (h : Stands env call)
    (hkey : buildKey env call.request.pattern call.request.kwargs = .ok own) :
    Moves env call.request own cache call.fiber (call.fiber.act cache) := by
  simp only [Stands, hkey] at h
  rcases h with h | h | h | ⟨result, h⟩
  · rw [h]
    exact moves_prevent hkey
  · rw [h]
    exact moves_creating
  · rw [h]
    exact moves_recounting
  · rw [h]
    exact .finished result

theorem increased_counters_self : (increased cache key).counters key = some (counted cache key) :=
  Function.update_self ..

theorem le_increased (h : cache.counters key = some n) :
    ∃ n', (increased cache own).counters key = some n' ∧ n ≤ n' := by
  by_cases hown : key = own
  · subst hown
    refine ⟨counted cache key, increased_counters_self, ?_⟩
    simp [counted, h]
  · exact ⟨n, (Function.update_of_ne hown ..).trans h, le_refl n⟩

theorem Moves.le {x : Limited Nat} (h : Moves env request own cache x y)
    (hn : cache.counters key = some n) : ∃ n', y.1.counters key = some n' ∧ n ≤ n' := by
  cases h with
  | incremented => exact le_increased hn
  | _ => exact ⟨n, hn, le_refl n⟩

theorem Counts.other {cache' : CounterCache} (h : Counts env key cache call)
    (hle : ∀ n, cache.counters key = some n → ∃ n', cache'.counters key = some n' ∧ n ≤ n') :
    Counts env key cache' call where
  stands := h.stands
  alive hkey hfiber := by
    obtain ⟨n, hn⟩ := Option.isSome_iff_exists.mp (h.alive hkey hfiber)
    obtain ⟨n', hn', -⟩ := hle n hn
    simp [hn']
  bounded count hcount := by
    obtain ⟨hpos, hlimit, n, hn, hle'⟩ := h.bounded count hcount
    obtain ⟨n', hn', hge⟩ := hle n hn
    exact ⟨hpos, hlimit, n', hn', le_trans hle' hge⟩

theorem countOn_ne_some {x : Limited Nat} (h : x.result = none) : countOn env key ⟨request, x⟩ ≠ some count := by
  unfold countOn LimitCall.returned
  rw [h]
  split <;> nofun

theorem judge_eq_ok (h : judge request (some n) = .ok count) : count = n ∧ n ≤ request.limit := by
  simp only [judge] at h
  split at h
  · cases h
  · exact ⟨(Except.ok.inj h).symm, not_lt.mp ‹_›⟩

theorem countOn_counted (h : countOn env key ⟨request, .done (judge request (some n))⟩ = some count) :
    buildKey env request.pattern request.kwargs = .ok key ∧ count = n ∧ n ≤ request.limit := by
  unfold countOn at h
  split at h
  · rename_i hkey
    refine ⟨hkey, ?_⟩
    cases hjudge : judge request (some n) with
    | error e => simp [LimitCall.returned, result, hjudge, Except.toOption] at h
    | ok c =>
      have hc : c = count := by simpa [LimitCall.returned, result, hjudge, Except.toOption] using h
      rw [← hc]
      exact judge_eq_ok hjudge
  · cases h

/-- The client waits, or no counter is there when a call on the key creates it. -/
def AddsAlone (env : LimiterEnv) (key : Text) (x : Contest CounterCache LimitCall) : ContestEvent Empty → Prop
  | .advance i => ∀ call ∈ x.stages[i]?, buildKey env call.request.pattern call.request.kwargs = .ok key →
      call.fiber.label = some .create → env.waits = true ∨ x.store.counters key = none
  | .other o => o.elim

instance (x : Contest CounterCache LimitCall) : DecidablePred (AddsAlone env key x)
  | .advance i => inferInstanceAs (Decidable (∀ call ∈ x.stages[i]?, _))
  | .other o => o.elim

section Counter

variable {x : Limited Nat} (hkey : buildKey env request.pattern request.kwargs = .ok key)
  (haccepts : env.accepts key = true) (h : Moves env request key cache x y)
  (halone : x.label = some .create → env.waits = true ∨ cache.counters key = none)
  (hx : Counts env key cache ⟨request, x⟩)

include hkey haccepts h halone hx

/-- A step of a call that stands as it should leaves it so, and a count that it returns is new. -/
theorem Moves.counts : Counts env key y.1 ⟨request, y.2⟩ ∧ ∀ count, countOn env key ⟨request, y.2⟩ = some count →
    countOn env key ⟨request, x⟩ = some count ∨ count = counted cache key := by
  cases h with
  | finished result => exact ⟨hx, fun count hcount => .inl hcount⟩
  | incremented _ =>
    refine ⟨⟨by simp [Stands, hkey], nofun, fun count hcount => ?_⟩,
      fun count hcount => .inr (countOn_counted hcount).2.1⟩
    obtain ⟨-, rfl, hlimit⟩ := countOn_counted hcount
    exact ⟨Nat.succ_pos _, hlimit, _, increased_counters_self, le_refl _⟩
  | missed hnone =>
    refine ⟨⟨by simp [Stands, hkey], nofun, ?_⟩, ?_⟩
    all_goals exact fun count hcount => absurd hcount (countOn_ne_some rfl)
  | late hsome =>
    refine ⟨⟨by simp [Stands, hkey], fun _ _ => hsome haccepts, ?_⟩, ?_⟩
    all_goals exact fun count hcount => absurd hcount (countOn_ne_some rfl)
  | unanswered hnone =>
    have halive := hx.alive hkey rfl
    simp [hnone haccepts] at halive
  | assumed hcounter hwaits =>
    have halone := halone rfl
    simp [hcounter, hwaits] at halone

end Counter

theorem Moves.stands {x : Limited Nat}
    (hkey : buildKey env request.pattern request.kwargs = .ok own) (h : Moves env request own cache x y) :
    Stands env ⟨request, y.2⟩ := by
  cases h <;> simp [Stands, hkey]

structure Sound (env : LimiterEnv) (key : Text) (x : Contest CounterCache LimitCall) : Prop where
  calls : ∀ (j : Nat) (call : LimitCall), x.stages[j]? = some call → Counts env key x.store call
  distinct : Contest.Distinct (countOn env key) x

theorem Sound.advance (haccepts : env.accepts key = true) (h : Sound env key x) {i : Nat}
    (hi : x.stages[i]? = some call) (halone : AddsAlone env key x (.advance i)) :
    Sound env key { store := (call.act x.store).1, stages := x.stages.set i (call.act x.store).2 } := by
  have hcall := h.calls i call hi
  obtain ⟨request, fiber⟩ := call
  cases hkey : buildKey env request.pattern request.kwargs with
  | error e =>
    have hdone : fiber = .done (.error (.exception e)) := by simpa [Stands, hkey] using hcall.stands
    subst hdone
    have hset : x.stages.set i ⟨request, .done (.error (.exception e))⟩ = x.stages := by
      obtain ⟨hlt, hget⟩ := List.getElem?_eq_some_iff.mp hi
      rw [← hget]
      exact set_getElem_self hlt
    change Sound env key { x with stages := x.stages.set i ⟨request, .done (.error (.exception e))⟩ }
    rw [hset]
    exact h
  | ok own =>
    have hmoves := moves_of_stands x.store hcall.stands hkey
    have hstands := hmoves.stands hkey
    refine ⟨fun j other hj => ?_, h.distinct.set hi fun count hcount j other hj hne hother => ?_⟩
    · rcases Contest.stage_after hi hj with ⟨-, rfl⟩ | ⟨-, hold⟩
      · by_cases hown : own = key
        · subst hown
          exact (hmoves.counts hkey haccepts (halone _ hi hkey) hcall).1
        · refine ⟨hstands, fun hkey' => ?_, fun count hcount => ?_⟩
          · exact absurd (Except.ok.inj (hkey.symm.trans hkey')) hown
          · have hne : ¬ buildKey env request.pattern request.kwargs = .ok key := by simpa [hkey] using hown
            simp [countOn, LimitCall.act, hne] at hcount
      · exact (h.calls j other hold).other fun n hn => hmoves.le hn
    · have hmine : buildKey env request.pattern request.kwargs = .ok key := by
        by_contra hnot
        simp [countOn, LimitCall.act, hnot] at hcount
      obtain rfl : own = key := Except.ok.inj (hkey.symm.trans hmine)
      rcases (hmoves.counts hkey haccepts (halone _ hi hkey) hcall).2 count hcount with hbefore | rfl
      · exact hne (h.distinct j i _ _ count hj hi hother hbefore)
      · obtain ⟨-, -, n, hn, hle⟩ := (h.calls j other hj).bounded _ hother
        simp only [counted, hn, Option.getD_some] at hle
        omega

theorem sound_start (env : LimiterEnv) (key : Text) (cache : CounterCache) (requests : List PreventRequest) :
    Sound env key (start env cache requests) := by
  have hnone : ∀ request, countOn env key ⟨request, prevent env request⟩ = none := by
    intro request
    unfold countOn
    split
    · rename_i hkey
      rw [prevent_eq hkey]
      rfl
    · rfl
  have hcall : ∀ (j : Nat) call, (start env cache requests).stages[j]? = some call →
      call.fiber = prevent env call.request := by
    intro j call hj
    obtain ⟨request, -, rfl⟩ := mem_map.mp (mem_of_getElem? hj)
    rfl
  refine ⟨fun j call hj => ⟨?_, fun hkey hlabel => ?_, fun count hcount => ?_⟩, fun i j t u count hi hj ht hu => ?_⟩
  · have hfiber := hcall j call hj
    unfold Stands
    cases hkey : buildKey env call.request.pattern call.request.kwargs with
    | error e => simp [hfiber, prevent, hkey, Fiber.raise]
    | ok own => simp [hfiber]
  · rw [hcall j call hj, prevent_eq hkey] at hlabel
    cases hlabel
  · obtain ⟨request, fiber⟩ := call
    obtain rfl : fiber = prevent env request := hcall j _ hj
    rw [hnone] at hcount
    cases hcount
  · obtain ⟨request, fiber⟩ := t
    obtain rfl : fiber = prevent env request := hcall i _ hi
    rw [hnone] at ht
    cases ht

theorem sound_run {requests : List PreventRequest} {events : List (ContestEvent Empty)}
    (haccepts : env.accepts key = true) (halone : Along step (AddsAlone env key) (start env cache requests) events) :
    Sound env key (run step (start env cache requests) events) := by
  refine invariant_of_along (fun x event h hevent => ?_) (sound_start env key cache requests) halone
  unfold step
  refine Contest.step_cases h (fun o _ => o.elim) ?_
  rintro i call rfl hi
  exact h.advance haccepts hi hevent

/-- No two calls on a key return the same count, and none more than its limit or than was counted, unless a call
took a counter for its own that another one had created. -/
theorem returned_counts_distinct (haccepts : env.accepts key = true) (cache : CounterCache)
    (requests : List PreventRequest) (events : List (ContestEvent Empty))
    (halone : Along step (AddsAlone env key) (start env cache requests) events) :
    let x := run step (start env cache requests) events
    Contest.Distinct (countOn env key) x ∧ ∀ call ∈ x.stages, ∀ count ∈ countOn env key call,
      0 < count ∧ count ≤ call.request.limit ∧ ∃ n ∈ x.store.counters key, count ≤ n := by
  intro x
  have h : Sound env key x := sound_run haccepts halone
  refine ⟨h.distinct, fun call hmem => ?_⟩
  obtain ⟨j, hj⟩ := mem_iff_getElem?.mp hmem
  exact (h.calls j call hj).bounded

theorem Sound.passes_le (h : Sound env key x) (hkey : buildKey env request.pattern request.kwargs = .ok key) :
    passes request x ≤ request.limit := by
  let value : LimitCall → Option Nat := fun call => if call.request = request then call.returned else none
  have hvalue : ∀ call count, value call = some count → call.request = request ∧ countOn env key call = some count := by
    intro call count hcount
    simp only [value] at hcount
    split at hcount
    · rename_i hrequest
      refine ⟨hrequest, ?_⟩
      rw [countOn, hrequest, if_pos hkey]
      exact hcount
    · cases hcount
  have hdistinct : Contest.Distinct value x := fun i j t u count hi hj ht hu =>
    h.distinct i j t u count hi hj (hvalue t count ht).2 (hvalue u count hu).2
  have hlength := hdistinct.length_le (range' 1 request.limit) fun call hmem count hcount => by
    obtain ⟨hrequest, hcount⟩ := hvalue call count hcount
    obtain ⟨j, hj⟩ := mem_iff_getElem?.mp hmem
    obtain ⟨hpos, hlimit, -⟩ := (h.calls j call hj).bounded count hcount
    rw [hrequest] at hlimit
    rw [mem_range'_1]
    omega
  have hpasses : passes request x = (x.stages.filterMap value).length := by
    rw [length_filterMap_eq_countP]
    apply countP_congr
    intro call _
    simp only [value]
    split <;> simp_all
  rw [hpasses]
  simpa using hlength

theorem passes_of_error {e : String} (hkey : buildKey env request.pattern request.kwargs = .error e)
    {requests : List PreventRequest} {events : List (ContestEvent Empty)} :
    passes request (run step (start env cache requests) events) = 0 := by
  have hraised : ∀ call ∈ (run step (start env cache requests) events).stages, call.request = request →
      call.fiber = .done (.error (.exception e)) := by
    refine invariant (I := fun x : Contest CounterCache LimitCall => ∀ call ∈ x.stages, call.request = request →
      call.fiber = .done (.error (.exception e))) (fun x event h => ?_) fun call hmem hrequest => ?_
    · unfold step
      refine Contest.step_cases h (fun o _ => o.elim) fun i call _ hi other hmem hrequest => ?_
      rcases mem_or_eq_of_mem_set hmem with hold | rfl
      · exact h other hold hrequest
      · have hcall := h call (mem_of_getElem? hi) hrequest
        simp [LimitCall.act, hcall, act]
    · obtain ⟨own, -, rfl⟩ := mem_map.mp hmem
      obtain rfl := hrequest
      simp [prevent, hkey, Fiber.raise]
  apply countP_eq_zero.mpr
  intro call hmem
  simp only [decide_eq_true_eq, not_and]
  intro hrequest
  simp [LimitCall.returned, hraised call hmem hrequest, result, Except.toOption]

/-- Within the lifetime of its counter at most as many calls return as the limit says, if Memcached accepts the key
that the pattern and the values give and no call takes a counter for its own that another one had created. -/
theorem limit_holds (env : LimiterEnv) (request : PreventRequest) (cache : CounterCache)
    (requests : List PreventRequest) (events : List (ContestEvent Empty))
    (h : ∀ key, buildKey env request.pattern request.kwargs = .ok key →
      env.accepts key = true ∧ Along step (AddsAlone env key) (start env cache requests) events) :
    passes request (run step (start env cache requests) events) ≤ request.limit := by
  cases hkey : buildKey env request.pattern request.kwargs with
  | ok key => exact (sound_run (h key hkey).1 (h key hkey).2).passes_le hkey
  | error e => simp [passes_of_error hkey]

end Runs

/-- `str.format` for patterns whose fields are plain names. -/
def formatFields (kwargs : List (Text × Text)) : Option Text → Text → Except String Text
  | none, [] => .ok []
  | some _, [] => .error "ValueError"
  | none, '{' :: '{' :: s => (formatFields kwargs none s).map ('{' :: ·)
  | none, '}' :: '}' :: s => (formatFields kwargs none s).map ('}' :: ·)
  | none, '{' :: s => formatFields kwargs (some []) s
  | none, '}' :: _ => .error "ValueError"
  | none, c :: s => (formatFields kwargs none s).map (c :: ·)
  | some name, '}' :: s =>
    match kwargs.lookup name with
    | none => .error "KeyError"
    | some value => (formatFields kwargs none s).map (value ++ ·)
  | some name, c :: s => formatFields kwargs (some (name ++ [c])) s

def acceptsKey (key : Text) : Bool :=
  (key.map Char.utf8Size).sum ≤ 250 && key.all fun c => !Text.isSpace c && 32 < c.toNat && c.toNat != 127

def memcached : LimiterEnv where
  format := fun pattern kwargs => formatFields kwargs none pattern
  accepts := acceptsKey
  waits := false

def resetRequest (email : Text) : PreventRequest where
  pattern := "pw_reset:email:\x7bemail\x7d"
  limit := 3
  timespan := 3600
  kwargs := [("email", email)]

def inTurn : List (ContestEvent Empty) := [0, 0, 0, 1, 1, 1, 2, 2, 2, 3, 3, 3].map .advance

theorem returned_counts_distinct_in_turn :
    let request := resetRequest "e"
    let x := run step (start memcached {} [request, request]) inTurn
    Contest.Distinct (countOn memcached "ratelimit:pw_reset:email:e") x ∧
      x.stages.map LimitCall.returned = [some 1, some 2] :=
  ⟨(returned_counts_distinct (by decide +kernel) _ _ _ (by decide +kernel)).1, by decide +kernel⟩

theorem limit_holds_in_turn :
    let requests := List.replicate 4 (resetRequest "e")
    passes (resetRequest "e") (run step (start memcached {} requests) inTurn) ≤ 3 :=
  limit_holds memcached (resetRequest "e") {} _ inTurn fun key hkey => by
    obtain rfl : "ratelimit:pw_reset:email:e" = key := Except.ok.inj hkey
    decide +kernel

/-- Four calls for an address with a space, four for a long one, and four that find no counter before the first one
creates it, all pass a limit of three. -/
theorem limit_passed :
    let passed email events :=
      passes (resetRequest email) (run step (start memcached {} (List.replicate 4 (resetRequest email))) events)
    passed "eve @b.example" inTurn = 4 ∧ passed (List.replicate 240 'e') inTurn = 4 ∧
      passed "e" ([0, 1, 2, 3, 0, 1, 2, 3].map .advance) = 4 := by
  decide +kernel

end RateLimiter

end WeftId
