import WeftId.Db
import WeftId.Lib.Run
import WeftId.Lib.Numeral

/-!
The queue of back-channel logout deliveries.  A pass of the worker claims the due deliveries in batches, sends a
logout token for each and records the outcome on its row.  An exception while a token is built or sent that the
sender does not know leaves the attempt uncounted and ends the pass, with the rest of the batch untouched.
-/

namespace WeftId

open List Run

inductive DeliveryStatus
  | pending
  | delivered
  | failed
  deriving DecidableEq

/-- A row of `oidc_backchannel_logout_deliveries`. -/
structure LogoutDelivery where
  id : Id
  clientUuid : Id
  status : DeliveryStatus := .pending
  attempts : Nat := 0
  nextAttemptAt : Nat
  lastAttemptAt : Option Nat := none
  completedAt : Option Nat := none
  lastHttpStatus : Option Nat := none
  lastError : Option Text := none
  deriving DecidableEq

structure LogoutClient where
  backchannelLogoutUri : Option Text := none
  isNormal : Bool := true
  isActive : Bool := true
  oidcEnabled : Bool := true

inductive SendOutcome
  | answered (statusCode : Nat)
  | blockedDestination
  | httpError (text : Text)
  /-- An exception that `_send` does not catch, from building the token or from the client. -/
  | raised (name : String)

inductive DeliveryCount
  | delivered
  | retried
  | failed
  | skipped

namespace LogoutQueue

def second : Nat := 1000000

def retrySchedule : List Nat := [30, 120, 600, 3600, 21600]

def maxAttempts : Nat := 1 + retrySchedule.length

def batchSize : Nat := 10

def leaseSeconds : Nat := 120

def deliveryRetentionDays : Nat := 30

structure Claim where
  delivery : LogoutDelivery
  client : LogoutClient

structure Store where
  now : Nat := 0
  nextId : Id := 0
  deliveries : List LogoutDelivery := []
  clients : Id → LogoutClient := fun _ => {}

namespace Store

/-- `update … where id = … and status = 'pending'` -/
def updatePending (s : Store) (id : Id) (f : LogoutDelivery → LogoutDelivery) : Store :=
  { s with deliveries := s.deliveries.map fun d => if d.id = id ∧ d.status = .pending then f d else d }

def due (s : Store) : List LogoutDelivery :=
  s.deliveries.filter fun d => d.status = .pending ∧ d.nextAttemptAt ≤ s.now

/-- The query orders by the time of the next attempt; `tie` decides between equal times. -/
def claimable (s : Store) (tie : Id → Nat) (limit : Nat) : List LogoutDelivery :=
  (s.due.insertionSort fun a b => a.nextAttemptAt < b.nextAttemptAt ∨
    a.nextAttemptAt = b.nextAttemptAt ∧ tie a.id ≤ tie b.id).take limit

def claimDueDeliveries (s : Store) (tie : Id → Nat) (limit leaseSeconds : Nat) : List Claim × Store :=
  ((s.claimable tie limit).map fun d => ⟨d, s.clients d.clientUuid⟩,
    { s with deliveries := s.deliveries.map fun d =>
        if d ∈ s.claimable tie limit then { d with nextAttemptAt := s.now + leaseSeconds * second } else d })

def markDelivered (s : Store) (id : Id) (httpStatus : Nat) : Store :=
  s.updatePending id fun d => { d with
    status := .delivered, attempts := d.attempts + 1, lastAttemptAt := some s.now, completedAt := some s.now
    lastHttpStatus := some httpStatus, lastError := none }

def markRetry (s : Store) (id : Id) (retryInSeconds : Nat) (error : Text) (httpStatus : Option Nat) : Store :=
  s.updatePending id fun d => { d with
    attempts := d.attempts + 1, lastAttemptAt := some s.now, nextAttemptAt := s.now + retryInSeconds * second
    lastHttpStatus := httpStatus, lastError := some (error.take 1000) }

def markFailed (s : Store) (id : Id) (error : Text) (httpStatus : Option Nat) (countAttempt : Bool) : Store :=
  s.updatePending id fun d => { d with
    status := .failed, completedAt := some s.now, lastError := some (error.take 1000)
    attempts := if countAttempt then d.attempts + 1 else d.attempts
    lastAttemptAt := if countAttempt then some s.now else d.lastAttemptAt
    lastHttpStatus := if countAttempt then httpStatus else d.lastHttpStatus }

def purgeFinished (s : Store) (olderThanDays : Nat) : Store :=
  { s with deliveries := s.deliveries.filter fun d =>
      ¬ (d.status ≠ .pending ∧ d.completedAt.any (· + olderThanDays * 86400 * second < s.now)) }

def queue (s : Store) (clientUuid : Id) : Store :=
  { s with
    nextId := s.nextId + 1
    deliveries := s.deliveries ++ [{ id := s.nextId, clientUuid, nextAttemptAt := s.now }] }

end Store

def stillEligible (client : LogoutClient) : Bool :=
  client.backchannelLogoutUri.any (· ≠ []) && client.isNormal && client.isActive && client.oidcEnabled

/-- The HTTP status and the error of an attempt, or the exception that leaves `_send`. -/
def send : SendOutcome → Except String (Option Nat × Option Text)
  | .answered statusCode =>
    if 200 ≤ statusCode ∧ statusCode < 300 then .ok (some statusCode, none)
    else .ok (some statusCode, some ("http_" ++ Numeral.decimal statusCode))
  | .blockedDestination => .ok (none, some "blocked_destination")
  | .httpError text => .ok (none, some ("network_error: " ++ text))
  | .raised name => .error name

def permanent (httpStatus : Option Nat) : Bool :=
  httpStatus.any fun code => 400 ≤ code && code < 500 && code ≠ 408 && code ≠ 429

def recordError (s : Store) (delivery : LogoutDelivery) (httpStatus : Option Nat) (error : Text) :
    Store × DeliveryCount :=
  let attempt := delivery.attempts + 1
  if permanent httpStatus ∨ maxAttempts ≤ attempt then (s.markFailed delivery.id error httpStatus true, .failed)
  else (s.markRetry delivery.id (retrySchedule.getD (attempt - 1) 0) error httpStatus, .retried)

def deliverOne (s : Store) (claim : Claim) (outcome : SendOutcome) : Except String (Store × DeliveryCount) :=
  if stillEligible claim.client = false then
    .ok (s.markFailed claim.delivery.id "client_no_longer_eligible" none false, .skipped)
  else
    match send outcome with
    | .error e => .error e
    | .ok (httpStatus, none) => .ok (s.markDelivered claim.delivery.id (httpStatus.getD 200), .delivered)
    | .ok (httpStatus, some error) => .ok (recordError s claim.delivery httpStatus error)

/-- A pass of the worker: the claims still to be sent, whether the batch was full, which deliveries were due when
the pass began, and which it has dealt with. -/
structure Pass where
  remaining : List Claim
  full : Bool
  due : List Id
  handled : List Id := []
  counts : List DeliveryCount := []

structure Deliverer where
  store : Store := {}
  pass : Option Pass := none
  attempted : List Id := []

inductive DeliveryEvent
  | queue (clientUuid : Id)
  | setClient (clientUuid : Id) (client : LogoutClient)
  | wait (micros : Nat)
  | purge
  | startPass (tie : Id → Nat)
  /-- One of the claimed deliveries is sent, and this comes of it; `UPDATE … RETURNING` lists them in any order. -/
  | deliver (i : Nat) (outcome : SendOutcome)
  /-- The batch is done: the next one is claimed, or the pass ends if the batch was not full. -/
  | nextBatch (tie : Id → Nat)

namespace Deliverer

def claimBatch (x : Deliverer) (tie : Id → Nat) (due handled : List Id) (counts : List DeliveryCount) : Deliverer :=
  let (claims, store) := x.store.claimDueDeliveries tie batchSize leaseSeconds
  { x with store, pass := some { remaining := claims, full := claims.length = batchSize, due, handled, counts } }

def deliver (x : Deliverer) (pass : Pass) (claim : Claim) (remaining : List Claim) (outcome : SendOutcome) :
    Deliverer :=
  let attempted := if stillEligible claim.client then x.attempted ++ [claim.delivery.id] else x.attempted
  match deliverOne x.store claim outcome with
  | .ok (store, count) =>
    { store, attempted
      pass := some { pass with
        remaining, handled := pass.handled ++ [claim.delivery.id], counts := pass.counts ++ [count] } }
  -- the exception leaves the pass; the job logs it and goes on with the next tenant
  | .error _ => { x with attempted, pass := none }

def step (x : Deliverer) : DeliveryEvent → Deliverer
  | .queue clientUuid => { x with store := x.store.queue clientUuid }
  | .setClient clientUuid client => { x with store := { x.store with
      clients := Function.update x.store.clients clientUuid client } }
  | .wait micros => { x with store := { x.store with now := x.store.now + micros } }
  | .purge => { x with store := x.store.purgeFinished deliveryRetentionDays }
  | .startPass tie =>
    match x.pass with
    | some _ => x
    | none => x.claimBatch tie (x.store.due.map (·.id)) [] []
  | .deliver i outcome =>
    match x.pass with
    | some pass =>
      match pass.remaining[i]? with
      | some claim => x.deliver pass claim (pass.remaining.eraseIdx i) outcome
      | none => x
    | none => x
  | .nextBatch tie =>
    match x.pass with
    | some pass =>
      match pass.remaining with
      | [] => if pass.full then x.claimBatch tie pass.due pass.handled pass.counts else { x with pass := none }
      | _ :: _ => x
    | none => x

/-- The outcome is one that `_send` turns into an answer. -/
def Caught : DeliveryEvent → Prop
  | .deliver _ (.raised _) => False
  | _ => True

instance : DecidablePred Caught := fun event => by
  unfold Caught
  split <;> infer_instance

/-- No delivery is attempted too often, and every attempt is counted on its row. -/
def Counted (x : Deliverer) : Prop :=
  (∀ id, x.attempted.count id ≤ maxAttempts) ∧ ∀ d ∈ x.store.deliveries, d.attempts = x.attempted.count d.id

/-- A delivery that has ended stays as it is until it is purged, and is not attempted again. -/
def Final (x y : Deliverer) : Prop :=
  ∀ d ∈ x.store.deliveries, d.status ≠ .pending →
    (d ∈ y.store.deliveries ∨ ∀ d' ∈ y.store.deliveries, d'.id ≠ d.id) ∧
      y.attempted.count d.id = x.attempted.count d.id

def EndsComplete (x : Deliverer) (event : DeliveryEvent) : Prop :=
  ∀ pass ∈ x.pass, (x.step event).pass = none → ∀ id ∈ pass.due, id ∈ pass.handled

variable {d' : LogoutDelivery} {pass : Pass}

section Rows

variable {s : Store} {d : LogoutDelivery} {id : Id} {f : LogoutDelivery → LogoutDelivery}

theorem mem_due : d ∈ s.due ↔ d ∈ s.deliveries ∧ d.status = .pending ∧ d.nextAttemptAt ≤ s.now := by
  simp [Store.due]

variable {limit : Nat} {tie : Id → Nat}

theorem mem_due_of_claimable (h : d ∈ s.claimable tie limit) : d ∈ s.due := by
  have hmem := mem_of_mem_take h
  rwa [mem_insertionSort] at hmem

theorem length_claimable_of_not_mem (hdue : d ∈ s.due) (h : d ∉ s.claimable tie limit) :
    (s.claimable tie limit).length = limit := by
  unfold Store.claimable at *
  rw [length_take]
  by_contra hlength
  apply h
  rw [take_of_length_le (by omega), mem_insertionSort]
  exact hdue

theorem nodup_claimable (h : (s.deliveries.map (·.id)).Nodup) : ((s.claimable tie limit).map (·.id)).Nodup := by
  have hdue : (s.due.map (·.id)).Nodup := h.sublist (filter_sublist.map _)
  exact (((perm_insertionSort _ s.due).map _).nodup_iff.mpr hdue).sublist ((take_sublist _ _).map _)

theorem mem_updatePending (h : d' ∈ (s.updatePending id f).deliveries) :
    ∃ d ∈ s.deliveries, d' = if d.id = id ∧ d.status = .pending then f d else d := by
  obtain ⟨d, hd, rfl⟩ := mem_map.mp h
  exact ⟨d, hd, rfl⟩

theorem ids_updatePending (hf : ∀ d, (f d).id = d.id) :
    (s.updatePending id f).deliveries.map (·.id) = s.deliveries.map (·.id) := by
  unfold Store.updatePending
  rw [map_map]
  apply map_congr_left
  intro d _
  by_cases h : d.id = id ∧ d.status = .pending <;> simp [h, hf]

end Rows

structure Records (claim : Claim) (f : LogoutDelivery → LogoutDelivery) : Prop where
  id : ∀ d, (f d).id = d.id
  attempts : ∀ d, (f d).attempts = if stillEligible claim.client then d.attempts + 1 else d.attempts
  closed : ∀ d, d.attempts = claim.delivery.attempts → (f d).status = .pending → (f d).attempts < maxAttempts

theorem deliverOne_eq {s : Store} {claim : Claim} (h : Caught (.deliver i outcome)) :
    ∃ f count, deliverOne s claim outcome = .ok (s.updatePending claim.delivery.id f, count) ∧ Records claim f := by
  unfold deliverOne
  by_cases heligible : stillEligible claim.client = false
  · rw [if_pos heligible]
    refine ⟨_, _, rfl, fun d => rfl, fun d => by simp [heligible], fun d _ hstatus => ?_⟩
    cases hstatus
  rw [if_neg heligible]
  have heligible' : stillEligible claim.client = true := by simpa using heligible
  have hsend : ∃ answer, send outcome = .ok answer := by
    cases outcome with
    | answered =>
      simp only [send]
      split <;> exact ⟨_, rfl⟩
    | blockedDestination => exact ⟨_, rfl⟩
    | httpError text => exact ⟨_, rfl⟩
    | raised name => exact h.elim
  obtain ⟨⟨httpStatus, error⟩, hsend⟩ := hsend
  rw [hsend]
  cases error with
  | none =>
    refine ⟨_, _, rfl, fun d => rfl, fun d => by simp [heligible'], fun d _ hstatus => ?_⟩
    cases hstatus
  | some error =>
    simp only [recordError]
    split
    · refine ⟨_, _, rfl, fun d => rfl, fun d => by simp [heligible'], fun d _ hstatus => ?_⟩
      cases hstatus
    · rename_i hretry
      refine ⟨_, _, rfl, fun d => rfl, fun d => by simp [heligible'], fun d hattempts _ => ?_⟩
      push Not at hretry
      change d.attempts + 1 < maxAttempts
      omega

/-- A row that the pass may still send: as it was when it was claimed. -/
def Waits (s : Store) (id : Id) (attempts : Nat) : Prop :=
  ∃ d ∈ s.deliveries, d.id = id ∧ d.status = .pending ∧ d.attempts = attempts

/-- A delivery that the next batch of the pass can still claim. -/
def Claimable (s : Store) (id : Id) : Prop :=
  ∃ d ∈ s.deliveries, d.id = id ∧ d.status = .pending ∧ d.nextAttemptAt ≤ s.now

/-- The claims of a pass are open rows, and what was due is dealt with, claimed, or left for the next batch. -/
structure PassSound (s : Store) (pass : Pass) : Prop where
  claims : ∀ claim ∈ pass.remaining, Waits s claim.delivery.id claim.delivery.attempts
  nodup : (pass.remaining.map (·.delivery.id)).Nodup
  covered : ∀ id ∈ pass.due,
    id ∈ pass.handled ∨ id ∈ pass.remaining.map (·.delivery.id) ∨ (pass.full = true ∧ Claimable s id)

structure RowsSound (s : Store) (attempted : List Id) : Prop where
  nodup : (s.deliveries.map (·.id)).Nodup
  fresh : ∀ d ∈ s.deliveries, d.id < s.nextId
  known : ∀ id ∈ attempted, id < s.nextId
  counted : ∀ d ∈ s.deliveries, d.attempts = attempted.count d.id
  unfinished : ∀ d ∈ s.deliveries, d.status = .pending → d.attempts < maxAttempts
  bounded : ∀ id, attempted.count id ≤ maxAttempts

structure Sound (x : Deliverer) : Prop where
  rows : RowsSound x.store x.attempted
  pass : ∀ pass ∈ x.pass, PassSound x.store pass

theorem sound_empty : Sound {} where
  rows := by constructor <;> simp
  pass := by simp

theorem PassSound.mono {s s' : Store} (h : PassSound s pass)
    (hwaits : ∀ id attempts, Waits s id attempts → Waits s' id attempts)
    (hclaimable : ∀ id, Claimable s id → Claimable s' id) : PassSound s' pass where
  claims claim hclaim := hwaits _ _ (h.claims claim hclaim)
  nodup := h.nodup
  covered id hid := (h.covered id hid).imp_right (Or.imp_right fun hfull => ⟨hfull.1, hclaimable id hfull.2⟩)

variable {x : Deliverer} {d : LogoutDelivery}

theorem Sound.queue (h : Sound x) (clientUuid : Id) : Sound (x.step (.queue clientUuid)) where
  rows := by
    have hnew : x.attempted.count x.store.nextId = 0 := by
      apply count_eq_zero.mpr
      intro hmem
      exact lt_irrefl _ (h.rows.known _ hmem)
    constructor
    · simp only [step, Store.queue, map_append]
      apply List.Nodup.append h.rows.nodup (by simp)
      intro id hold hid
      obtain ⟨d, hd, rfl⟩ := mem_map.mp hold
      have heq : d.id = x.store.nextId := by simpa using hid
      exact ne_of_lt (h.rows.fresh d hd) heq
    · intro d hd
      rcases mem_concat_iff.mp hd with hd | rfl
      · exact Nat.lt_succ_of_lt (h.rows.fresh d hd)
      · exact Nat.lt_succ_self _
    · intro id hid
      exact Nat.lt_succ_of_lt (h.rows.known id hid)
    · intro d hd
      rcases mem_concat_iff.mp hd with hd | rfl
      · exact h.rows.counted d hd
      · exact hnew.symm
    · intro d hd hpending
      rcases mem_concat_iff.mp hd with hd | rfl
      · exact h.rows.unfinished d hd hpending
      · show 0 < maxAttempts
        decide
    · exact h.rows.bounded
  pass pass hpass := by
    apply (h.pass pass hpass).mono
    · rintro id attempts ⟨d, hd, hrest⟩
      exact ⟨d, mem_append_left _ hd, hrest⟩
    · rintro id ⟨d, hd, hrest⟩
      exact ⟨d, mem_append_left _ hd, hrest⟩

theorem Sound.purge (h : Sound x) : Sound (x.step .purge) := by
  have hold : ∀ d ∈ (x.step .purge).store.deliveries, d ∈ x.store.deliveries := fun d hd => mem_of_mem_filter hd
  have hkept : ∀ d ∈ x.store.deliveries, d.status = .pending → d ∈ (x.step .purge).store.deliveries := by
    intro d hd hpending
    exact mem_filter.mpr ⟨hd, by simp [hpending]⟩
  constructor
  · exact {
      nodup := h.rows.nodup.sublist (filter_sublist.map _)
      fresh := fun d hd => h.rows.fresh d (hold d hd)
      known := h.rows.known
      counted := fun d hd => h.rows.counted d (hold d hd)
      unfinished := fun d hd => h.rows.unfinished d (hold d hd)
      bounded := h.rows.bounded }
  · intro pass hpass
    apply (h.pass pass hpass).mono
    · rintro id attempts ⟨d, hd, hid, hpending, hrest⟩
      exact ⟨d, hkept d hd hpending, hid, hpending, hrest⟩
    · rintro id ⟨d, hd, hid, hpending, hrest⟩
      exact ⟨d, hkept d hd hpending, hid, hpending, hrest⟩

theorem Sound.wait (h : Sound x) (micros : Nat) : Sound (x.step (.wait micros)) where
  rows := { h.rows with }
  pass pass hpass := by
    apply (h.pass pass hpass).mono
    · intro id attempts hwaits
      exact hwaits
    · rintro id ⟨d, hd, hid, hpending, hnext⟩
      exact ⟨d, hd, hid, hpending, Nat.le_add_right_of_le hnext⟩

theorem Sound.setClient (h : Sound x) (clientUuid : Id) (client : LogoutClient) :
    Sound (x.step (.setClient clientUuid client)) where
  rows := { h.rows with }
  pass pass hpass := (h.pass pass hpass).mono (fun _ _ hwaits => hwaits) fun _ hclaimable => hclaimable

section Claims

variable {x : Deliverer} {s : Store}

theorem mem_claimDueDeliveries {lease : Nat} (h : d' ∈ (s.claimDueDeliveries tie limit lease).2.deliveries) :
    ∃ d ∈ s.deliveries, d'.id = d.id ∧ d'.status = d.status ∧ d'.attempts = d.attempts ∧
      (d.status ≠ .pending → d' = d) := by
  obtain ⟨d, hd, rfl⟩ := mem_map.mp h
  by_cases hclaim : d ∈ s.claimable tie limit
  · have hpending := (mem_due.mp (mem_due_of_claimable hclaim)).2.1
    exact ⟨d, hd, by simp [hclaim], by simp [hclaim], by simp [hclaim], fun hne => absurd hpending hne⟩
  · exact ⟨d, hd, by simp [hclaim], by simp [hclaim], by simp [hclaim], fun _ => by simp [hclaim]⟩

theorem ids_claimDueDeliveries (s : Store) (tie : Id → Nat) (limit lease : Nat) :
    (s.claimDueDeliveries tie limit lease).2.deliveries.map (·.id) = s.deliveries.map (·.id) := by
  simp only [Store.claimDueDeliveries, map_map]
  apply map_congr_left
  intro d _
  by_cases hclaim : d ∈ s.claimable tie limit <;> simp [hclaim]

theorem waits_of_claimable {lease : Nat} (h : d ∈ s.claimable tie limit) :
    Waits (s.claimDueDeliveries tie limit lease).2 d.id d.attempts := by
  have hdue := mem_due.mp (mem_due_of_claimable h)
  refine ⟨_, mem_map.mpr ⟨d, hdue.1, rfl⟩, ?_⟩
  simp [h, hdue.2.1]

theorem RowsSound.claim (h : RowsSound x.store x.attempted) (tie : Id → Nat) (limit lease : Nat) :
    RowsSound (x.store.claimDueDeliveries tie limit lease).2 x.attempted where
  nodup := by
    rw [ids_claimDueDeliveries]
    exact h.nodup
  fresh d' hd' := by
    obtain ⟨d, hd, hid, -⟩ := mem_claimDueDeliveries hd'
    rw [hid]
    exact h.fresh d hd
  known := h.known
  counted d' hd' := by
    obtain ⟨d, hd, hid, -, hattempts, -⟩ := mem_claimDueDeliveries hd'
    rw [hid, hattempts]
    exact h.counted d hd
  unfinished d' hd' hpending := by
    obtain ⟨d, hd, -, hstatus, hattempts, -⟩ := mem_claimDueDeliveries hd'
    rw [hattempts]
    exact h.unfinished d hd (hstatus ▸ hpending)
  bounded := h.bounded

theorem Sound.claimBatch (h : RowsSound x.store x.attempted) {due handled : List Id} (counts : List DeliveryCount)
    (tie : Id → Nat) (hdue : ∀ id ∈ due, id ∈ handled ∨ Claimable x.store id) :
    Sound (x.claimBatch tie due handled counts) where
  rows := h.claim tie batchSize leaseSeconds
  pass := by
    intro pass hpass
    obtain rfl := Option.some.inj hpass
    constructor
    · intro claim hclaim
      obtain ⟨d, hd, rfl⟩ := mem_map.mp hclaim
      exact waits_of_claimable hd
    · simp only [map_map]
      exact nodup_claimable h.nodup
    · intro id hid
      rcases hdue id hid with hhandled | ⟨d, hd, rfl, hpending, hnext⟩
      · exact .inl hhandled
      have hdue := mem_due.mpr ⟨hd, hpending, hnext⟩
      by_cases hclaim : d ∈ x.store.claimable tie batchSize
      · refine .inr (.inl ?_)
        simp only [map_map]
        exact mem_map.mpr ⟨d, hclaim, rfl⟩
      · refine .inr (.inr ⟨?_, d, mem_map.mpr ⟨d, hd, by simp [hclaim]⟩, rfl, hpending, hnext⟩)
        simp [length_claimable_of_not_mem hdue hclaim]

theorem Sound.startPass (h : Sound x) : Sound (x.step (.startPass tie)) := by
  simp only [step]
  cases hpass : x.pass with
  | some pass => exact h
  | none =>
    apply Sound.claimBatch h.rows
    intro id hid
    obtain ⟨d, hd, rfl⟩ := mem_map.mp hid
    obtain ⟨hmem, hpending, hnext⟩ := mem_due.mp hd
    exact .inr ⟨d, hmem, rfl, hpending, hnext⟩

theorem Sound.nextBatch (h : Sound x) : Sound (x.step (.nextBatch tie)) := by
  simp only [step]
  cases hpass : x.pass with
  | none => exact h
  | some pass =>
    have hsound := h.pass pass hpass
    cases hremaining : pass.remaining with
    | cons => simpa only [hremaining] using h
    | nil =>
      simp only [hremaining]
      by_cases hfull : pass.full = true
      · rw [if_pos hfull]
        apply Sound.claimBatch h.rows
        intro id hid
        have hcovered := hsound.covered id hid
        simp only [hremaining, map_nil, not_mem_nil, false_or] at hcovered
        exact hcovered.imp_right And.right
      · rw [if_neg hfull]
        exact ⟨h.rows, by simp⟩

end Claims

section Outcomes

variable {x : Deliverer} {claim : Claim} {f : LogoutDelivery → LogoutDelivery} {s : Store} {remaining : List Claim}
  {attempted : List Id}

def attemptedWith (attempted : List Id) (claim : Claim) : List Id :=
  if stillEligible claim.client then attempted ++ [claim.delivery.id] else attempted

theorem count_attemptedWith (attempted : List Id) (claim : Claim) (id : Id) : (attemptedWith attempted claim).count id =
      if stillEligible claim.client ∧ claim.delivery.id = id then attempted.count id + 1 else attempted.count id := by
  by_cases heligible : stillEligible claim.client = true
  · by_cases hid : claim.delivery.id = id <;> simp [attemptedWith, heligible, hid]
  · simp [attemptedWith, heligible]

theorem RowsSound.eq_of_id (h : RowsSound s attempted)
    (hd : d ∈ s.deliveries) (hd' : d' ∈ s.deliveries) (hid : d.id = d'.id) : d = d' :=
  inj_on_of_nodup_map h.nodup hd hd' hid

theorem RowsSound.record (h : RowsSound s attempted)
    (hwaits : Waits s claim.delivery.id claim.delivery.attempts) (hf : Records claim f) :
    RowsSound (s.updatePending claim.delivery.id f) (attemptedWith attempted claim) := by
  obtain ⟨row, hrow, hrowId, hrowPending, hrowAttempts⟩ := hwaits
  have hcount : attempted.count claim.delivery.id < maxAttempts := by
    rw [← hrowId, ← h.counted row hrow]
    exact h.unfinished row hrow hrowPending
  constructor
  · rw [ids_updatePending hf.id]
    exact h.nodup
  · intro d' hd'
    obtain ⟨d, hd, rfl⟩ := mem_updatePending hd'
    have hlt := h.fresh d hd
    split
    · rw [hf.id]
      exact hlt
    · exact hlt
  · intro id hid
    unfold attemptedWith at hid
    split at hid
    · rcases mem_concat_iff.mp hid with hid | rfl
      · exact h.known id hid
      · exact hrowId ▸ h.fresh row hrow
    · exact h.known id hid
  · intro d' hd'
    obtain ⟨d, hd, rfl⟩ := mem_updatePending hd'
    have hattempts := h.counted d hd
    rw [count_attemptedWith]
    by_cases hid : d.id = claim.delivery.id
    · -- the only row with this id is the one that waits
      obtain rfl := h.eq_of_id hd hrow (hid.trans hrowId.symm)
      rw [if_pos ⟨hid, hrowPending⟩, hf.attempts, hf.id]
      by_cases heligible : stillEligible claim.client = true
      · rw [if_pos heligible, if_pos ⟨heligible, hid.symm⟩, hattempts]
      · rw [if_neg heligible, if_neg (fun hboth => heligible hboth.1), hattempts]
    · rw [if_neg (fun hboth => hid hboth.1), if_neg (fun hboth => hid hboth.2.symm)]
      exact hattempts
  · intro d' hd' hpending
    obtain ⟨d, hd, rfl⟩ := mem_updatePending hd'
    by_cases hmatch : d.id = claim.delivery.id ∧ d.status = .pending
    · rw [if_pos hmatch] at hpending ⊢
      obtain rfl := h.eq_of_id hd hrow (hmatch.1.trans hrowId.symm)
      exact hf.closed d hrowAttempts hpending
    · rw [if_neg hmatch] at hpending ⊢
      exact h.unfinished d hd hpending
  · intro id
    rw [count_attemptedWith]
    split
    · rename_i hid
      rw [← hid.2]
      exact hcount
    · exact h.bounded id

theorem waits_updatePending {id id' : Id} {attempts : Nat} (hne : id' ≠ id) (h : Waits s id' attempts) :
    Waits (s.updatePending id f) id' attempts := by
  obtain ⟨d, hd, rfl, hrest⟩ := h
  exact ⟨d, mem_map.mpr ⟨d, hd, if_neg fun hboth => hne hboth.1⟩, rfl, hrest⟩

theorem claimable_updatePending {id id' : Id} (hne : id' ≠ id) (h : Claimable s id') :
    Claimable (s.updatePending id f) id' := by
  obtain ⟨d, hd, rfl, hrest⟩ := h
  exact ⟨d, mem_map.mpr ⟨d, hd, if_neg fun hboth => hne hboth.1⟩, rfl, hrest⟩

theorem PassSound.record (h : PassSound s pass)
    (hremaining : pass.remaining.Perm (claim :: remaining)) (count : DeliveryCount) :
    PassSound (s.updatePending claim.delivery.id f)
      { pass with
        remaining, handled := pass.handled ++ [claim.delivery.id], counts := pass.counts ++ [count] } := by
  have hnodup := (hremaining.map _).nodup_iff.mp h.nodup
  rw [map_cons, nodup_cons] at hnodup
  constructor
  · intro other hother
    have hne : other.delivery.id ≠ claim.delivery.id := by
      intro heq
      exact hnodup.1 (heq ▸ mem_map.mpr ⟨other, hother, rfl⟩)
    apply waits_updatePending hne
    exact h.claims other (hremaining.mem_iff.mpr (mem_cons_of_mem _ hother))
  · exact hnodup.2
  · intro id hid
    by_cases heq : id = claim.delivery.id
    · exact .inl (by simp [heq])
    rcases h.covered id hid with hhandled | hclaimed | ⟨hfull, hclaimable⟩
    · exact .inl (mem_append_left _ hhandled)
    · refine .inr (.inl ?_)
      simpa [heq] using (hremaining.map _).mem_iff.mp hclaimed
    · exact .inr (.inr ⟨hfull, claimable_updatePending heq hclaimable⟩)

theorem deliver_cases {P : Deliverer → Prop} (hcaught : Caught (.deliver i outcome)) (hsame : P x)
    (hrecord : ∀ pass claim remaining f count, x.pass = some pass → pass.remaining.Perm (claim :: remaining) →
      Records claim f → P
        { store := x.store.updatePending claim.delivery.id f, attempted := attemptedWith x.attempted claim
          pass := some { pass with
            remaining, handled := pass.handled ++ [claim.delivery.id], counts := pass.counts ++ [count] } }) :
    P (x.step (.deliver i outcome)) := by
  cases hpass : x.pass with
  | none => simpa only [step, hpass] using hsame
  | some pass =>
    cases hclaim : pass.remaining[i]? with
    | none => simpa only [step, hpass, hclaim] using hsame
    | some claim =>
      obtain ⟨hi, rfl⟩ := List.getElem?_eq_some_iff.mp hclaim
      have hperm := (getElem_cons_eraseIdx_perm hi).symm
      obtain ⟨f, count, hdeliver, hrecords⟩ := @deliverOne_eq i outcome x.store pass.remaining[i] hcaught
      simpa only [step, hpass, hclaim, deliver, hdeliver, attemptedWith] using
        hrecord pass _ _ f count hpass hperm hrecords

theorem Sound.deliver (h : Sound x) (hcaught : Caught (.deliver i outcome)) : Sound (x.step (.deliver i outcome)) := by
  refine deliver_cases hcaught h fun pass claim remaining f count hpass hremaining hrecords => ?_
  have hsound := h.pass pass hpass
  have hwaits := hsound.claims claim (hremaining.mem_iff.mpr mem_cons_self)
  refine ⟨h.rows.record hwaits hrecords, fun pass' hpass' => ?_⟩
  obtain rfl := Option.some.inj hpass'
  exact hsound.record hremaining count

end Outcomes

theorem Sound.step (h : Sound x) (hcaught : Caught event) : Sound (x.step event) := by
  cases event with
  | queue clientUuid => exact h.queue clientUuid
  | setClient clientUuid client => exact h.setClient clientUuid client
  | wait micros => exact h.wait micros
  | purge => exact h.purge
  | startPass => exact h.startPass
  | deliver => exact h.deliver hcaught
  | nextBatch => exact h.nextBatch

/-- The ended delivery `d` is in the queue as it is or has left it, after `n` attempts. -/
structure Settled (d : LogoutDelivery) (n : Nat) (x : Deliverer) : Prop where
  known : d.id < x.store.nextId
  kept : d ∈ x.store.deliveries ∨ ∀ d' ∈ x.store.deliveries, d'.id ≠ d.id
  count : x.attempted.count d.id = n

section Settled

variable {x : Deliverer} {d : LogoutDelivery} {n : Nat}

theorem Settled.queue (h : Settled d n x) (clientUuid : Id) : Settled d n (x.step (.queue clientUuid)) where
  known := Nat.lt_succ_of_lt h.known
  kept := by
    rcases h.kept with hd | hgone
    · exact .inl (mem_append_left _ hd)
    · refine .inr fun d' hd' => ?_
      rcases mem_concat_iff.mp hd' with hd' | rfl
      · exact hgone d' hd'
      · exact (ne_of_lt h.known).symm
  count := h.count

theorem Settled.purge (h : Settled d n x) (hsound : Sound x) : Settled d n (x.step .purge) where
  known := h.known
  kept := by
    have hold : ∀ d' ∈ (x.step .purge).store.deliveries, d' ∈ x.store.deliveries :=
      fun d' hd' => mem_of_mem_filter hd'
    by_cases hd : d ∈ (x.step .purge).store.deliveries
    · exact .inl hd
    refine .inr fun d' hd' hid => ?_
    rcases h.kept with hmem | hgone
    · have heq := hsound.rows.eq_of_id (hold d' hd') hmem hid
      exact hd (heq ▸ hd')
    · exact hgone d' (hold d' hd') hid
  count := h.count

theorem Settled.claimBatch (h : Settled d n x) (hended : d.status ≠ .pending) (tie : Id → Nat) (due handled : List Id)
    (counts : List DeliveryCount) : Settled d n (x.claimBatch tie due handled counts) where
  known := h.known
  kept := by
    rcases h.kept with hd | hgone
    · have hclaim : d ∉ x.store.claimable tie batchSize := fun hmem =>
        hended (mem_due.mp (mem_due_of_claimable hmem)).2.1
      exact .inl (mem_map.mpr ⟨d, hd, by simp [hclaim]⟩)
    · refine .inr fun d' hd' => ?_
      obtain ⟨d₀, hd₀, hid, -⟩ := mem_claimDueDeliveries hd'
      rw [hid]
      exact hgone d₀ hd₀
  count := h.count

theorem Settled.deliver (h : Settled d n x) (hsound : Sound x) (hended : d.status ≠ .pending)
    (hcaught : Caught (.deliver i outcome)) : Settled d n (x.step (.deliver i outcome)) := by
  refine deliver_cases hcaught h fun pass claim _ f _ hpass hremaining hrecords => ?_
  obtain ⟨row, hrow, hrowId, hrowPending, -⟩ := (hsound.pass pass hpass).claims claim
    (hremaining.mem_iff.mpr mem_cons_self)
  have hne : claim.delivery.id ≠ d.id := by
    intro heq
    rcases h.kept with hd | hgone
    · have hrowEq := hsound.rows.eq_of_id hrow hd (hrowId.trans heq)
      exact hended (hrowEq ▸ hrowPending)
    · exact hgone row hrow (hrowId.trans heq)
  refine ⟨h.known, ?_, ?_⟩
  · rcases h.kept with hd | hgone
    · exact .inl (mem_map.mpr ⟨d, hd, if_neg fun hboth => hne hboth.1.symm⟩)
    · refine .inr fun d' hd' => ?_
      obtain ⟨d₀, hd₀, rfl⟩ := mem_updatePending hd'
      have hd₀ := hgone d₀ hd₀
      split
      · rw [hrecords.id]
        exact hd₀
      · exact hd₀
  · rw [count_attemptedWith, if_neg fun hboth => hne hboth.2]
    exact h.count

theorem Settled.step (h : Settled d n x) (hsound : Sound x) (hended : d.status ≠ .pending)
    (hcaught : Caught event) : Settled d n (x.step event) := by
  cases event with
  | queue clientUuid => exact h.queue clientUuid
  | setClient => exact ⟨h.known, h.kept, h.count⟩
  | wait micros => exact ⟨h.known, h.kept, h.count⟩
  | purge => exact h.purge hsound
  | startPass =>
    cases hpass : x.pass with
    | some pass => simpa only [Deliverer.step, hpass] using h
    | none =>
      simp only [Deliverer.step, hpass]
      exact h.claimBatch hended _ _ _ _
  | deliver => exact h.deliver hsound hended hcaught
  | nextBatch =>
    simp only [Deliverer.step]
    split
    · split
      · split
        · exact h.claimBatch hended _ _ _ _
        · exact ⟨h.known, h.kept, h.count⟩
      · exact h
    · exact h

end Settled

section Runs

variable {events l l' : List DeliveryEvent} {x : Deliverer}

theorem sound_run (hx : Sound x) (h : ∀ event ∈ events, Caught event) : Sound (run step x events) :=
  invariant_of_along (fun _ _ hx hcaught => hx.step hcaught) hx (along_of_forall h)

theorem settled_run {n : Nat} (hx : Sound x) (hd : Settled d n x)
    (hended : d.status ≠ .pending) (h : ∀ event ∈ events, Caught event) : Settled d n (run step x events) := by
  refine (invariant_of_along (I := fun x => Sound x ∧ Settled d n x) ?_ ⟨hx, hd⟩ (along_of_forall h)).2
  exact fun x event hx hcaught => ⟨hx.1.step hcaught, hx.2.step hx.1 hended hcaught⟩

theorem final_run (hx : Sound x) (h : ∀ event ∈ events, Caught event) : Final x (run step x events) := by
  intro d hd hended
  have hsettled : Settled d (x.attempted.count d.id) x := ⟨hx.rows.fresh d hd, .inl hd, rfl⟩
  have hrun := settled_run hx hsettled hended h
  exact ⟨hrun.kept, hrun.count⟩

theorem Sound.endsComplete (hx : Sound x) (hcaught : Caught event) : EndsComplete x event := by
  intro pass hpass hnone id hid
  have hpass : x.pass = some pass := hpass
  have hcovered := (hx.pass pass hpass).covered id hid
  cases hremaining : pass.remaining with
  | cons claim =>
    -- with a claim in hand every event leaves a pass running
    cases event with
    | deliver =>
      refine absurd hnone (deliver_cases (P := (·.pass ≠ none)) hcaught (by simp [hpass]) ?_)
      simp
    | _ => simp [Deliverer.step, hpass, hremaining] at hnone
  | nil =>
    simp only [hremaining, map_nil, not_mem_nil, false_or] at hcovered
    rcases hcovered with hhandled | ⟨hfull, -⟩
    · exact hhandled
    · cases event with
      | nextBatch => simp [Deliverer.step, hpass, hremaining, hfull, Deliverer.claimBatch] at hnone
      | _ => simp [Deliverer.step, hpass, hremaining] at hnone

/-- In a run in which every exception of a delivery is one that the sender knows, no delivery is attempted too often,
every attempt is counted, an ended delivery is final, and a pass deals with all that was due. -/
theorem deliveries_bounded_and_complete (h : ∀ event ∈ events, Caught event) : Counted (run step {} events) ∧
      (∀ l l', events = l ++ l' → Final (run step {} l) (run step {} events)) ∧ Along step EndsComplete {} events := by
  refine ⟨?_, ?_, ?_⟩
  · have hsound := sound_run sound_empty h
    exact ⟨hsound.rows.bounded, hsound.rows.counted⟩
  · rintro l l' rfl
    have hsound := sound_run sound_empty fun event hevent => h event (mem_append_left l' hevent)
    rw [run_append]
    exact final_run hsound fun event hevent => h event (mem_append_right l hevent)
  · rintro l event l' rfl
    have hsound := sound_run sound_empty fun event' hevent' => h event' (mem_append_left _ hevent')
    exact hsound.endsComplete (h event (by simp))

def loggedOutClient : LogoutClient := { backchannelLogoutUri := some "https://rp/logout".toList }

theorem deliveries_bounded_and_complete_retry :
    Counted (run step {} [.setClient 7 loggedOutClient, .queue 7, .startPass id, .deliver 0 (.answered 503),
      .nextBatch id]) :=
  (deliveries_bounded_and_complete (by decide)).1

def raisingPass : List DeliveryEvent := [.startPass id, .deliver 0 (.raised "KeyError"), .wait (120 * second)]

/-- Two deliveries are due in each of seven passes: the first is begun seven times and none of it is counted, the
second is not begun at all. -/
theorem deliveries_uncounted_and_starved :
    let events := [.setClient 7 loggedOutClient, .queue 7, .queue 7] ++ (List.replicate 7 raisingPass).flatten
    let x := run step {} events
    x.attempted.count 0 = 7 ∧ maxAttempts < 7 ∧ x.store.deliveries.map (·.attempts) = [0, 0] ∧
      x.attempted.count 1 = 0 ∧ ¬ Along step EndsComplete {} events := by
  refine ⟨by decide +kernel, by decide, by decide +kernel, by decide +kernel, fun h => ?_⟩
  have hfirst := h [.setClient 7 loggedOutClient, .queue 7, .queue 7, .startPass id]
    (.deliver 0 (.raised "KeyError")) _ rfl
  have hpass : (run step {} [.setClient 7 loggedOutClient, .queue 7, .queue 7, .startPass id]).pass.isSome := by
    decide +kernel
  obtain ⟨pass, hpass⟩ := Option.isSome_iff_exists.mp hpass
  have hdue : (run step {} [.setClient 7 loggedOutClient, .queue 7, .queue 7, .startPass id]).pass.map
      (fun pass => (pass.due, pass.handled)) = some ([0, 1], []) := by
    decide +kernel
  rw [hpass] at hdue
  have hshape : (pass.due, pass.handled) = ([0, 1], []) := Option.some.inj hdue
  have hnone : (step (run step {} [.setClient 7 loggedOutClient, .queue 7, .queue 7, .startPass id])
      (.deliver 0 (.raised "KeyError"))).pass = none := by
    decide +kernel
  have hhandled := hfirst pass hpass hnone 1 (by simp [(Prod.mk.inj hshape).1])
  simp [(Prod.mk.inj hshape).2] at hhandled

end Runs

end Deliverer

end LogoutQueue

end WeftId
