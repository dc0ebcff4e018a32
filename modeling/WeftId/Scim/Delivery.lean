import WeftId.Lib.Run
import WeftId.Scim.Outbound

/-!
The push worker beside directory changes, one statement at a time.  A change commits and then enqueues the
resources it touched; a pass of the worker lists rows, and for each reads the resource, pushes it and deletes
the row by its id.  A change that lands in between refreshes the very row that the pass then deletes.
-/

namespace WeftId.Scim

open List Run

inductive PushStatus
  | success
  | absent
  | permanent
  | retryable
  deriving DecidableEq

structure PushResult where
  status : PushStatus
  httpStatus : Option Nat := none
  reason : Option Text := none
  deriving DecidableEq

inductive Answer
  | result (result : PushResult)
  | raised (exception : Text)
  deriving DecidableEq

inductive Token
  | ok
  | decryptFailed (credentialId : Id)
  | missing
  deriving DecidableEq

inductive Target
  | orphaned
  | reachable (token : Token)
  deriving DecidableEq

inductive Stage
  | between
  | resolved (entry : PushEntry) (remoteId : Option Text) (resource : Option Resource)
  | answered (entry : PushEntry) (answer : Answer)
  deriving DecidableEq

structure Worker where
  now : Nat
  target : Target := .orphaned
  entries : List PushEntry := []
  groups : List (Id × List PushEntry) := []
  stage : Stage := .between

def tenantDrainLimit : Nat := 500

def maxAttempts : Nat := 5

def backoffSchedule : List Nat := [0, 60000000, 300000000, 1800000000, 7200000000]

def maxQueueErrorLength : Nat := 3900

def truncateQueueError (error : Text) : Text :=
  if error.length ≤ maxQueueErrorLength then error else error.take (maxQueueErrorLength - 3) ++ "..."

def formatReason (status : String) (result : PushResult) : Text :=
  Text.join ' ' ([status.toList] ++ (result.httpStatus.map fun code => "http=" ++ Numeral.decimal code).toList ++
    (result.reason.filter (· ≠ [])).toList)

def recordDeadLetter (db : Db) (entry : PushEntry) (reason : Text) : Db :=
  db.markDeadLetter entry.id (truncateQueueError reason)

def recordRetryOrDeadLetter (db : Db) (entry : PushEntry) (now : Nat) (reason : Text) : Db :=
  if maxAttempts ≤ entry.attempts + 1 then recordDeadLetter db entry reason
  else db.markAttemptFailed entry.id (truncateQueueError reason) (now + backoffSchedule.getD (entry.attempts + 1) 0)

def recordAnswer (db : Db) (entry : PushEntry) (now : Nat) : Answer → Db
  | .result result =>
    match result.status with
    | .success | .absent => db.deleteEntry entry.id
    | .permanent => recordDeadLetter db entry (formatReason "permanent" result)
    | .retryable => recordRetryOrDeadLetter db entry now (formatReason "retryable" result)
  | .raised exception => recordRetryOrDeadLetter db entry now ("worker_exception: " ++ exception)

def groupBySp (entries : List PushEntry) : List (Id × List PushEntry) :=
  (entries.map (·.key.spId)).eraseDups.map fun spId => (spId, entries.filter (·.key.spId = spId))

def resolveTarget (db : Db) (spId : Id) (token : Token) : Target :=
  match db.getScimTarget spId with
  | some sp => if sp.scimEnabled ∧ sp.scimTargetUrl.any (· ≠ []) then .reachable token else .orphaned
  | none => .orphaned

/-- What the transport makes of one call: a classified response with the id that the receiver gave, or an exception
on the way to it. -/
inductive Transport
  | answered (result : PushResult) (scimId : Option Text)
  | raised (exception : Text)

abbrev RemoteIds := PushKey → Option Text

/-- A member to which the receiver has given no id yet is left out of the group. -/
def Resource.withoutUnmapped (remoteIds : RemoteIds) (spId : Id) : Resource → Resource
  | group displayName members => group displayName (members.filter fun m => (remoteIds ⟨spId, .user, m⟩).isSome)
  | user userName firstName lastName active => user userName firstName lastName active

def sentResource (db : Db) (remoteIds : RemoteIds) (key : PushKey) : Option Resource :=
  (currentResource db key).map (·.withoutUnmapped remoteIds key.spId)

/-- A 404 for an id that the receiver once gave clears the mapping, and a refusal for that reason is tried again. -/
def handle404Invalidation (remoteIds : RemoteIds) (key : PushKey) (hadMapping : Bool) (result : PushResult) :
    PushResult × RemoteIds :=
  if hadMapping = false then (result, remoteIds)
  else if result.httpStatus ≠ some 404 then (result, remoteIds)
  else
    (if result.status = .permanent then
      { status := .retryable, httpStatus := some 404
        reason := some "remote_id_invalidated (HTTP 404; next attempt will POST)".toList }
    else result, Function.update remoteIds key none)

/-- A resource that is gone is deleted, one with a known id is put in place, any other is posted and its id kept if
it fits the column. -/
def dispatchPush (putsGroups : Bool) (remoteIds : RemoteIds) (key : PushKey) (remoteId : Option Text)
    (resource : Option Resource) : Transport → Answer × RemoteIds
  | .raised exception => (.raised exception, remoteIds)
  | .answered result scimId =>
    if resource = none then (handle404Invalidation remoteIds key remoteId.isSome result).map .result id
    else if remoteId.isSome ∧ (key.resourceType = .group → putsGroups) then
      (handle404Invalidation remoteIds key true result).map .result id
    else if result.status = .success ∧ scimId.any fun id => id ≠ [] ∧ id.length ≤ 255 then
      (.result result, Function.update remoteIds key scimId)
    else (.result result, remoteIds)

namespace Worker

def pushing (w : Worker) : Option (PushEntry × Option Text × Option Resource) :=
  match w.stage with
  | .resolved entry remoteId resource => some (entry, remoteId, resource)
  | _ => none

/-- The answer that the worker has for its next statement, and the receivers' ids after it; `putsGroups` says which
applications have their groups updated in place. -/
def dispatch (w : Worker) (putsGroups : Id → Bool) (remoteIds : RemoteIds) (transport : Transport) :
    Answer × RemoteIds :=
  match w.pushing with
  | some (entry, remoteId, resource) =>
    dispatchPush (putsGroups entry.key.spId) remoteIds entry.key remoteId resource transport
  | none => (.raised [], remoteIds)

def receive (w : Worker) (received : PushKey → Option Resource) (answer : Answer) : PushKey → Option Resource :=
  match w.pushing, answer with
  | some (entry, _, resource), .result { status := .success, .. } => Function.update received entry.key resource
  | some (entry, _, _), .result { status := .absent, .. } => Function.update received entry.key none
  | _, _ => received

/-- The next statement of the pass, with the answer to the push if it is one. -/
def advance (w : Worker) (db : Db) (remoteIds : RemoteIds) (token : Token) (answer : Answer) : Worker × Db :=
  match w.stage, w.entries, w.groups with
  | .between, [], [] => (w, db)
  | .between, [], (spId, entries) :: groups => ({ w with target := resolveTarget db spId token, entries, groups }, db)
  | .between, entry :: entries, _ =>
    match w.target with
    | .orphaned => ({ w with entries }, db.deleteEntry entry.id)
    | .reachable (.decryptFailed credentialId) =>
      ({ w with entries }, recordDeadLetter db entry ("credential_decrypt_failed: credential " ++
        Numeral.decimal credentialId ++ " ciphertext could not be decrypted (check SECRET_KEY rotation)"))
    | .reachable .missing =>
      ({ w with entries }, recordDeadLetter db entry
        "no_credential_source: outbound SCIM credential is not configured for this SP")
    | .reachable .ok =>
      ({ w with entries, stage := .resolved entry (remoteIds entry.key) (sentResource db remoteIds entry.key) }, db)
  | .resolved entry _ _, _, _ => ({ w with stage := .answered entry answer }, db)
  | .answered entry answer, _, _ => ({ w with stage := .between }, recordAnswer db entry w.now answer)

end Worker

/-- A change of the directory: one commit, and the resources that it enqueues, which are all those it touches. -/
structure Change where
  apply : Db → Db
  keys : Db → List PushKey
  keepsQueue : ∀ db, (apply db).scimPushQueue = db.scimPushQueue
  keepsIds : ∀ db, db.nextId ≤ (apply db).nextId
  covers : ∀ db key, key ∉ keys db → currentResource (apply db) key = currentResource db key

/-- The directory, the ids that the receivers gave, what they last received, the passes in flight, and for each change
in flight the resources that it has still to enqueue. -/
structure Provisioner where
  db : Db
  remoteIds : RemoteIds
  received : PushKey → Option Resource
  workers : List Worker := []
  changes : List (List PushKey) := []

inductive ProvisionerEvent
  | tick (elapsed : Nat)
  | change (change : Change)
  | enqueue (i : Nat)
  | startPass
  | work (i : Nat) (token : Token) (transport : Transport)

namespace Provisioner

def step (putsGroups : Id → Bool) (s : Provisioner) : ProvisionerEvent → Provisioner
  | .tick elapsed => { s with db := { s.db with now := s.db.now + elapsed } }
  | .change change => { s with db := change.apply s.db, changes := s.changes ++ [change.keys s.db] }
  | .enqueue i =>
    match s.changes[i]? with
    | some (key :: keys) => { s with db := s.db.upsertEntry key, changes := s.changes.set i keys }
    | _ => s
  | .startPass =>
    { s with workers := s.workers ++
      [{ now := s.db.now, groups := groupBySp (s.db.listReadyEntries tenantDrainLimit) }] }
  | .work i token transport =>
    match s.workers[i]? with
    | some w =>
      let (answer, remoteIds) := w.dispatch putsGroups s.remoteIds transport
      let (w', db) := w.advance s.db s.remoteIds token answer
      { s with db, remoteIds, received := w.receive s.received answer, workers := s.workers.set i w' }
    | none => s

end Provisioner

variable {db : Db}

section Held

def Worker.held (w : Worker) : List PushEntry :=
  (match w.stage with
    | .between => []
    | .resolved entry _ _ | .answered entry _ => [entry]) ++ w.entries ++ w.groups.flatMap (·.2)

/-- The pass has read the resource and not yet dealt with its row. -/
def Worker.InHand (w : Worker) (key : PushKey) : Prop :=
  match w.stage with
  | .between => False
  | .resolved entry _ _ | .answered entry _ => entry.key = key

instance (w : Worker) : DecidablePred w.InHand := fun key => by
  unfold Worker.InHand
  split <;> infer_instance

def Answer.Succeeded : Answer → Prop
  | .result { status, .. } => status = .success
  | .raised _ => False

instance : DecidablePred Answer.Succeeded
  | .result { status, .. } => inferInstanceAs (Decidable (status = .success))
  | .raised _ => isFalse id

def Worker.PushSucceeds (w : Worker) (db : Db) (token : Token) (answer : Answer) : Prop :=
  match w.stage, w.entries, w.groups with
  | .between, [], (spId, _) :: _ => resolveTarget db spId token = .reachable .ok
  | .resolved _ _ _, _, _ => answer.Succeeded
  | _, _, _ => True

instance (w : Worker) (db : Db) (token : Token) (answer : Answer) : Decidable (w.PushSucceeds db token answer) := by
  unfold Worker.PushSucceeds
  split <;> infer_instance

/-- If the resource is a group, the receiver has given an id to each of its members. -/
def MembersKnown (db : Db) (remoteIds : RemoteIds) (key : PushKey) : Prop :=
  match currentResource db key with
  | some (.group _ members) => ∀ member ∈ members, (remoteIds ⟨key.spId, .user, member⟩).isSome
  | _ => True

instance (db : Db) (remoteIds : RemoteIds) (key : PushKey) : Decidable (MembersKnown db remoteIds key) := by
  unfold MembersKnown
  split <;> infer_instance

theorem sentResource_eq {remoteIds : RemoteIds} {key : PushKey} (h : MembersKnown db remoteIds key) :
    sentResource db remoteIds key = currentResource db key := by
  unfold MembersKnown at h
  unfold sentResource
  cases hresource : currentResource db key with
  | none => rfl
  | some resource =>
    cases resource with
    | user => rfl
    | group displayName members =>
      rw [hresource] at h
      simp [Resource.withoutUnmapped, filter_eq_self.mpr h]

def Worker.ReadsKnown (w : Worker) (db : Db) (remoteIds : RemoteIds) : Prop :=
  w.stage = .between → ∀ entry ∈ w.entries.head?, MembersKnown db remoteIds entry.key
  deriving Decidable

def Worker.Current (w : Worker) (db : Db) (received : PushKey → Option Resource) : Prop :=
  match w.stage with
  | .between => True
  | .resolved entry _ resource => resource = currentResource db entry.key
  | .answered entry answer => answer.Succeeded ∧ received entry.key = currentResource db entry.key

variable {e : PushEntry}

theorem mem_groupBySp {entries : List PushEntry} (h : e ∈ (groupBySp entries).flatMap (·.2)) : e ∈ entries := by
  obtain ⟨group, hgroup, he⟩ := mem_flatMap.mp h
  obtain ⟨spId, -, rfl⟩ := mem_map.mp hgroup
  exact mem_of_mem_filter he

theorem mem_of_mem_listReadyEntries {limit : Nat} (h : e ∈ db.listReadyEntries limit) : e ∈ db.scimPushQueue := by
  have hsorted := mem_of_mem_take h
  rw [mem_insertionSort] at hsorted
  exact mem_of_mem_filter hsorted

end Held

namespace Provisioner

def Succeeds (putsGroups : Id → Bool) (s : Provisioner) : ProvisionerEvent → Prop
  | .work i token transport =>
    ∀ w ∈ s.workers[i]?, w.PushSucceeds s.db token (w.dispatch putsGroups s.remoteIds transport).1
  | _ => True

instance (putsGroups : Id → Bool) (s : Provisioner) : DecidablePred (s.Succeeds putsGroups)
  | .work i _ _ => inferInstanceAs (Decidable (∀ w ∈ s.workers[i]?, _))
  | .tick _ | .change _ | .enqueue _ | .startPass => isTrue trivial

/-- No resource changes while a pass has it in hand, and no pass reads a group before all its members are known. -/
def Clear (s : Provisioner) : ProvisionerEvent → Prop
  | .change change => ∀ key ∈ change.keys s.db, ∀ w ∈ s.workers, ¬ w.InHand key
  | .work i _ _ => ∀ w ∈ s.workers[i]?, w.ReadsKnown s.db s.remoteIds
  | _ => True

instance (s : Provisioner) : DecidablePred s.Clear
  | .change change => inferInstanceAs (Decidable (∀ key ∈ change.keys s.db, ∀ w ∈ s.workers, ¬ w.InHand key))
  | .work i _ _ => inferInstanceAs (Decidable (∀ w ∈ s.workers[i]?, w.ReadsKnown s.db s.remoteIds))
  | .tick _ | .enqueue _ | .startPass => isTrue trivial

/-- Nothing is on its way for the resource: no row, no pass that holds one, no change about to enqueue it. -/
def Idle (s : Provisioner) (key : PushKey) : Prop :=
  ¬ s.db.Queued key ∧ (∀ w ∈ s.workers, ∀ e ∈ w.held, e.key ≠ key) ∧ ∀ keys ∈ s.changes, key ∉ keys
  deriving Decidable

def Labelled (label : Id → PushKey) (nextId : Id) (e : PushEntry) : Prop := e.id < nextId ∧ label e.id = e.key

structure Sound (s : Provisioner) : Prop where
  labels : ∃ label, (∀ e ∈ s.db.scimPushQueue, Labelled label s.db.nextId e) ∧
    ∀ w ∈ s.workers, ∀ e ∈ w.held, Labelled label s.db.nextId e
  targets : ∀ w ∈ s.workers, w.entries ≠ [] → w.target = .reachable .ok
  current : ∀ w ∈ s.workers, w.Current s.db s.received
  settled : ∀ key, s.received key = currentResource s.db key ∨ s.db.Queued key ∨ ∃ keys ∈ s.changes, key ∈ keys

variable {s : Provisioner} {key : PushKey} {i : Nat} {putsGroups : Id → Bool}

theorem Sound.tick (h : s.Sound) (elapsed : Nat) : (s.step putsGroups (.tick elapsed)).Sound :=
  ⟨h.labels, h.targets, h.current, h.settled⟩

theorem current_of_clear {change : Change} {w : Worker} (h : w.Current s.db s.received)
    (hclear : ∀ key ∈ change.keys s.db, ¬ w.InHand key) : w.Current (change.apply s.db) s.received := by
  have hkept : ∀ key, w.InHand key → currentResource (change.apply s.db) key = currentResource s.db key :=
    fun key hhand => change.covers s.db key fun hmem => hclear key hmem hhand
  unfold Worker.Current at h ⊢
  unfold Worker.InHand at hkept
  cases hstage : w.stage with
  | between => trivial
  | resolved entry =>
    simp only [hstage] at h hkept ⊢
    rw [h, hkept entry.key rfl]
  | answered entry answer =>
    simp only [hstage] at h hkept ⊢
    rw [hkept entry.key rfl]
    exact h

theorem Sound.change (h : s.Sound) {change : Change} (hclear : s.Clear (.change change)) :
    (s.step putsGroups (.change change)).Sound where
  labels := by
    obtain ⟨label, hqueue, hheld⟩ := h.labels
    have hgrow : ∀ e, Labelled label s.db.nextId e → Labelled label (change.apply s.db).nextId e :=
      fun e he => ⟨lt_of_lt_of_le he.1 (change.keepsIds s.db), he.2⟩
    refine ⟨label, fun e he => hgrow e (hqueue e ?_), fun w hw e he => hgrow e (hheld w hw e he)⟩
    rw [← change.keepsQueue]
    exact he
  targets := h.targets
  current w hw := current_of_clear (h.current w hw) fun key hkey => hclear key hkey w hw
  settled key := by
    by_cases hkey : key ∈ change.keys s.db
    · exact .inr (.inr ⟨_, mem_append_right _ (mem_singleton_self _), hkey⟩)
    · rcases h.settled key with hsame | ⟨e, he, hkeyOf⟩ | ⟨keys, hkeys, hmem⟩
      · exact .inl (hsame.trans (change.covers s.db key hkey).symm)
      · exact .inr (.inl ⟨e, by rw [step, change.keepsQueue]; exact he, hkeyOf⟩)
      · exact .inr (.inr ⟨keys, mem_append_left _ hkeys, hmem⟩)

theorem currentResource_upsertEntry (db : Db) (key : PushKey) :
    currentResource (db.upsertEntry key) = currentResource db := by
  unfold Db.upsertEntry
  split_ifs <;> rfl

theorem mem_upsertEntry (h : e ∈ (db.upsertEntry key).scimPushQueue) :
    (∃ old ∈ db.scimPushQueue, e.id = old.id ∧ e.key = old.key) ∨
      e.id = db.nextId ∧ e.key = key ∧ (db.upsertEntry key).nextId = db.nextId + 1 := by
  unfold Db.upsertEntry at h ⊢
  split_ifs at h ⊢ with hany
  · obtain ⟨old, hold, rfl⟩ := mem_map.mp h
    refine .inl ⟨old, hold, ?_⟩
    split_ifs <;> exact ⟨rfl, rfl⟩
  · rcases mem_concat_iff.mp h with hold | rfl
    · exact .inl ⟨e, hold, rfl, rfl⟩
    · exact .inr ⟨rfl, rfl, rfl⟩

theorem nextId_le_upsertEntry : db.nextId ≤ (db.upsertEntry key).nextId := by
  unfold Db.upsertEntry
  split_ifs
  · exact le_rfl
  · exact Nat.le_succ _

theorem queued_upsertEntry {a : PushKey} : (db.upsertEntry key).Queued a ↔ db.Queued a ∨ a = key := by
  unfold Db.upsertEntry Db.Queued
  split_ifs with hany
  · obtain ⟨e, he, hkey⟩ := any_eq_true.mp hany
    have hkey : e.key = key := by simpa using hkey
    constructor
    · rintro ⟨e', he', rfl⟩
      obtain ⟨old, hold, rfl⟩ := mem_map.mp he'
      refine .inl ⟨old, hold, ?_⟩
      split_ifs <;> rfl
    · rintro (⟨old, hold, rfl⟩ | rfl)
      · refine ⟨_, mem_map.mpr ⟨old, hold, rfl⟩, ?_⟩
        split_ifs <;> rfl
      · refine ⟨_, mem_map.mpr ⟨e, he, rfl⟩, ?_⟩
        rw [if_pos hkey]
        exact hkey
  · simp only [mem_append, mem_singleton, or_and_right, exists_or, exists_eq_left]
    exact or_congr_right eq_comm

theorem Sound.upsert (h : s.Sound) {keys : List PushKey} (hi : s.changes[i]? = some (key :: keys)) :
    ({ s with db := s.db.upsertEntry key, changes := s.changes.set i keys } : Provisioner).Sound where
  labels := by
    obtain ⟨label, hqueue, hheld⟩ := h.labels
    -- a new row gets the first unused id, which no other entry bears
    have hgrow : ∀ e, Labelled label s.db.nextId e →
        Labelled (Function.update label s.db.nextId key) (s.db.upsertEntry key).nextId e := by
      intro e he
      have hne := ne_of_lt he.1
      exact ⟨lt_of_lt_of_le he.1 nextId_le_upsertEntry, by rw [Function.update_of_ne hne]; exact he.2⟩
    refine ⟨Function.update label s.db.nextId key, fun e he => ?_, fun w hw e he => hgrow e (hheld w hw e he)⟩
    rcases mem_upsertEntry he with ⟨old, hold, hid, hkey⟩ | ⟨hid, hkey, hnext⟩
    · obtain ⟨hlt, hlabel⟩ := hgrow old (hqueue old hold)
      exact ⟨hid ▸ hlt, by rw [hid, hkey]; exact hlabel⟩
    · refine ⟨by rw [hid, hnext]; exact Nat.lt_succ_self _, ?_⟩
      rw [hid, hkey, Function.update_self]
  targets := h.targets
  current w hw := by
    have hw := h.current w hw
    unfold Worker.Current
    rw [currentResource_upsertEntry]
    exact hw
  settled a := by
    rw [currentResource_upsertEntry, queued_upsertEntry]
    rcases h.settled a with hsame | hqueued | ⟨keys', hkeys', hmem⟩
    · exact .inl hsame
    · exact .inr (.inl (.inl hqueued))
    · by_cases ha : a = key
      · exact .inr (.inl (.inr ha))
      · -- it is another change that enqueues it, or this one and later
        refine .inr (.inr ?_)
        obtain ⟨j, hj⟩ := mem_iff_getElem?.mp hkeys'
        by_cases hij : i = j
        · subst hij
          obtain rfl := Option.some.inj (hj.symm.trans hi)
          obtain ⟨hlt, -⟩ := List.getElem?_eq_some_iff.mp hi
          exact ⟨keys, mem_set hlt keys, (mem_cons.mp hmem).resolve_left ha⟩
        · exact ⟨keys', mem_iff_getElem?.mpr ⟨j, by rw [getElem?_set_ne hij, hj]⟩, hmem⟩

theorem Sound.startPass (h : s.Sound) : (s.step putsGroups .startPass).Sound where
  labels := by
    obtain ⟨label, hqueue, hheld⟩ := h.labels
    refine ⟨label, hqueue, fun w hw e he => ?_⟩
    rcases mem_concat_iff.mp hw with hold | rfl
    · exact hheld w hold e he
    · exact hqueue e (mem_of_mem_listReadyEntries (mem_groupBySp he))
  targets w hw := by
    rcases mem_concat_iff.mp hw with hold | rfl
    · exact h.targets w hold
    · exact fun hne => absurd rfl hne
  current w hw := by
    rcases mem_concat_iff.mp hw with hold | rfl
    · exact h.current w hold
    · trivial
  settled := h.settled

theorem advance_cases {w : Worker} {token : Token} {answer : Answer}
    (htarget : w.entries ≠ [] → w.target = .reachable .ok) (hcurrent : w.Current s.db s.received)
    (hknown : w.ReadsKnown s.db s.remoteIds) (hstep : w.PushSucceeds s.db token answer) :
    ∃ w', (∀ e ∈ w'.held, e ∈ w.held) ∧ (w'.entries ≠ [] → w'.target = .reachable .ok) ∧
      (w'.Current s.db s.received ∧ w.advance s.db s.remoteIds token answer = (w', s.db) ∧
          w.receive s.received answer = s.received ∨
        (∃ entry ∈ w.held, w'.stage = .answered entry answer ∧ answer.Succeeded ∧
          w.advance s.db s.remoteIds token answer = (w', s.db) ∧
          w.receive s.received answer = Function.update s.received entry.key (currentResource s.db entry.key)) ∨
        ∃ entry ∈ w.held, w'.stage = .between ∧ s.received entry.key = currentResource s.db entry.key ∧
          w.advance s.db s.remoteIds token answer = (w', s.db.deleteEntry entry.id) ∧
          w.receive s.received answer = s.received) := by
  unfold Worker.PushSucceeds at hstep
  unfold Worker.Current at hcurrent
  unfold Worker.ReadsKnown at hknown
  unfold Worker.advance Worker.receive Worker.pushing Worker.held
  cases hstage : w.stage with
  | between =>
    cases hentries : w.entries with
    | nil =>
      cases hgroups : w.groups with
      | nil => exact ⟨w, by simp [hstage, hentries, hgroups], htarget,
          .inl ⟨by simp [Worker.Current, hstage], rfl, rfl⟩⟩
      | cons group groups =>
        simp only [hstage, hentries, hgroups] at hstep
        refine ⟨_, ?_, fun _ => ?_, .inl ⟨?_, rfl, rfl⟩⟩
        · simp
        · exact hstep
        · simp [Worker.Current]
    | cons entry =>
      have hok := htarget (by simp [hentries])
      simp only [hok]
      refine ⟨_, ?_, fun _ => ?_, .inl ⟨?_, rfl, trivial⟩⟩
      · simp
      · rfl
      · exact sentResource_eq (hknown hstage entry (by simp [hentries]))
  | resolved entry remoteId resource =>
    simp only [hstage] at hstep hcurrent
    refine ⟨{ w with stage := .answered entry answer }, by simp, htarget,
      .inr (.inl ⟨entry, by simp, rfl, hstep, rfl, ?_⟩)⟩
    subst hcurrent
    cases answer with
    | raised => exact absurd hstep id
    | result result =>
      obtain ⟨status, httpStatus, reason⟩ := result
      obtain rfl := hstep
      rfl
  | answered entry answer' =>
    simp only [hstage] at hcurrent
    refine ⟨{ w with stage := .between }, fun e he => mem_cons_of_mem entry he, htarget,
      .inr (.inr ⟨entry, by simp, rfl, hcurrent.2, ?_, rfl⟩)⟩
    cases answer' with
    | raised => exact absurd hcurrent.1 id
    | result result =>
      obtain ⟨status, httpStatus, reason⟩ := result
      obtain rfl := hcurrent.1
      rfl

theorem Sound.work (h : s.Sound) {token : Token} {transport : Transport}
    (hsucceeds : s.Succeeds putsGroups (.work i token transport)) (hclear : s.Clear (.work i token transport)) :
    (s.step putsGroups (.work i token transport)).Sound := by
  obtain ⟨label, hqueue, hheld⟩ := h.labels
  cases hw : s.workers[i]? with
  | none =>
    simp only [step, hw]
    exact h
  | some w =>
    have hmem := mem_of_getElem? hw
    obtain ⟨w', hkept, htarget, hcases⟩ :=
      advance_cases (h.targets w hmem) (h.current w hmem) (hclear w hw) (hsucceeds w hw)
    have hheld' : ∀ v ∈ s.workers.set i w', ∀ e ∈ v.held, Labelled label s.db.nextId e := by
      intro v hv e he
      rcases mem_or_eq_of_mem_set hv with hold | rfl
      · exact hheld v hold e he
      · exact hheld w hmem e (hkept e he)
    have htargets : ∀ v ∈ s.workers.set i w', v.entries ≠ [] → v.target = .reachable .ok := by
      intro v hv
      rcases mem_or_eq_of_mem_set hv with hold | rfl
      · exact h.targets v hold
      · exact htarget
    rcases hcases with ⟨hcurrent, hadvance, hreceive⟩ | ⟨entry, hentry, hstage, hanswer, hadvance, hreceive⟩ |
      ⟨entry, hentry, hstage, harrived, hadvance, hreceive⟩
    · simp only [step, hw, hadvance, hreceive]
      refine ⟨⟨label, hqueue, hheld'⟩, htargets, fun v hv => ?_, h.settled⟩
      rcases mem_or_eq_of_mem_set hv with hold | rfl
      · exact h.current v hold
      · exact hcurrent
    · simp only [step, hw, hadvance, hreceive]
      -- every pass has in hand what the directory has, so a push never takes back a later one
      have harrived : ∀ key, s.received key = currentResource s.db key →
          Function.update s.received entry.key (currentResource s.db entry.key) key = currentResource s.db key := by
        intro key hsame
        by_cases hkey : key = entry.key
        · rw [hkey, Function.update_self]
        · rw [Function.update_of_ne hkey, hsame]
      refine ⟨⟨label, hqueue, hheld'⟩, htargets, fun v hv => ?_, fun key => (h.settled key).imp_left (harrived key)⟩
      rcases mem_or_eq_of_mem_set hv with hold | rfl
      · have hcurrent := h.current v hold
        unfold Worker.Current at hcurrent ⊢
        cases hv : v.stage with
        | between => trivial
        | resolved => simpa only [hv] using hcurrent
        | answered =>
          simp only [hv] at hcurrent ⊢
          exact ⟨hcurrent.1, harrived _ hcurrent.2⟩
      · simp only [Worker.Current, hstage, Function.update_self]
        exact ⟨hanswer, trivial⟩
    · simp only [step, hw, hadvance, hreceive]
      refine ⟨⟨label, fun e he => hqueue e (mem_of_mem_filter he), hheld'⟩, htargets, fun v hv => ?_, fun key => ?_⟩
      · rcases mem_or_eq_of_mem_set hv with hold | rfl
        · exact h.current v hold
        · simp [Worker.Current, hstage]
      · rcases h.settled key with hsame | ⟨e, he, hkey⟩ | hchange
        · exact .inl hsame
        · by_cases hid : e.id = entry.id
          · -- the deleted row is the one of the resource that was pushed
            have hsame : entry.key = key := by
              rw [← (hheld w hmem entry hentry).2, ← hid, (hqueue e he).2, hkey]
            exact .inl (hsame ▸ harrived)
          · exact .inr (.inl ⟨e, mem_filter.mpr ⟨he, by simpa using hid⟩, hkey⟩)
        · exact .inr (.inr hchange)

theorem Sound.step (h : s.Sound) (event : ProvisionerEvent) (hsucceeds : s.Succeeds putsGroups event)
    (hclear : s.Clear event) : (s.step putsGroups event).Sound := by
  cases event with
  | tick elapsed => exact h.tick elapsed
  | change change => exact h.change hclear
  | enqueue i =>
    cases hi : s.changes[i]? with
    | none =>
      simp only [Provisioner.step, hi]
      exact h
    | some keys =>
      cases keys with
      | nil =>
        simp only [Provisioner.step, hi]
        exact h
      | cons =>
        simp only [Provisioner.step, hi]
        exact h.upsert hi
  | startPass => exact h.startPass
  | work => exact h.work hsucceeds hclear

/-- The primary key of the queue: an id stands for one row, and was handed out before. -/
def QueueIdsUnique (db : Db) : Prop :=
  ∀ e ∈ db.scimPushQueue, e.id < db.nextId ∧ ∀ e' ∈ db.scimPushQueue, e'.id = e.id → e'.key = e.key

/-- No pass and no change is in flight, and what the applications do not have yet is in the queue. -/
structure Initial (s : Provisioner) : Prop where
  ids : QueueIdsUnique s.db
  workers : s.workers = []
  changes : s.changes = []
  received : ∀ key, s.received key = currentResource s.db key ∨ s.db.Queued key

theorem Initial.sound (h : s.Initial) : s.Sound where
  labels := by
    let label : Id → PushKey := fun id =>
      ((s.db.scimPushQueue.find? (·.id = id)).map (·.key)).getD ⟨0, .user, 0⟩
    refine ⟨label, fun e he => ⟨(h.ids e he).1, ?_⟩, by simp [h.workers]⟩
    have hsome : (s.db.scimPushQueue.find? fun e' => e'.id = e.id).isSome :=
      find?_isSome.mpr ⟨e, he, by simp⟩
    obtain ⟨e', he'⟩ := Option.isSome_iff_exists.mp hsome
    have hid : e'.id = e.id := by simpa using find?_some he'
    have hkey := (h.ids e he).2 e' (mem_of_find?_eq_some he') hid
    simp only [label, he', Option.map_some, Option.getD_some, hkey]
  targets := by simp [h.workers]
  current := by simp [h.workers]
  settled key := (h.received key).imp_right .inl

theorem currentResource_of_out_of_scope {spId userId : Id} (h : userInScopeForSp db userId spId = false) :
    currentResource db ⟨spId, .user, userId⟩ = none := by
  simp [currentResource, h]

theorem currentResource_updateUser {userId : Id} {f : User → User} (hf : ∀ u, (f u).id = u.id)
    (hkey : key ∉ (db.scimSpsGrantingUser userId).map fun sp => ⟨sp.id, .user, userId⟩) :
    currentResource (db.updateUser userId f) key = currentResource db key := by
  obtain ⟨spId, resourceType, resourceId⟩ := key
  cases resourceType with
  | group =>
    have hids : (db.updateUser userId f).users.map (·.id) = db.users.map (·.id) := by
      rw [Db.updateUser, map_map, map_inj_left]
      intro u _
      by_cases hu : u.id = userId <;> simp [hu, hf]
    have hmembers : (db.updateUser userId f).effectiveMembers resourceId = db.effectiveMembers resourceId := by
      unfold Db.effectiveMembers
      rw [hids]
      rfl
    simp only [currentResource, hmembers]
    rfl
  | user =>
    by_cases hid : resourceId = userId
    · subst hid
      have hout : userInScopeForSp db resourceId spId = false := by
        by_contra hin
        obtain ⟨sp, hsp, hspId⟩ := any_eq_true.mp (Bool.not_eq_false _ ▸ hin)
        have hspId : sp.id = spId := by simpa using hspId
        exact hkey (mem_map.mpr ⟨sp, hsp, by rw [hspId]⟩)
      rw [currentResource_of_out_of_scope hout]
      exact currentResource_of_out_of_scope hout
    · have hget : (db.updateUser userId f).getUserById resourceId = db.getUserById resourceId := by
        rw [Db.getUserById_updateUser hf, if_neg hid]
      simp only [currentResource, hget]
      rfl

def firstNameChange (userId : Id) (firstName : Text) : Change where
  apply db := db.updateUser userId fun u => { u with firstName }
  keys db := (db.scimSpsGrantingUser userId).map fun sp => ⟨sp.id, .user, userId⟩
  keepsQueue _ := rfl
  keepsIds _ := le_rfl
  covers _ _ hkey := currentResource_updateUser (fun _ => by rfl) hkey

/-- One application, and one user who is in one group; both are in the queue. -/
def oneMember (groupAt userAt : Nat) : Db where
  nextId := 10
  serviceProviders := [{ id := 1, availableToAll := true, scimEnabled := true, scimTargetUrl := some "url".toList }]
  users := [{ id := 2, firstName := "Ada" }]
  userEmails := [{ id := 3, userId := 2, email := "ada", isPrimary := true }]
  groups := [{ id := 4, name := "staff" }]
  memberships := [⟨4, 2⟩]
  lineage := [⟨4, 4, 0⟩]
  scimPushQueue := [{ id := 5, key := ⟨1, .group, 4⟩, enqueuedAt := groupAt },
    { id := 6, key := ⟨1, .user, 2⟩, enqueuedAt := userAt }]

/-- Nothing of what is in the queue has been pushed before. -/
def unsent (db : Db) : Provisioner where
  db := db
  remoteIds _ := none
  received key := if db.Queued key then none else currentResource db key

def pushed : Transport := .answered { status := .success } (some "remote")

def pass (statements : Nat) : List ProvisionerEvent := List.replicate statements (.work 0 .ok pushed)

theorem initial_unsent (hids : QueueIdsUnique db) : (unsent db).Initial where
  ids := hids
  workers := rfl
  changes := rfl
  received key := by
    by_cases hqueued : db.Queued key
    · exact .inr hqueued
    · exact .inl (if_neg hqueued)

end Provisioner

end WeftId.Scim
