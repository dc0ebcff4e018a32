import WeftId.Scim.Delivery

/-!
The retries of the push worker.  Passes run one after the other; between and during them resources are enqueued
again and dead letters are revived.  A pass counts for each row what became of it, and the row's own counter bounds
the pushes of a resource until it is next enqueued or revived.
-/

namespace WeftId

open List

namespace Db

def reviveEntries (db : Db) (which : PushEntry → Bool) : Db :=
  { db with scimPushQueue := db.scimPushQueue.map fun e =>
      if which e ∧ e.deadLetterAt ≠ none then { e with deadLetterAt := none, attempts := 0, nextAttemptAt := none }
      else e }

def clearDeadLetter (db : Db) (entryId : Id) : Db := db.reviveEntries (·.id = entryId)

def reviveDeadLetteredForSp (db : Db) (spId : Id) : Db := db.reviveEntries (·.key.spId = spId)

end Db

namespace Scim

open Run

inductive Bucket
  | succeeded
  | retried
  | deadLettered
  | skipped
  | absent

structure Summary where
  entriesProcessed : Nat := 0
  succeeded : Nat := 0
  retried : Nat := 0
  deadLettered : Nat := 0
  skipped : Nat := 0
  absent : Nat := 0

def Summary.count (summary : Summary) : Bucket → Summary
  | .succeeded => { summary with succeeded := summary.succeeded + 1 }
  | .retried => { summary with retried := summary.retried + 1 }
  | .deadLettered => { summary with deadLettered := summary.deadLettered + 1 }
  | .skipped => { summary with skipped := summary.skipped + 1 }
  | .absent => { summary with absent := summary.absent + 1 }

def retryBucket (entry : PushEntry) : Bucket := if maxAttempts ≤ entry.attempts + 1 then .deadLettered else .retried

def answerBucket (entry : PushEntry) : Answer → Bucket
  | .result result =>
    match result.status with
    | .success => .succeeded
    | .absent => .absent
    | .permanent => .deadLettered
    | .retryable => retryBucket entry
  | .raised _ => retryBucket entry

namespace Worker

def closing (w : Worker) : Option (PushEntry × Bucket) :=
  match w.stage, w.entries with
  | .between, [] => none
  | .between, entry :: _ =>
    match w.target with
    | .orphaned => some (entry, .skipped)
    | .reachable (.decryptFailed _) | .reachable .missing => some (entry, .deadLettered)
    | .reachable .ok => none
  | .resolved _ _ _, _ => none
  | .answered entry answer, _ => some (entry, answerBucket entry answer)

def finished (w : Worker) : Bool := w.stage = .between ∧ w.entries = [] ∧ w.groups = []

end Worker

structure Edit where
  apply : Db → Db
  keepsQueue : ∀ db, (apply db).scimPushQueue = db.scimPushQueue
  keepsIds : ∀ db, db.nextId ≤ (apply db).nextId

/-- The queue, the receivers' ids, the pass that is running with its counts, the pushes of each resource since it was
last enqueued or revived, and the summaries of the passes that ended. -/
structure Retrier where
  db : Db
  remoteIds : RemoteIds := fun _ => none
  pass : Option (Worker × Summary) := none
  pushes : PushKey → Nat := fun _ => 0
  summaries : List Summary := []

inductive RetryEvent
  | tick (elapsed : Nat)
  | edit (edit : Edit)
  | enqueue (key : PushKey)
  | clearDeadLetter (entryId : Id)
  | reviveDeadLetteredForSp (spId : Id)
  | startPass
  | work (token : Token) (transport : Transport)

namespace Retrier

def start (db : Db) : Retrier where
  db := { db with scimPushQueue := [] }

def revive (x : Retrier) (which : PushEntry → Bool) : Retrier :=
  { x with
    db := x.db.reviveEntries which
    pushes := fun key =>
      if x.db.scimPushQueue.any fun e => e.key = key ∧ which e ∧ e.deadLetterAt ≠ none then 0 else x.pushes key }

/-- The next statement of the running pass. -/
def work (x : Retrier) (putsGroups : Id → Bool) (w : Worker) (summary : Summary) (token : Token)
    (transport : Transport) : Retrier :=
  if w.finished then { x with pass := none, summaries := x.summaries ++ [summary] }
  else
    let dispatched := w.dispatch putsGroups x.remoteIds transport
    let advanced := w.advance x.db x.remoteIds token dispatched.1
    { x with
      db := advanced.2
      remoteIds := dispatched.2
      pass := some (advanced.1, (w.closing.map fun c => summary.count c.2).getD summary)
      pushes := (w.pushing.map fun p => Function.update x.pushes p.1.key (x.pushes p.1.key + 1)).getD x.pushes }

def step (putsGroups : Id → Bool) (x : Retrier) : RetryEvent → Retrier
  | .tick elapsed => { x with db := { x.db with now := x.db.now + elapsed } }
  | .edit edit => { x with db := edit.apply x.db }
  | .enqueue key => { x with db := x.db.upsertEntry key, pushes := Function.update x.pushes key 0 }
  | .clearDeadLetter entryId => x.revive (·.id = entryId)
  | .reviveDeadLetteredForSp spId => x.revive (·.key.spId = spId)
  | .startPass =>
    match x.pass with
    | some _ => x
    | none =>
      let entries := x.db.listReadyEntries tenantDrainLimit
      { x with pass := some ({ now := x.db.now, groups := groupBySp entries }, { entriesProcessed := entries.length }) }
  | .work token transport =>
    match x.pass with
    | some (w, summary) => x.work putsGroups w summary token transport
    | none => x

end Retrier

section Grouping

theorem perm_flatMap_eraseDups {α β : Type*} [DecidableEq β] {f : α → β} {n : Nat} :
    ∀ (keys : List β) (l : List α), keys.length ≤ n → (∀ a ∈ l, f a ∈ keys) →
      (keys.eraseDups.flatMap fun k => l.filter (f · = k)).Perm l := by
  induction n with
  | zero =>
    intro keys l hlength hmem
    obtain rfl := length_eq_zero_iff.mp (Nat.le_zero.mp hlength)
    have hnil : l = [] := eq_nil_iff_forall_not_mem.mpr fun a ha => by simpa using hmem a ha
    simp [hnil]
  | succ n ih =>
    intro keys l hlength hmem
    cases keys with
    | nil =>
      have hnil : l = [] := eq_nil_iff_forall_not_mem.mpr fun a ha => by simpa using hmem a ha
      simp [hnil]
    | cons k keys =>
      rw [eraseDups_cons, flatMap_cons]
      -- the other keys see only the elements whose key is not `k`
      have hrest : ((keys.filter fun b => !b == k).eraseDups.flatMap fun k' => l.filter (f · = k')) =
          (keys.filter fun b => !b == k).eraseDups.flatMap fun k' =>
            (l.filter fun a => !decide (f a = k)).filter (f · = k') := by
        apply flatMap_congr
        intro k' hk'
        have hne : k' ≠ k := by simpa using (mem_filter.mp (mem_eraseDups.mp hk')).2
        rw [filter_filter]
        apply filter_congr
        intro a _
        by_cases ha : f a = k' <;> simp [ha, hne]
      rw [hrest]
      have hshort : (keys.filter fun b => !b == k).length ≤ n :=
        (length_filter_le _ _).trans (Nat.le_of_succ_le_succ hlength)
      have hperm := ih (keys.filter fun b => !b == k) (l.filter fun a => !decide (f a = k)) hshort (by
        intro a ha
        obtain ⟨hal, hak⟩ := mem_filter.mp ha
        have hak : f a ≠ k := by simpa using hak
        have hkeys : f a ∈ keys := by simpa [hak] using hmem a hal
        simp [hkeys, hak])
      exact (hperm.append_left _).trans (filter_append_perm _ l)

theorem perm_groupBySp (entries : List PushEntry) : ((groupBySp entries).flatMap (·.2)).Perm entries := by
  unfold groupBySp
  rw [flatMap_map]
  apply perm_flatMap_eraseDups _ _ le_rfl
  intro e he
  exact mem_map.mpr ⟨e, he, rfl⟩

end Grouping

section Rows

structure QueueSound (queue : List PushEntry) (nextId : Id) : Prop where
  ids : (queue.map (·.id)).Nodup
  keys : (queue.map (·.key)).Nodup
  fresh : ∀ e ∈ queue, e.id < nextId

variable {queue : List PushEntry} {nextId : Id} {db : Db} {e e' : PushEntry}

theorem QueueSound.eq_of_id (h : QueueSound queue nextId) (he : e ∈ queue) (he' : e' ∈ queue) (hid : e.id = e'.id) :
    e = e' := inj_on_of_nodup_map h.ids he he' hid

theorem QueueSound.eq_of_key (h : QueueSound queue nextId) (he : e ∈ queue) (he' : e' ∈ queue) (hkey : e.key = e'.key) :
    e = e' := inj_on_of_nodup_map h.keys he he' hkey

theorem QueueSound.map (h : QueueSound queue nextId) {f : PushEntry → PushEntry} (hid : ∀ e, (f e).id = e.id)
    (hkey : ∀ e, (f e).key = e.key) : QueueSound (queue.map f) nextId where
  ids := by simpa [Function.comp_def, hid] using h.ids
  keys := by simpa [Function.comp_def, hkey] using h.keys
  fresh e' he' := by
    obtain ⟨e, he, rfl⟩ := mem_map.mp he'
    rw [hid]
    exact h.fresh e he

theorem QueueSound.filter (h : QueueSound queue nextId) (keep : PushEntry → Bool) :
    QueueSound (queue.filter keep) nextId where
  ids := h.ids.sublist (filter_sublist.map _)
  keys := h.keys.sublist (filter_sublist.map _)
  fresh e he := h.fresh e (mem_of_mem_filter he)

theorem QueueSound.append (h : QueueSound queue nextId) (hid : e.id = nextId) (hkey : ∀ old ∈ queue, old.key ≠ e.key) :
    QueueSound (queue ++ [e]) (nextId + 1) where
  ids := by
    rw [map_append]
    apply List.Nodup.append h.ids (by simp)
    intro id hold hnew
    obtain ⟨old, hmem, rfl⟩ := mem_map.mp hold
    have heq : old.id = e.id := by simpa using hnew
    exact ne_of_lt (h.fresh old hmem) (heq.trans hid)
  keys := by
    rw [map_append]
    apply List.Nodup.append h.keys (by simp)
    intro key hold hnew
    obtain ⟨old, hmem, rfl⟩ := mem_map.mp hold
    have heq : old.key = e.key := by simpa using hnew
    exact hkey old hmem heq
  fresh e' he' := by
    rcases mem_concat_iff.mp he' with hold | rfl
    · exact Nat.lt_succ_of_lt (h.fresh e' hold)
    · rw [hid]
      exact Nat.lt_succ_self nextId

theorem QueueSound.mono (h : QueueSound queue nextId) {nextId' : Id} (hle : nextId ≤ nextId') :
    QueueSound queue nextId' := ⟨h.ids, h.keys, fun e he => lt_of_lt_of_le (h.fresh e he) hle⟩

theorem QueueSound.upsertEntry (h : QueueSound db.scimPushQueue db.nextId) (key : PushKey) :
    QueueSound (db.upsertEntry key).scimPushQueue (db.upsertEntry key).nextId := by
  unfold Db.upsertEntry
  split_ifs with hany
  · apply h.map
    · intro e
      split_ifs <;> rfl
    · intro e
      split_ifs <;> rfl
  · apply h.append rfl
    intro old hold heq
    exact hany (any_eq_true.mpr ⟨old, hold, by simpa using heq⟩)

/-- A row after its resource is enqueued: another's row, the resource's own as fresh as a new one though still a dead
letter if it was, or a new row. -/
theorem mem_upsertEntry_cases {key : PushKey} (h : e' ∈ (db.upsertEntry key).scimPushQueue) :
    (e' ∈ db.scimPushQueue ∧ e'.key ≠ key) ∨ (e'.key = key ∧ e'.attempts = 0) := by
  unfold Db.upsertEntry at h
  split_ifs at h with hany
  · obtain ⟨e, he, rfl⟩ := mem_map.mp h
    by_cases hkey : e.key = key
    · exact .inr (by simp [hkey])
    · exact .inl (by simp [hkey, he])
  · rcases mem_concat_iff.mp h with hold | rfl
    · refine .inl ⟨hold, fun heq => hany (any_eq_true.mpr ⟨e', hold, by simpa using heq⟩)⟩
    · exact .inr ⟨rfl, rfl⟩

theorem exists_mem_upsertEntry {key : PushKey} (h : e ∈ db.scimPushQueue) : ∃ e' ∈ (db.upsertEntry key).scimPushQueue,
      e'.id = e.id ∧ e'.key = e.key ∧ e'.deadLetterAt = e.deadLetterAt ∧ e'.attempts ≤ e.attempts := by
  unfold Db.upsertEntry
  split_ifs with hany
  · refine ⟨_, mem_map.mpr ⟨e, h, rfl⟩, ?_⟩
    by_cases hkey : e.key = key <;> simp [hkey]
  · exact ⟨e, mem_append_left _ h, rfl, rfl, rfl, le_rfl⟩

end Rows

/-- When an entry that a pass of the time `now` could not push is due again. -/
def retryAt (entry : PushEntry) (now : Nat) : Nat := now + backoffSchedule.getD (entry.attempts + 1) 0

/-- What closing an entry does to its row: it is deleted, dead-lettered, or counted and scheduled. -/
inductive Closes (db : Db) (entry : PushEntry) (now : Nat) : Bucket → Db → Prop
  | deleted (bucket : Bucket) : Closes db entry now bucket (db.deleteEntry entry.id)
  | dead (bucket : Bucket) (error : Text) : Closes db entry now bucket (db.markDeadLetter entry.id error)
  | later (error : Text) (hattempts : entry.attempts + 1 < maxAttempts) :
      Closes db entry now .retried (db.markAttemptFailed entry.id error (retryAt entry now))

section Closing

variable {db db' : Db} {entry e' : PushEntry} {now : Nat} {bucket : Bucket}

theorem Closes.queueSound (h : Closes db entry now bucket db') (hsound : QueueSound db.scimPushQueue db.nextId) :
    QueueSound db'.scimPushQueue db'.nextId := by
  cases h with
  | deleted => exact hsound.filter _
  | dead _ error | later error hattempts =>
    apply hsound.map
    · intro e
      split_ifs <;> rfl
    · intro e
      split_ifs <;> rfl

theorem Closes.keeps (h : Closes db entry now bucket db') {e : PushEntry} (he : e ∈ db.scimPushQueue)
    (hid : e.id ≠ entry.id) : e ∈ db'.scimPushQueue := by
  cases h with
  | deleted => exact mem_filter.mpr ⟨he, by simpa using hid⟩
  | dead _ error | later error hattempts => exact mem_map.mpr ⟨e, he, if_neg hid⟩

theorem Closes.mem_cases (h : Closes db entry now bucket db') (he' : e' ∈ db'.scimPushQueue) :
    (e' ∈ db.scimPushQueue ∧ e'.id ≠ entry.id) ∨ ∃ e ∈ db.scimPushQueue, e.id = entry.id ∧ e'.key = e.key ∧
        (e'.deadLetterAt ≠ none ∨ e'.attempts = e.attempts + 1 ∧ entry.attempts + 1 < maxAttempts ∧
          bucket = .retried ∧ e'.nextAttemptAt = some (retryAt entry now)) := by
  cases h with
  | deleted =>
    obtain ⟨he, hid⟩ := mem_filter.mp he'
    exact .inl ⟨he, by simpa using hid⟩
  | dead _ error =>
    obtain ⟨e, he, rfl⟩ := mem_map.mp he'
    by_cases hid : e.id = entry.id
    · exact .inr ⟨e, he, hid, by simp [hid], .inl (by simp [hid])⟩
    · exact .inl (by simp [hid, he])
  | later error hattempts =>
    obtain ⟨e, he, rfl⟩ := mem_map.mp he'
    by_cases hid : e.id = entry.id
    · exact .inr ⟨e, he, hid, by simp [hid], .inr (by simp [hid, hattempts])⟩
    · exact .inl (by simp [hid, he])

end Closing

theorem lt_retryAt {entry : PushEntry} (now : Nat) (h : entry.attempts + 1 < maxAttempts) :
    now < retryAt entry now := by
  have hcases : entry.attempts = 0 ∨ entry.attempts = 1 ∨ entry.attempts = 2 ∨ entry.attempts = 3 := by
    unfold maxAttempts at h
    omega
  unfold retryAt
  rcases hcases with hn | hn | hn | hn <;> simp [hn, backoffSchedule]

variable {entry : PushEntry} {db : Db}

theorem closes_recordRetryOrDeadLetter {now : Nat} {reason : Text} :
    Closes db entry now (retryBucket entry) (recordRetryOrDeadLetter db entry now reason) := by
  unfold recordRetryOrDeadLetter retryBucket
  split_ifs with hcap
  · exact .dead _ _
  · exact .later _ (Nat.lt_of_not_le hcap)

theorem closes_recordAnswer {now : Nat} {answer : Answer} :
    Closes db entry now (answerBucket entry answer) (recordAnswer db entry now answer) := by
  cases answer with
  | raised => exact closes_recordRetryOrDeadLetter
  | result result =>
    obtain ⟨status, httpStatus, reason⟩ := result
    cases status with
    | success => exact .deleted _
    | absent => exact .deleted _
    | permanent => exact .dead _ _
    | retryable => exact closes_recordRetryOrDeadLetter

def Worker.unrecorded (w : Worker) (key : PushKey) : Nat :=
  match w.stage with
  | .answered entry _ => if entry.key = key then 1 else 0
  | _ => 0

variable {w : Worker} {x : Retrier}

namespace Retrier

/-- The statements of a pass: it ends, goes on to the next application or reads a resource, pushes what it read, or
closes an entry. -/
inductive Works (x : Retrier) (w : Worker) (summary : Summary) : Retrier → Prop
  | ends (hheld : w.held = []) (hclosing : w.closing = none) (hunrecorded : ∀ key, w.unrecorded key = 0) :
      Works x w summary { x with pass := none, summaries := x.summaries ++ [summary] }
  | moves (w' : Worker) (hheld : w'.held = w.held) (hnow : w'.now = w.now) (hclosing : w.closing = none)
      (hunrecorded : ∀ key, w'.unrecorded key = w.unrecorded key) :
      Works x w summary { x with pass := some (w', summary) }
  | pushes (w' : Worker) (entry : PushEntry) (remoteIds : RemoteIds) (hentry : entry ∈ w.held)
      (hheld : w'.held = w.held)
      (hnow : w'.now = w.now) (hclosing : w.closing = none) (hbefore : ∀ key, w.unrecorded key = 0)
      (hafter : ∀ key, w'.unrecorded key = if entry.key = key then 1 else 0) :
      Works x w summary { x with
        remoteIds, pass := some (w', summary)
        pushes := Function.update x.pushes entry.key (x.pushes entry.key + 1) }
  | closes (w' : Worker) (entry : PushEntry) (bucket : Bucket) (db : Db) (hheld : w.held = entry :: w'.held)
      (hnow : w'.now = w.now) (hclosing : w.closing = some (entry, bucket))
      (hcloses : Closes x.db entry w.now bucket db)
      (hbefore : ∀ key, w.unrecorded key ≤ if entry.key = key then 1 else 0) (hafter : ∀ key, w'.unrecorded key = 0) :
      Works x w summary { x with db, pass := some (w', summary.count bucket) }

variable {summary : Summary}

theorem works_between {putsGroups : Id → Bool} {token : Token} {transport : Transport} (hstage : w.stage = .between) :
    Works x w summary (x.work putsGroups w summary token transport) := by
  have hunrecorded : ∀ key, w.unrecorded key = 0 := fun key => by simp [Worker.unrecorded, hstage]
  have hpushing : w.pushing = none := by simp [Worker.pushing, hstage]
  unfold work Worker.dispatch Worker.advance
  cases hentries : w.entries with
  | nil =>
    have hclosing : w.closing = none := by simp [Worker.closing, hstage, hentries]
    cases hgroups : w.groups with
    | nil =>
      have hfinished : w.finished = true := by simp [Worker.finished, hstage, hentries, hgroups]
      rw [if_pos hfinished]
      exact .ends (by simp [Worker.held, hstage, hentries, hgroups]) hclosing hunrecorded
    | cons =>
      have hfinished : ¬ w.finished = true := by simp [Worker.finished, hgroups]
      rw [if_neg hfinished]
      simp only [hpushing, hstage, hclosing]
      refine .moves _ ?_ rfl hclosing ?_
      · simp [Worker.held, hstage, hentries, hgroups]
      · simp [Worker.unrecorded, hstage]
  | cons entry entries =>
    have hfinished : ¬ w.finished = true := by simp [Worker.finished, hentries]
    rw [if_neg hfinished]
    have hheld : w.held = entry :: (entries ++ w.groups.flatMap (·.2)) := by simp [Worker.held, hstage, hentries]
    have hbefore : ∀ key, w.unrecorded key ≤ if entry.key = key then 1 else 0 := fun key => by simp [hunrecorded]
    simp only [hpushing, hstage]
    cases htarget : w.target with
    | orphaned =>
      have hclosing : w.closing = some (entry, .skipped) := by simp [Worker.closing, hstage, hentries, htarget]
      simp only [hclosing]
      exact .closes _ entry .skipped _ (hheld.trans (by simp [Worker.held])) rfl hclosing (.deleted _) hbefore
        fun key => by simp [Worker.unrecorded]
    | reachable found =>
      cases found with
      | ok =>
        have hclosing : w.closing = none := by simp [Worker.closing, hstage, hentries, htarget]
        simp only [hclosing]
        exact .moves _ (Eq.trans (by simp [Worker.held]) hheld.symm) rfl hclosing fun key => by
          simp [Worker.unrecorded, hstage]
      | decryptFailed credentialId | missing =>
        have hclosing : w.closing = some (entry, .deadLettered) := by simp [Worker.closing, hstage, hentries, htarget]
        simp only [hclosing]
        exact .closes _ entry .deadLettered _ (hheld.trans (by simp [Worker.held])) rfl hclosing (.dead _ _) hbefore
          fun key => by simp [Worker.unrecorded]

theorem works (x : Retrier) (putsGroups : Id → Bool) (w : Worker) (summary : Summary) (token : Token)
    (transport : Transport) : Works x w summary (x.work putsGroups w summary token transport) := by
  cases hstage : w.stage with
  | between => exact works_between hstage
  | resolved entry remoteId resource =>
    have hfinished : ¬ w.finished = true := by simp [Worker.finished, hstage]
    have hclosing : w.closing = none := by simp [Worker.closing, hstage]
    have hpushing : w.pushing = some (entry, remoteId, resource) := by simp [Worker.pushing, hstage]
    unfold work Worker.advance
    rw [if_neg hfinished]
    simp only [hpushing, hstage, hclosing]
    exact .pushes _ entry _ (by simp [Worker.held, hstage]) (by simp [Worker.held, hstage]) rfl hclosing
      (fun key => by simp [Worker.unrecorded, hstage]) fun key => by simp [Worker.unrecorded]
  | answered entry answer =>
    have hfinished : ¬ w.finished = true := by simp [Worker.finished, hstage]
    have hclosing : w.closing = some (entry, answerBucket entry answer) := by simp [Worker.closing, hstage]
    have hpushing : w.pushing = none := by simp [Worker.pushing, hstage]
    unfold work Worker.dispatch Worker.advance
    rw [if_neg hfinished]
    simp only [hpushing, hstage, hclosing]
    exact .closes _ entry _ _ (by simp [Worker.held, hstage]) rfl hclosing closes_recordAnswer
      (fun key => by simp [Worker.unrecorded, hstage]) fun key => by simp [Worker.unrecorded]

def unrecorded (x : Retrier) (key : PushKey) : Nat :=
  match x.pass with
  | some (w, _) => w.unrecorded key
  | none => 0

/-- The row of an entry that a pass holds: open, with no more attempts than when it was listed as due. -/
def HasRow (db : Db) (now : Nat) (held : PushEntry) : Prop :=
  (held.attempts < maxAttempts ∧ ∀ t ∈ held.nextAttemptAt, t ≤ now) ∧ ∃ e ∈ db.scimPushQueue,
    e.id = held.id ∧ e.key = held.key ∧ e.deadLetterAt = none ∧ e.attempts ≤ held.attempts

end Retrier

def Summary.total (summary : Summary) : Nat :=
  summary.succeeded + summary.absent + summary.retried + summary.deadLettered + summary.skipped

namespace Retrier

/-- What holds of a pass: it holds open rows, each once, and has counted all the others that it listed. -/
structure PassSound (db : Db) (w : Worker) (summary : Summary) : Prop where
  ids : (w.held.map (·.id)).Nodup
  rows : ∀ held ∈ w.held, HasRow db w.now held
  counts : summary.total + w.held.length = summary.entriesProcessed

structure Sound (x : Retrier) : Prop where
  queue : QueueSound x.db.scimPushQueue x.db.nextId
  bounded : ∀ key, x.pushes key ≤ maxAttempts
  live : ∀ e ∈ x.db.scimPushQueue, e.deadLetterAt = none →
    e.attempts < maxAttempts ∧ x.pushes e.key ≤ e.attempts + x.unrecorded e.key
  pass : ∀ p ∈ x.pass, PassSound x.db p.1 p.2
  summaries : ∀ summary ∈ x.summaries, summary.total = summary.entriesProcessed

theorem PassSound.mono {db' : Db} (h : PassSound db w summary)
    (hrows : ∀ e ∈ db.scimPushQueue, e.deadLetterAt = none → ∃ e' ∈ db'.scimPushQueue,
      e'.id = e.id ∧ e'.key = e.key ∧ e'.deadLetterAt = none ∧ e'.attempts ≤ e.attempts) : PassSound db' w summary where
  ids := h.ids
  rows held hheld := by
    obtain ⟨hlisted, e, he, hid, hkey, hopen, hattempts⟩ := h.rows held hheld
    obtain ⟨e', he', hid', hkey', hopen', hattempts'⟩ := hrows e he hopen
    exact ⟨hlisted, e', he', hid'.trans hid, hkey'.trans hkey, hopen', hattempts'.trans hattempts⟩
  counts := h.counts

section Steps

variable {x : Retrier} {putsGroups : Id → Bool} {db : Db}

theorem sound_start (db : Db) : Sound (start db) where
  queue := by constructor <;> simp [start]
  bounded key := Nat.zero_le _
  live := by simp [start]
  pass := by simp [start]
  summaries := by simp [start]

theorem Sound.edit (h : Sound x) (edit : Edit) : Sound (x.step putsGroups (.edit edit)) := by
  have hqueue := edit.keepsQueue x.db
  constructor
  · simp only [step, hqueue]
    exact h.queue.mono (edit.keepsIds x.db)
  · exact h.bounded
  · simp only [step, hqueue]
    exact h.live
  · intro p hp
    apply (h.pass p hp).mono
    intro e he hopen
    exact ⟨e, by simpa only [step, hqueue] using he, rfl, rfl, hopen, le_rfl⟩
  · exact h.summaries

theorem Sound.enqueue (h : Sound x) (key : PushKey) : Sound (x.step putsGroups (.enqueue key)) where
  queue := h.queue.upsertEntry key
  bounded key' := by
    by_cases hkey : key' = key
    · simp [step, hkey]
    · simpa [step, hkey] using h.bounded key'
  live e' he' hopen := by
    rcases mem_upsertEntry_cases he' with ⟨he, hkey⟩ | ⟨hkey, hattempts⟩
    · have hlive := h.live e' he hopen
      have hpushes : (x.step putsGroups (.enqueue key)).pushes e'.key = x.pushes e'.key := by simp [step, hkey]
      rw [hpushes]
      exact hlive
    · simp [step, hkey, hattempts, maxAttempts]
  pass p hp := by
    apply (h.pass p hp).mono
    intro e he hopen
    obtain ⟨e', he', hid, hkey, hdead, hattempts⟩ := exists_mem_upsertEntry he
    exact ⟨e', he', hid, hkey, hdead.trans hopen, hattempts⟩
  summaries := h.summaries

theorem Sound.revive (h : Sound x) (which : PushEntry → Bool) : Sound (x.revive which) where
  queue := by
    apply h.queue.map
    · intro e
      split_ifs <;> rfl
    · intro e
      split_ifs <;> rfl
  bounded key := by
    simp only [Retrier.revive]
    split_ifs
    · exact Nat.zero_le _
    · exact h.bounded key
  live e' he' hopen := by
    obtain ⟨e, he, rfl⟩ := mem_map.mp he'
    by_cases hrevived : which e = true ∧ e.deadLetterAt ≠ none
    · -- the row is as new, and so is the count of its pushes
      have hany : (x.db.scimPushQueue.any fun other =>
          other.key = e.key ∧ which other ∧ other.deadLetterAt ≠ none) = true :=
        any_eq_true.mpr ⟨e, he, by simp [hrevived.1, hrevived.2]⟩
      simp only [Retrier.revive, if_pos hrevived, hany]
      exact ⟨by decide, Nat.zero_le _⟩
    · rw [if_neg hrevived] at hopen ⊢
      have hlive := h.live e he hopen
      refine ⟨hlive.1, ?_⟩
      simp only [Retrier.revive]
      split_ifs
      · exact Nat.zero_le _
      · exact hlive.2
  pass p hp := by
    apply (h.pass p hp).mono
    intro e he hopen
    exact ⟨e, mem_map.mpr ⟨e, he, if_neg fun hrevived => hrevived.2 hopen⟩, rfl, rfl, hopen, le_rfl⟩
  summaries := h.summaries

variable {e : PushEntry} {limit : Nat}

theorem mem_listReadyEntries (h : e ∈ db.listReadyEntries limit) :
    e ∈ db.scimPushQueue ∧ e.deadLetterAt = none ∧ ∀ t ∈ e.nextAttemptAt, t ≤ db.now := by
  have hsorted := mem_of_mem_take h
  rw [mem_insertionSort] at hsorted
  obtain ⟨hmem, hready⟩ := mem_filter.mp hsorted
  have hready : e.deadLetterAt = none ∧ e.nextAttemptAt.all (· ≤ db.now) := by simpa using hready
  refine ⟨hmem, hready.1, fun t ht => ?_⟩
  obtain ht : e.nextAttemptAt = some t := ht
  simpa [ht] using hready.2

theorem nodup_listReadyEntries (h : QueueSound db.scimPushQueue db.nextId) :
    ((db.listReadyEntries limit).map (·.id)).Nodup := by
  apply List.Nodup.sublist ((take_sublist _ _).map _)
  apply ((perm_insertionSort _ _).map _).nodup_iff.mpr
  exact h.ids.sublist (filter_sublist.map _)

theorem Sound.startPass (h : Sound x) : Sound (x.step putsGroups .startPass) := by
  cases hpass : x.pass with
  | some p => simpa only [step, hpass] using h
  | none =>
    simp only [step, hpass]
    have hperm := perm_groupBySp (x.db.listReadyEntries tenantDrainLimit)
    have hheld : Worker.held { now := x.db.now, groups := groupBySp (x.db.listReadyEntries tenantDrainLimit) } =
        (groupBySp (x.db.listReadyEntries tenantDrainLimit)).flatMap (·.2) := by
      simp [Worker.held]
    constructor
    · exact h.queue
    · exact h.bounded
    · intro e he hopen
      have hlive := h.live e he hopen
      simp only [unrecorded, hpass] at hlive
      exact hlive
    · intro p hp
      obtain rfl := Option.some.inj hp
      constructor
      · rw [hheld]
        exact (hperm.map _).nodup_iff.mpr (nodup_listReadyEntries h.queue)
      · intro held hmem
        rw [hheld] at hmem
        obtain ⟨hqueue, hopen, hdue⟩ := mem_listReadyEntries (hperm.mem_iff.mp hmem)
        exact ⟨⟨(h.live held hqueue hopen).1, hdue⟩, held, hqueue, rfl, rfl, hopen, le_rfl⟩
      · rw [hheld, hperm.length_eq]
        simp [Summary.total]
    · exact h.summaries

theorem Sound.push (h : Sound x) {w' : Worker} {remoteIds : RemoteIds}
    (hpass : x.pass = some (w, summary)) (hentry : entry ∈ w.held) (hheld : w'.held = w.held) (hnow : w'.now = w.now)
    (hbefore : ∀ key, w.unrecorded key = 0) (hafter : ∀ key, w'.unrecorded key = if entry.key = key then 1 else 0) :
    Sound { x with
      remoteIds, pass := some (w', summary)
      pushes := Function.update x.pushes entry.key (x.pushes entry.key + 1) } := by
  have hsound := h.pass _ hpass
  obtain ⟨-, row, hrow, -, hrowKey, hrowOpen, -⟩ := hsound.rows entry hentry
  -- before the push the row counts every push of the resource
  have hcounted : ∀ e ∈ x.db.scimPushQueue, e.deadLetterAt = none → e.attempts < maxAttempts ∧
      x.pushes e.key ≤ e.attempts := by
    intro e he hopen
    have hlive := h.live e he hopen
    simpa only [unrecorded, hpass, hbefore, add_zero] using hlive
  constructor
  · exact h.queue
  · intro key
    by_cases hkey : key = entry.key
    · have hrowCounted := hcounted row hrow hrowOpen
      rw [hrowKey] at hrowCounted
      simp only [hkey, Function.update_self]
      omega
    · simpa [hkey] using h.bounded key
  · intro e he hopen
    have hlive := hcounted e he hopen
    simp only [unrecorded, hafter]
    by_cases hkey : e.key = entry.key
    · simp only [hkey, Function.update_self, if_true]
      rw [hkey] at hlive
      omega
    · rw [Function.update_of_ne hkey, if_neg fun heq => hkey heq.symm]
      exact hlive
  · intro p hp
    obtain rfl := Option.some.inj hp
    refine ⟨?_, ?_, ?_⟩
    · rw [hheld]
      exact hsound.ids
    · rw [hheld, hnow]
      exact hsound.rows
    · rw [hheld]
      exact hsound.counts
  · exact h.summaries

theorem Sound.close (h : Sound x) {w' : Worker} {bucket : Bucket}
    (hpass : x.pass = some (w, summary)) (hheld : w.held = entry :: w'.held) (hnow : w'.now = w.now)
    (hcloses : Closes x.db entry w.now bucket db) (hbefore : ∀ key, w.unrecorded key ≤ if entry.key = key then 1 else 0)
    (hafter : ∀ key, w'.unrecorded key = 0) : Sound { x with db, pass := some (w', summary.count bucket) } := by
  have hsound := h.pass _ hpass
  have hids := hsound.ids
  rw [hheld, map_cons, nodup_cons] at hids
  obtain ⟨-, row, hrow, hrowId, hrowKey, hrowOpen, hrowAttempts⟩ := hsound.rows entry (by simp [hheld])
  constructor
  · exact hcloses.queueSound h.queue
  · exact h.bounded
  · intro e' he' hopen
    simp only [unrecorded, hafter, Nat.add_zero]
    rcases hcloses.mem_cases he' with ⟨he, hid⟩ | ⟨e, he, hid, hkey, hdead | ⟨hattempts, hcap, -⟩⟩
    · have hkey : entry.key ≠ e'.key := by
        intro heq
        have hsame := h.queue.eq_of_key he hrow (heq.symm.trans hrowKey.symm)
        exact hid (hsame ▸ hrowId)
      have hzero : w.unrecorded e'.key = 0 := by
        have hle := hbefore e'.key
        rw [if_neg hkey] at hle
        omega
      have hlive := h.live e' he hopen
      simpa only [unrecorded, hpass, hzero, add_zero] using hlive
    · exact absurd hopen hdead
    · obtain rfl := h.queue.eq_of_id he hrow (hid.trans hrowId.symm)
      have hlive := (h.live e he hrowOpen).2
      simp only [unrecorded, hpass] at hlive
      have hone : w.unrecorded e.key ≤ 1 := by
        have hle := hbefore e.key
        split_ifs at hle <;> omega
      rw [hkey]
      constructor <;> omega
  · intro p hp
    obtain rfl := Option.some.inj hp
    refine ⟨hids.2, ?_, ?_⟩
    · intro held hmem
      obtain ⟨hlisted, e, he, hid, hrest⟩ := hsound.rows held (by simp [hheld, hmem])
      rw [hnow]
      refine ⟨hlisted, e, hcloses.keeps he ?_, hid, hrest⟩
      intro heq
      exact hids.1 (mem_map.mpr ⟨held, hmem, hid.symm.trans heq⟩)
    · have hcounts := hsound.counts
      rw [hheld, length_cons] at hcounts
      cases bucket <;> simp only [Summary.count, Summary.total] at hcounts ⊢ <;> omega
  · exact h.summaries

theorem Sound.work (h : Sound x) (token : Token) (transport : Transport) :
    Sound (x.step putsGroups (.work token transport)) := by
  cases hpass : x.pass with
  | none => simpa only [step, hpass] using h
  | some p =>
    obtain ⟨w, summary⟩ := p
    have hsound := h.pass _ hpass
    have hworks := works x putsGroups w summary token transport
    simp only [step, hpass]
    generalize x.work putsGroups w summary token transport = y at hworks ⊢
    cases hworks with
    | ends hheld hclosing hunrecorded =>
      refine ⟨h.queue, h.bounded, fun e he hopen => ?_, by simp, fun summary' hmem => ?_⟩
      · have hlive := h.live e he hopen
        simpa only [unrecorded, hpass, hunrecorded] using hlive
      · rcases mem_concat_iff.mp hmem with hold | rfl
        · exact h.summaries summary' hold
        · have hcounts := hsound.counts
          simpa [hheld] using hcounts
    | moves w' hheld hnow hclosing hunrecorded =>
      refine ⟨h.queue, h.bounded, fun e he hopen => ?_, fun p hp => ?_, h.summaries⟩
      · have hlive := h.live e he hopen
        simpa only [unrecorded, hpass, hunrecorded] using hlive
      · obtain rfl := Option.some.inj hp
        refine ⟨?_, ?_, ?_⟩
        · rw [hheld]
          exact hsound.ids
        · rw [hheld, hnow]
          exact hsound.rows
        · rw [hheld]
          exact hsound.counts
    | pushes w' entry remoteIds hentry hheld hnow hclosing hbefore hafter =>
      exact h.push hpass hentry hheld hnow hbefore hafter
    | closes w' entry bucket db hheld hnow hclosing hcloses hbefore hafter =>
      exact h.close hpass hheld hnow hcloses hbefore hafter

theorem Sound.step (h : Sound x) (event : RetryEvent) : Sound (x.step putsGroups event) := by
  cases event with
  | tick => exact ⟨h.queue, h.bounded, h.live, fun p hp => ⟨(h.pass p hp).ids, (h.pass p hp).rows,
      (h.pass p hp).counts⟩, h.summaries⟩
  | edit edit => exact h.edit edit
  | enqueue key => exact h.enqueue key
  | clearDeadLetter => exact h.revive _
  | reviveDeadLetteredForSp spId => exact h.revive _
  | startPass => exact h.startPass
  | work token transport => exact h.work token transport

def Revives (e : PushEntry) : RetryEvent → Prop
  | .clearDeadLetter entryId => entryId = e.id
  | .reviveDeadLetteredForSp spId => spId = e.key.spId
  | _ => False

def Buried (e : PushEntry) (x : Retrier) : Prop :=
  ∃ row ∈ x.db.scimPushQueue, row.id = e.id ∧ row.key = e.key ∧ row.deadLetterAt ≠ none

theorem Buried.revive (h : Buried e x) {which : PushEntry → Bool}
    (hwhich : ∀ row : PushEntry, row.id = e.id → row.key = e.key → which row = false) : Buried e (x.revive which) := by
  obtain ⟨row, hrow, hid, hkey, hdead⟩ := h
  refine ⟨row, mem_map.mpr ⟨row, hrow, if_neg fun hrevived => ?_⟩, hid, hkey, hdead⟩
  simp [hwhich row hid hkey] at hrevived

theorem Buried.work (h : Buried e x) (hsound : Sound x) (token : Token) (transport : Transport) :
    Buried e (x.step putsGroups (.work token transport)) := by
  cases hpass : x.pass with
  | none => simpa only [Retrier.step, hpass] using h
  | some p =>
    obtain ⟨w, summary⟩ := p
    have hworks := works x putsGroups w summary token transport
    simp only [Retrier.step, hpass]
    generalize x.work putsGroups w summary token transport = y at hworks ⊢
    cases hworks with
    | closes w' entry bucket db hheld hnow hclosing hcloses =>
      -- the entry that is closed has an open row
      obtain ⟨row, hrow, hid, hkey, hdead⟩ := h
      obtain ⟨-, open_, hopen, hopenId, -, hopenOpen, -⟩ := (hsound.pass _ hpass).rows entry (by simp [hheld])
      refine ⟨row, hcloses.keeps hrow fun heq => ?_, hid, hkey, hdead⟩
      have hsame := hsound.queue.eq_of_id hrow hopen (heq.trans hopenId.symm)
      exact hdead (hsame ▸ hopenOpen)
    | _ => exact h

theorem Buried.step (h : Buried e x) (hsound : Sound x) {event : RetryEvent} (hevent : ¬ Revives e event) :
    Buried e (x.step putsGroups event) := by
  cases event with
  | tick => exact h
  | edit edit =>
    obtain ⟨row, hrow, hrest⟩ := h
    exact ⟨row, by simpa only [Retrier.step, edit.keepsQueue] using hrow, hrest⟩
  | enqueue key =>
    obtain ⟨row, hrow, hid, hkey, hdead⟩ := h
    obtain ⟨row', hrow', hid', hkey', hdead', -⟩ := exists_mem_upsertEntry hrow
    exact ⟨row', hrow', hid'.trans hid, hkey'.trans hkey, hdead' ▸ hdead⟩
  | clearDeadLetter entryId =>
    apply h.revive
    intro row hid _
    have hne : e.id ≠ entryId := fun heq => hevent heq.symm
    simp [hid, hne]
  | reviveDeadLetteredForSp spId =>
    apply h.revive
    intro row _ hkey
    have hne : e.key.spId ≠ spId := fun heq => hevent heq.symm
    simp [hkey, hne]
  | startPass =>
    cases hpass : x.pass with
    | none =>
      simp only [Retrier.step, hpass]
      exact h
    | some p => simpa only [Retrier.step, hpass] using h
  | work token transport => exact h.work hsound token transport

theorem Buried.not_listed (h : Buried e x) (hsound : Sound x) :
    ∀ listed ∈ x.db.listReadyEntries limit, listed.key ≠ e.key := by
  intro listed hlisted heq
  obtain ⟨row, hrow, -, hkey, hdead⟩ := h
  obtain ⟨hmem, hopen, -⟩ := mem_listReadyEntries hlisted
  have hsame := hsound.queue.eq_of_key hmem hrow (heq.trans hkey.symm)
  exact hdead (hsame ▸ hopen)

/-- A step that counts a failed attempt is taken before the entry is due again, which the pass reckons from the time
at which it began. -/
def OnTime (x : Retrier) (event : RetryEvent) : Prop :=
  ∀ token transport, event = .work token transport → ∀ p ∈ x.pass, ∀ c ∈ p.1.closing, c.2 = .retried →
    x.db.now < retryAt c.1 p.1.now

/-- When the step closes an entry, its resource has no row, a dead letter, or a row scheduled after the present and
after the time at which it was last scheduled. -/
def Settles (putsGroups : Id → Bool) (x : Retrier) (event : RetryEvent) : Prop :=
  ∀ token transport, event = .work token transport → ∀ p ∈ x.pass, ∀ c ∈ p.1.closing,
    ∀ row ∈ (x.step putsGroups event).db.scimPushQueue, row.key = c.1.key →
      row.deadLetterAt ≠ none ∨ ∃ t ∈ row.nextAttemptAt, x.db.now < t ∧ ∀ old ∈ c.1.nextAttemptAt, old < t

theorem Sound.settles (h : Sound x) {event : RetryEvent} (htime : OnTime x event) : Settles putsGroups x event := by
  rintro token transport rfl ⟨w, summary⟩ hpass ⟨entry, bucket⟩ hc row hrow hkey
  have htime := htime token transport rfl _ hpass _ hc
  have hpass : x.pass = some (w, summary) := hpass
  have hworks := works x putsGroups w summary token transport
  simp only [Retrier.step, hpass] at hrow
  generalize x.work putsGroups w summary token transport = y at hworks hrow
  cases hworks with
  | ends hheld hclosing => simp [hclosing] at hc
  | moves w' hheld hnow hclosing => simp [hclosing] at hc
  | pushes w' entry' remoteIds hentry hheld hnow hclosing => simp [hclosing] at hc
  | closes w' entry' bucket' db hheld hnow hclosing hcloses =>
    obtain ⟨rfl, rfl⟩ := Prod.mk.inj (Option.some.inj (hclosing.symm.trans hc))
    obtain ⟨⟨-, hdue⟩, e, he, hid, hentryKey, -⟩ := (h.pass _ hpass).rows entry' (by simp [hheld])
    rcases hcloses.mem_cases hrow with ⟨hold, hother⟩ | ⟨_, -, -, -, hdead | ⟨-, hcap, hbucket, hnext⟩⟩
    · have hsame := h.queue.eq_of_key hold he (hkey.trans hentryKey.symm)
      exact absurd (hsame ▸ hid) hother
    · exact .inl hdead
    · exact .inr ⟨_, hnext, htime hbucket, fun old hold => lt_of_le_of_lt (hdue old hold) (lt_retryAt _ hcap)⟩

end Steps

section Runs

variable {putsGroups : Id → Bool}

theorem sound_run (hx : Sound x) (events : List RetryEvent) : Sound (run (step putsGroups) x events) :=
  invariant (fun _ event h => h.step event) hx

theorem buried_run {events : List RetryEvent} (hx : Sound x) (he : Buried e x)
    (h : ∀ event ∈ events, ¬ Revives e event) : Buried e (run (step putsGroups) x events) := by
  refine (invariant_of_along (I := fun x => Sound x ∧ Buried e x) ?_ ⟨hx, he⟩ (along_of_forall h)).2
  exact fun x event hx hevent => ⟨hx.1.step event, hx.2.step hx.1 hevent⟩

/-- In every run: at most five pushes of a resource since it was last enqueued or revived, every closed entry is
gone, dead or, if the pass is on time, scheduled later, a dead letter is not listed before it is revived, and the
counts of every pass add up. -/
theorem push_retries_bounded (db : Db) (events : List RetryEvent) :
    let x := run (step putsGroups) (start db) events
    (∀ key, x.pushes key ≤ 5) ∧
      Along (step putsGroups) (fun x event => OnTime x event → Settles putsGroups x event) (start db) events ∧
      (∀ e ∈ x.db.scimPushQueue, e.deadLetterAt ≠ none → ∀ later, (∀ event ∈ later, ¬ Revives e event) →
        ∀ limit, ∀ listed ∈ (run (step putsGroups) x later).db.listReadyEntries limit, listed.key ≠ e.key) ∧
      ∀ s ∈ x.summaries, s.succeeded + s.absent + s.retried + s.deadLettered + s.skipped = s.entriesProcessed := by
  intro x
  have hsound : Sound x := sound_run (sound_start db) events
  refine ⟨hsound.bounded, ?_, ?_, hsound.summaries⟩
  · rintro l event l' rfl htime
    exact (sound_run (sound_start db) l).settles htime
  · intro e he hdead later hlater limit
    have hburied : Buried e x := ⟨e, he, rfl, rfl, hdead⟩
    exact (buried_run hsound hburied hlater).not_listed (sound_run hsound later)

def oneTarget : Db where
  serviceProviders := [{ id := 1, scimEnabled := true, scimTargetUrl := some "https://sp".toList }]

def unavailable : RetryEvent := .work .ok (.answered { status := .retryable, httpStatus := some 503 } none)

/-- A failed attempt that is recorded two minutes after its pass began leaves the entry due at once. -/
theorem late_retry_listed_at_once :
    let x := run (step fun _ => true) (start oneTarget)
      [.enqueue ⟨1, .user, 2⟩, .startPass, unavailable, unavailable, unavailable, .tick 120000000]
    let row : PushEntry := {
      id := 0, key := ⟨1, .user, 2⟩, enqueuedAt := 0, attempts := 1
      nextAttemptAt := some 60000000, lastError := some "retryable http=503".toList }
    (x.step (fun _ => true) unavailable).db.listReadyEntries tenantDrainLimit = [row] ∧
      ¬ Settles (fun _ => true) x unavailable := by
  intro x row
  have hlisted : (x.step (fun _ => true) unavailable).db.listReadyEntries tenantDrainLimit = [row] := by decide +kernel
  have hclosing : ∃ p ∈ x.pass, ∃ c ∈ p.1.closing, c.1.key = row.key := by decide +kernel
  refine ⟨hlisted, fun h => ?_⟩
  obtain ⟨p, hp, c, hc, hkey⟩ := hclosing
  have hrow : row ∈ (x.step (fun _ => true) unavailable).db.scimPushQueue :=
    (mem_listReadyEntries (hlisted ▸ mem_singleton_self row)).1
  rcases h _ _ rfl p hp c hc row hrow hkey.symm with hdead | ⟨t, ht, hlater, -⟩
  · exact hdead rfl
  · obtain rfl := Option.some.inj ht
    exact absurd hlater (by decide +kernel)

def failingPass (wait : Nat) : List RetryEvent := .startPass :: List.replicate 5 unavailable ++ [.tick wait]

-- the bound is reached: the fifth push makes the entry a dead letter, and the sixth pass finds nothing
example :
    let x := run (step fun _ => true) (start oneTarget)
      (.enqueue ⟨1, .user, 2⟩ :: (List.replicate 6 (failingPass 7200000000)).flatten)
    x.pushes ⟨1, .user, 2⟩ = 5 ∧ x.summaries.map (·.retried) = [1, 1, 1, 1, 0, 0] ∧
      x.summaries.map (·.deadLettered) = [0, 0, 0, 0, 1, 0] := by
  decide +kernel

end Runs

end Retrier

end Scim

end WeftId
