import WeftId.Scim.Retries

/-!
Passes of several push workers over one queue.  Listing locks the rows and skips rows that are locked, but the
statement runs in a transaction of its own, which ends before the first row is worked on.  From then on nothing marks
the rows as taken, and another pass lists them again.
-/

namespace WeftId.Scim

open List Run

/-- A pass of one worker.  While the transaction of its listing is open it holds the locks of the rows it listed. -/
structure QueuePass where
  worker : Worker
  listing : Bool := true

structure PushWorkers where
  db : Db
  passes : List QueuePass := []

inductive PassEvent
  | tick (elapsed : Nat)
  | edit (edit : Edit)
  | enqueue (key : PushKey)
  | clearDeadLetter (entryId : Id)
  | reviveDeadLetteredForSp (spId : Id)
  /-- A new pass runs the listing statement. -/
  | list
  /-- The transaction of the listing commits. -/
  | commit (i : Nat)
  | work (i : Nat) (remoteIds : RemoteIds) (token : Token) (answer : Answer)

namespace PushWorkers

def start (db : Db) : PushWorkers where
  db := db

def locked (x : PushWorkers) (entryId : Id) : Bool :=
  x.passes.any fun pass => pass.listing ∧ pass.worker.held.any (·.id = entryId)

/-- The rows that the listing statement returns: ready, and not locked by another transaction. -/
def listable (x : PushWorkers) : List PushEntry :=
  Db.listReadyEntries { x.db with scimPushQueue := x.db.scimPushQueue.filter fun e => ¬ x.locked e.id } tenantDrainLimit

def unlessLocked (x : PushWorkers) (which : PushEntry → Bool) (y : PushWorkers) : PushWorkers :=
  if x.db.scimPushQueue.any fun e => which e ∧ x.locked e.id then x else y

def step (x : PushWorkers) : PassEvent → PushWorkers
  | .tick elapsed => { x with db := { x.db with now := x.db.now + elapsed } }
  | .edit edit => { x with db := edit.apply x.db }
  | .enqueue key => x.unlessLocked (·.key = key) { x with db := x.db.upsertEntry key }
  | .clearDeadLetter entryId => x.unlessLocked (·.id = entryId) { x with db := x.db.clearDeadLetter entryId }
  | .reviveDeadLetteredForSp spId =>
    x.unlessLocked (·.key.spId = spId) { x with db := x.db.reviveDeadLetteredForSp spId }
  | .list => { x with passes := x.passes ++ [{ worker := { now := x.db.now, groups := groupBySp x.listable } }] }
  | .commit i =>
    match x.passes[i]? with
    | some pass => { x with passes := x.passes.set i { pass with listing := false } }
    | none => x
  | .work i remoteIds token answer =>
    match x.passes[i]? with
    | some pass =>
      if pass.listing then x
      else
        let advanced := pass.worker.advance x.db remoteIds token answer
        x.unlessLocked (fun e => pass.worker.closing.any (·.1.id = e.id))
          { x with db := advanced.2, passes := x.passes.set i { pass with worker := advanced.1 } }
    | none => x

/-- No row is held by two passes: listed by both and recorded by neither. -/
def Exclusive (x : PushWorkers) : Prop :=
  ∀ i j : Nat, i ≠ j → ∀ p ∈ x.passes[i]?, ∀ q ∈ x.passes[j]?, ∀ e ∈ p.worker.held, ∀ e' ∈ q.worker.held, e.id ≠ e'.id

def Ready (db : Db) (entryId : Id) : Prop :=
  ∃ e ∈ db.scimPushQueue, e.id = entryId ∧ e.deadLetterAt = none ∧ ∀ t ∈ e.nextAttemptAt, t ≤ db.now
  deriving Decidable

/-- When a pass lists, no row that a pass with a committed listing holds is ready. -/
def ListsAfterWork (x : PushWorkers) : PassEvent → Prop
  | .list => ∀ p ∈ x.passes, p.listing = false → ∀ held ∈ p.worker.held, ¬ Ready x.db held.id
  | _ => True

instance (x : PushWorkers) : DecidablePred x.ListsAfterWork
  | .list => inferInstanceAs (Decidable (∀ p ∈ x.passes, _))
  | .tick _ | .edit _ | .enqueue _ | .clearDeadLetter _ | .reviveDeadLetteredForSp _ | .commit _ | .work _ _ _ _ =>
    isTrue trivial

end PushWorkers

theorem held_advance {w : Worker} {db : Db} {remoteIds : RemoteIds} {token : Token} {answer : Answer} :
    ∀ e ∈ (w.advance db remoteIds token answer).1.held, e ∈ w.held := by
  unfold Worker.advance
  cases hstage : w.stage with
  | between =>
    cases hentries : w.entries with
    | nil =>
      cases hgroups : w.groups with
      | nil => simp
      | cons => simp [Worker.held, hstage, hentries, hgroups]
    | cons =>
      cases htarget : w.target with
      | orphaned => simp +contextual [Worker.held, hstage, hentries]
      | reachable found =>
        cases found <;> simp +contextual [Worker.held, hstage, hentries]
  | resolved => simp [Worker.held, hstage]
  | answered => simp +contextual [Worker.held, hstage]

namespace PushWorkers

variable {x y : PushWorkers}

theorem Exclusive.set (h : x.Exclusive) {i : Nat} {pass pass' : QueuePass} (hi : x.passes[i]? = some pass)
    (hheld : ∀ e ∈ pass'.worker.held, e ∈ pass.worker.held) (hy : y.passes = x.passes.set i pass') : y.Exclusive := by
  -- what a pass holds now, the pass in its place held before
  have hbefore : ∀ j : Nat, ∀ q ∈ y.passes[j]?, ∃ q₀ ∈ x.passes[j]?, ∀ e ∈ q.worker.held, e ∈ q₀.worker.held := by
    intro j q hq
    rw [hy] at hq
    by_cases hij : i = j
    · subst hij
      have hlt := (List.getElem?_eq_some_iff.mp hi).1
      rw [getElem?_set_self hlt] at hq
      obtain rfl := Option.some.inj hq
      exact ⟨pass, hi, hheld⟩
    · rw [getElem?_set_ne hij] at hq
      exact ⟨q, hq, fun e he => he⟩
  intro j k hjk p hp q hq e he e' he'
  obtain ⟨p₀, hp₀, hpheld⟩ := hbefore j p hp
  obtain ⟨q₀, hq₀, hqheld⟩ := hbefore k q hq
  exact h j k hjk p₀ hp₀ q₀ hq₀ e (hpheld e he) e' (hqheld e' he')

theorem Exclusive.unlessLocked (h : x.Exclusive) (hy : y.Exclusive) (which : PushEntry → Bool) :
    (x.unlessLocked which y).Exclusive := by
  unfold PushWorkers.unlessLocked
  split_ifs
  · exact h
  · exact hy

theorem held_listed {now : Nat} (entries : List PushEntry) {e : PushEntry} :
    e ∈ Worker.held { now, groups := groupBySp entries } ↔ e ∈ entries := by
  exact (perm_groupBySp entries).mem_iff

/-- A row that is listed is not locked, so the passes that still list do not hold it, and it is ready. -/
theorem unheld_of_listable (h : x.ListsAfterWork .list) {e : PushEntry} (he : e ∈ x.listable) {p : QueuePass}
    (hp : p ∈ x.passes) {held : PushEntry} (hheld : held ∈ p.worker.held) : held.id ≠ e.id := by
  intro hid
  obtain ⟨hmem, hopen, hdue⟩ := Retrier.mem_listReadyEntries he
  obtain ⟨hqueue, hunlocked⟩ := mem_filter.mp hmem
  cases hlisting : p.listing with
  | false => exact h p hp hlisting held hheld ⟨e, hqueue, hid.symm, hopen, hdue⟩
  | true =>
    have hany : p.worker.held.any (·.id = e.id) = true := any_eq_true.mpr ⟨held, hheld, by simpa using hid⟩
    have hlocked : x.locked e.id = true := any_eq_true.mpr ⟨p, hp, by simp [hlisting, hany]⟩
    simp [hlocked] at hunlocked

theorem Exclusive.list (h : x.Exclusive) (hlists : x.ListsAfterWork .list) : (x.step .list).Exclusive := by
  -- a pass of the new state is an old one or the one that has just listed
  have hcases : ∀ {k : Nat} {r : QueuePass}, (x.step .list).passes[k]? = some r →
      x.passes[k]? = some r ∨
        k = x.passes.length ∧ r = { worker := { now := x.db.now, groups := groupBySp x.listable } } := by
    intro k r hr
    simp only [step, getElem?_append] at hr
    split_ifs at hr with hk
    · exact .inl hr
    · obtain ⟨hlt, hget⟩ := List.getElem?_eq_some_iff.mp hr
      rw [length_singleton, Nat.lt_one_iff] at hlt
      simp only [hlt, getElem_cons_zero] at hget
      exact .inr ⟨by omega, hget.symm⟩
  intro i j hij p hp q hq e he e' he'
  rcases hcases hp with hp | ⟨rfl, rfl⟩
  · rcases hcases hq with hq | ⟨rfl, rfl⟩
    · exact h i j hij p hp q hq e he e' he'
    · exact unheld_of_listable hlists ((held_listed _).mp he') (mem_of_getElem? hp) he
  · rcases hcases hq with hq | ⟨rfl, rfl⟩
    · exact (unheld_of_listable hlists ((held_listed _).mp he) (mem_of_getElem? hq) he').symm
    · exact absurd rfl hij

theorem Exclusive.step (h : x.Exclusive) {event : PassEvent} (hlists : x.ListsAfterWork event) :
    (x.step event).Exclusive := by
  cases event with
  | tick => exact h
  | edit edit => exact h
  | enqueue key =>
    apply h.unlessLocked
    exact h
  | clearDeadLetter =>
    apply h.unlessLocked
    exact h
  | reviveDeadLetteredForSp spId =>
    apply h.unlessLocked
    exact h
  | list => exact h.list hlists
  | commit i =>
    cases hi : x.passes[i]? with
    | none => simpa only [PushWorkers.step, hi] using h
    | some pass =>
      simp only [PushWorkers.step, hi]
      refine h.set hi ?_ rfl
      exact fun e he => he
  | work i =>
    cases hi : x.passes[i]? with
    | none => simpa only [PushWorkers.step, hi] using h
    | some pass =>
      simp only [PushWorkers.step, hi]
      split_ifs
      · exact h
      · apply h.unlessLocked
        exact h.set hi held_advance rfl

/-- As long as no pass lists while one whose listing has committed holds a ready row, no row is ever held by two
passes. -/
theorem passes_exclusive (db : Db) (events : List PassEvent) (h : Along step ListsAfterWork (start db) events) :
    ∀ before after, events = before ++ after → (run step (start db) before).Exclusive := by
  rintro before after rfl
  refine invariant_of_along (fun x event hx hevent => hx.step hevent) ?_ h.left
  intro i j _ p hp
  simp [start] at hp

/-- The second pass lists while the first one has the row locked, the third after the first one has dealt with it. -/
theorem passes_exclusive_in_turn :
    let events := [.enqueue ⟨1, .user, 2⟩, .list, .list, .commit 0, .work 0 (fun _ => none) .ok (.raised []),
      .work 0 (fun _ => none) .ok (.raised []), .enqueue ⟨1, .user, 3⟩, .list]
    Along step ListsAfterWork (start {}) events ∧ (run step (start {}) events).passes.map
      (fun pass => pass.worker.held.map (·.id)) = [[], [], [1]] ∧ (run step (start {}) events).Exclusive := by
  intro events
  have hevents : Along step ListsAfterWork (start {}) events := by decide +kernel
  exact ⟨hevents, by decide +kernel, passes_exclusive {} events hevents events [] (by simp)⟩

/-- The first pass lists a row and commits the listing; the second lists the row before the first has pushed it. -/
theorem row_held_by_two_passes :
    let x := run step (start {}) [.enqueue ⟨1, .user, 2⟩, .list, .commit 0, .list]
    x.passes.map (fun pass => pass.worker.held.map (·.id)) = [[0], [0]] ∧ ¬ x.Exclusive := by
  have hheld : (run step (start {}) [.enqueue ⟨1, .user, 2⟩, .list, .commit 0, .list]).passes.map
      (fun pass => pass.worker.held.map (·.id)) = [[0], [0]] := by
    decide +kernel
  refine ⟨hheld, fun h => ?_⟩
  generalize run step (start {}) [.enqueue ⟨1, .user, 2⟩, .list, .commit 0, .list] = x at hheld h
  obtain ⟨p, rest, hpasses, hp, hrest⟩ := map_eq_cons_iff.mp hheld
  obtain ⟨q, rest', rfl, hq, _⟩ := map_eq_cons_iff.mp hrest
  obtain ⟨e, _, hpheld, he, _⟩ := map_eq_cons_iff.mp hp
  obtain ⟨e', _, hqheld, he', _⟩ := map_eq_cons_iff.mp hq
  exact h 0 1 (by decide) p (by simp [hpasses]) q (by simp [hpasses]) e (by simp [hpheld]) e' (by simp [hqheld])
    (he.trans he'.symm)

end PushWorkers

end WeftId.Scim
