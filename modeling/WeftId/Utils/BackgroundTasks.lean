import WeftId.Env
import WeftId.Lib.Run

/-!
Background tasks and the workers that claim them.  A claim is one statement; the updates that end a task are
unconditional, and go to the right row only because no one else has claimed it.
-/

namespace WeftId

open List Run

inductive TaskStatus
  | pending | processing | completed | failed
  deriving DecidableEq

/-- The lifecycle of a row, from its creation to its deletion. -/
inductive TaskMoves : Option TaskStatus → Option TaskStatus → Prop
  | create : TaskMoves none (some .pending)
  | claim : TaskMoves (some .pending) (some .processing)
  | complete : TaskMoves (some .processing) (some .completed)
  | fail : TaskMoves (some .processing) (some .failed)
  | deleteCompleted : TaskMoves (some .completed) none
  | deleteFailed : TaskMoves (some .failed) none

/-- What a worker does next: look for a task, run the handler of the one it has claimed, or record how that ended. -/
inductive WorkerStage
  | polling
  | claimed (taskId : Id) (jobType : Text)
  | completing (taskId : Id)
  | failing (taskId : Id)

def WorkerStage.taskId : WorkerStage → Option Id
  | polling => none
  | claimed taskId _ | completing taskId | failing taskId => some taskId

/-- The columns of the table, whose keys are given out in the order of creation, the workers, and which worker has
run the handler for which task. -/
structure TaskPool where
  nextId : Id := 0
  jobTypes : Id → Text := fun _ => []
  status : Id → Option TaskStatus := fun _ => none
  workers : Nat → WorkerStage := fun _ => .polling
  executed : List (Nat × Id) := []

/-- A worker's next call returns, or raises and has written nothing: its session rolls back.  `deleteTasks` stands
for the rows that their owners delete. -/
inductive TaskEvent
  | createTask (jobType : Text)
  | advance (worker : Nat) (returns : Bool)
  | deleteTasks (taskIds : List Id)

namespace TaskPool

def setStage (s : TaskPool) (worker : Nat) (stage : WorkerStage) : TaskPool :=
  { s with workers := Function.update s.workers worker stage }

def setStatus (s : TaskPool) (taskId : Id) (status : TaskStatus) : TaskPool :=
  { s with status := Function.update s.status taskId (some status) }

/-- The loop of one worker, call by call; a call that raises while a failure is recorded ends in the loop's handler. -/
def advance (handled : Text → Bool) (s : TaskPool) (worker : Nat) (returns : Bool) : TaskPool :=
  match s.workers worker with
  | .polling =>
    match (range s.nextId).find? fun taskId => s.status taskId = some .pending with
    | none => s
    | some taskId => (s.setStatus taskId .processing).setStage worker (.claimed taskId (s.jobTypes taskId))
  | .claimed taskId jobType =>
    if handled jobType then
      { s with executed := (worker, taskId) :: s.executed }.setStage worker
        (if returns then .completing taskId else .failing taskId)
    else s.setStage worker (.failing taskId)
  | .completing taskId =>
    if returns then (s.setStatus taskId .completed).setStage worker .polling else s.setStage worker (.failing taskId)
  | .failing taskId => (if returns then s.setStatus taskId .failed else s).setStage worker .polling

def step (handled : Text → Bool) (s : TaskPool) : TaskEvent → TaskPool
  | .createTask jobType =>
    { s.setStatus s.nextId .pending with
      nextId := s.nextId + 1, jobTypes := Function.update s.jobTypes s.nextId jobType }
  | .advance worker returns => s.advance handled worker returns
  | .deleteTasks taskIds =>
    { s with
      status := fun i => if i ∈ taskIds ∧ s.status i ∈ [some .completed, some .failed] then none else s.status i }

/-- A task that is held is being processed, by one worker, and one whose handler was run is not pending any more. -/
structure Sound (s : TaskPool) : Prop where
  fresh : ∀ i, s.nextId ≤ i → s.status i = none
  held : ∀ w, ∀ i ∈ (s.workers w).taskId, s.status i = some .processing
  sole : ∀ w w', ∀ i ∈ (s.workers w).taskId, i ∈ (s.workers w').taskId → w = w'
  ran : ∀ e ∈ s.executed, e.2 < s.nextId ∧ s.status e.2 ≠ some .pending
  unrun : ∀ w i jobType, s.workers w = .claimed i jobType → ∀ e ∈ s.executed, e.2 ≠ i
  once : (s.executed.map (·.2)).Nodup

namespace Sound

variable {s : TaskPool} {w : Nat} {stage : WorkerStage} {i : Id} {status : TaskStatus} {jobType : Text}

theorem lt_nextId (h : s.Sound) (hi : s.status i = some status) : i < s.nextId := by
  by_contra hc
  simp [h.fresh i (not_lt.mp hc)] at hi

theorem setStage (h : s.Sound)
    (hid : ∀ i ∈ stage.taskId, s.status i = some .processing ∧ ∀ w', w' ≠ w → i ∉ (s.workers w').taskId)
    (hstage : ∀ i jobType, stage = .claimed i jobType → ∀ e ∈ s.executed, e.2 ≠ i) : (s.setStage w stage).Sound := by
  -- Only the stage of `w` is new, so each part is about `w` or known.
  refine { h with held := ?_, sole := ?_, unrun := ?_ } <;> simp only [TaskPool.setStage, Function.update_apply]
  · grind [h.held]
  · grind [h.sole]
  · intro w' i jobType hw'
    split at hw'
    · exact hstage i jobType hw'
    · exact h.unrun w' i jobType hw'

/-- A worker may go on with the task it holds, once past its handler, or let go of it. -/
theorem goOn (h : s.Sound) (hid : ∀ i ∈ stage.taskId, i ∈ (s.workers w).taskId)
    (hstage : ∀ i jobType, stage ≠ .claimed i jobType) : (s.setStage w stage).Sound :=
  h.setStage (fun i hi => ⟨h.held w i (hid i hi), fun w' hne hw' => hne (h.sole w' w i hw' (hid i hi))⟩)
    fun i jobType hc => absurd hc (hstage i jobType)

theorem status_setStatus {j : Id} : (s.setStatus i status).status j = if j = i then some status else s.status j :=
  Function.update_apply ..

theorem setStatus (h : s.Sound) (hfree : ∀ w, i ∉ (s.workers w).taskId) (hlt : i < s.nextId)
    (hstatus : status ≠ .pending) :
    (s.setStatus i status).Sound := by
  refine { h with fresh := fun j hj => ?_, held := fun w j hj => ?_, ran := fun e he => ⟨(h.ran e he).1, ?_⟩ }
  · rw [status_setStatus, if_neg (hlt.trans_le hj).ne', h.fresh j hj]
  · have hne : j ≠ i := by
      rintro rfl
      exact hfree w hj
    rw [status_setStatus, if_neg hne, h.held w j hj]
  · rw [status_setStatus]
    split
    · simpa using hstatus
    · exact (h.ran e he).2

theorem claim (h : s.Sound) (hi : s.status i = some .pending) :
    ((s.setStatus i .processing).setStage w (.claimed i jobType)).Sound := by
  -- Whatever is held is being processed, so nobody holds a pending task.
  have hfree : ∀ w, i ∉ (s.workers w).taskId := by
    intro w' hw'
    simp [h.held w' i hw'] at hi
  refine (h.setStatus hfree (h.lt_nextId hi) (by decide)).setStage ?_ ?_
  · rintro _ ⟨⟩
    exact ⟨by simp [status_setStatus], fun w' _ => hfree w'⟩
  · rintro _ _ ⟨⟩ e he rfl
    exact (h.ran e he).2 hi

theorem execute (h : s.Sound) (hw : s.workers w = .claimed i jobType) (hid : stage.taskId = some i)
    (hstage : ∀ i jobType, stage ≠ .claimed i jobType) :
    ({ s with executed := (w, i) :: s.executed }.setStage w stage).Sound := by
  have hheld : i ∈ (s.workers w).taskId := by rw [hw]; rfl
  have hset := h.goOn (fun j hj => by rw [hid] at hj; rw [hw]; exact hj) hstage
  refine { hset with ran := ?_, unrun := fun w' j jobType hw' => ?_, once := ?_ }
  · exact forall_mem_cons.mpr ⟨⟨h.lt_nextId (h.held w i hheld), by simp [TaskPool.setStage, h.held w i hheld]⟩, h.ran⟩
  · refine forall_mem_cons.mpr ⟨?_, hset.unrun w' j jobType hw'⟩
    -- A second worker that had claimed this task would hold it too.
    have hsole := h.sole w w' i hheld
    simp only [TaskPool.setStage] at hw'
    grind [WorkerStage.taskId]
  · refine nodup_cons.mpr ⟨fun hc => ?_, h.once⟩
    obtain ⟨e, he, heq⟩ := mem_map.mp hc
    exact h.unrun w i jobType hw e he heq

/-- The last update of a task: the worker that holds it lets go of it in the same call. -/
theorem finish (h : s.Sound) (hw : i ∈ (s.workers w).taskId) (hstatus : status ≠ .pending) :
    ((s.setStatus i status).setStage w .polling).Sound := by
  have hset : (s.setStage w .polling).Sound := h.goOn (by rintro _ ⟨⟩) (by simp)
  refine hset.setStatus (fun w' hi => ?_) (h.lt_nextId (h.held w i hw)) hstatus
  have hsole := h.sole w w' i hw
  simp only [TaskPool.setStage] at hi
  grind [WorkerStage.taskId]

/-- What a step keeps: the invariant, and every status or the order in which it moves. -/
def Follows (s s' : TaskPool) : Prop :=
  s'.Sound ∧ ∀ i, s'.status i = s.status i ∨ TaskMoves (s.status i) (s'.status i)

theorem follows_of_eq {s' : TaskPool} (h : s'.Sound) (hstatus : s'.status = s.status) : Follows s s' :=
  ⟨h, fun _ => .inl (by rw [hstatus])⟩

theorem follows_setStatus (h : ((s.setStatus i status).setStage w stage).Sound)
    (hmoves : TaskMoves (s.status i) (some status)) :
    Follows s ((s.setStatus i status).setStage w stage) := by
  refine ⟨h, fun j => ?_⟩
  change (s.setStatus i status).status j = s.status j ∨ TaskMoves (s.status j) ((s.setStatus i status).status j)
  rw [status_setStatus]
  split
  · next hj => exact .inr (hj ▸ hmoves)
  · exact .inl rfl

theorem advance (h : s.Sound) (handled : Text → Bool) (returns : Bool) : Follows s (s.advance handled w returns) := by
  unfold TaskPool.advance
  split
  · split
    · exact follows_of_eq h rfl
    · next i hfind =>
      have hpending : s.status i = some .pending := by simpa using find?_some hfind
      exact follows_setStatus (h.claim hpending) (hpending ▸ .claim)
  · next hw =>
    split
    · cases returns <;> exact follows_of_eq (h.execute hw rfl (by simp)) rfl
    · exact follows_of_eq (h.goOn (by rw [hw]; exact fun _ hi => hi) (by simp)) rfl
  · next i hw =>
    have hheld : i ∈ (s.workers w).taskId := by rw [hw]; rfl
    split
    · exact follows_setStatus (h.finish hheld (by decide)) (h.held w i hheld ▸ .complete)
    · exact follows_of_eq (h.goOn (by rw [hw]; exact fun _ hi => hi) (by simp)) rfl
  · next i hw =>
    have hheld : i ∈ (s.workers w).taskId := by rw [hw]; rfl
    split
    · exact follows_setStatus (h.finish hheld (by decide)) (h.held w i hheld ▸ .fail)
    · exact follows_of_eq (h.goOn (by rintro _ ⟨⟩) (by simp)) rfl

theorem step (h : s.Sound) (handled : Text → Bool) (event : TaskEvent) : Follows s (s.step handled event) := by
  cases event with
  | createTask jobType =>
    -- The new row has a key that no row had, so nobody holds it and its handler was not run.
    have hnone := h.fresh s.nextId le_rfl
    refine ⟨{ h with fresh := ?_, held := ?_, ran := ?_ }, fun j => ?_⟩ <;>
      simp only [TaskPool.step, TaskPool.setStatus]
    · grind [h.fresh]
    · grind [h.held]
    · intro e he
      have hran := h.ran e he
      grind
    · grind [TaskMoves.create]
  | advance w returns => exact h.advance handled returns
  | deleteTasks taskIds =>
    refine ⟨{ h with fresh := ?_, held := ?_, ran := ?_ }, fun j => ?_⟩ <;> simp only [TaskPool.step]
    · grind [h.fresh]
    · grind [h.held]
    · intro e he
      have hran := h.ran e he
      grind
    · grind [TaskMoves]

end Sound

/-- In every run no two executions are of one task, and every step moves a status only along the lifecycle. -/
theorem tasks_run_at_most_once (handled : Text → Bool) (events : List TaskEvent) (event : TaskEvent) (i : Id) :
    let s := run (step handled) {} events
    (s.executed.map (·.2)).Nodup ∧
      ((s.step handled event).status i = s.status i ∨ TaskMoves (s.status i) ((s.step handled event).status i)) := by
  have h : (run (step handled) {} events).Sound :=
    invariant (I := Sound) (fun _ event hs => (hs.step handled event).1) (by constructor <;> simp [WorkerStage.taskId])
  exact ⟨h.once, (h.step handled event).2 i⟩

end TaskPool

end WeftId
