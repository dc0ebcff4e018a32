import WeftId.Groups.Lineage
import WeftId.Lib.Fiber

/-!
Requests to add a child group that run at the same time, one database call at a time.  The lookup for a
cycle and the insert are separate calls, so another request may insert between them.
-/

namespace WeftId

open List Proc ClosureTable Relation Run

inductive AddChildCall
  | lookup
  | insert
  deriving DecidableEq

structure AddChildRequest where
  user : RequestingUser
  parentGroupId : Id
  childGroupId : Id

def AddChildRequest.lookup {α : Type} (call : Service α) : Fiber AddChildCall Db Error α := Fiber.atomic .lookup call

open AddChildRequest in
/-- The service `add_child`, with every database call a step of its own. -/
def AddChildRequest.steps (request : AddChildRequest) : Fiber AddChildCall Db Error Unit := do
  Fiber.require (request.user.role = .admin ∨ request.user.role = .superAdmin)
    (.forbidden "Admin access required" "admin_required" (some "admin"))
  Fiber.require (request.parentGroupId ≠ request.childGroupId)
    (.validation "A group cannot be a child of itself" "self_reference")
  let parent ← lookup (orRaise (·.getGroupById request.parentGroupId)
    (.notFound "Parent group not found" "parent_not_found"))
  let _ ← lookup (orRaise (·.getGroupById request.childGroupId) (.notFound "Child group not found" "child_not_found"))
  let umbrella ← lookup (read (isIdpUmbrellaGroup · parent))
  Fiber.require (¬ (isIdpGroup parent ∧ ¬ umbrella))
    (.validation "IdP groups cannot have children" "idp_cannot_be_parent")
  let linked ← lookup (read (·.relationshipExists request.parentGroupId request.childGroupId))
  Fiber.require (¬ linked) (.conflict "This relationship already exists" "relationship_exists")
  let cycle ← lookup (read (·.wouldCreateCycle request.parentGroupId request.childGroupId))
  Fiber.require (¬ cycle) (.validation "Adding this relationship would create a cycle" "would_create_cycle")
  let _ ← Fiber.atomic .insert (tx (·.addGroupRelationship request.parentGroupId request.childGroupId))

theorem AddChildRequest.toProc_steps {request : AddChildRequest} :
    request.steps.toProc = addChild request.user request.parentGroupId request.childGroupId := by
  simp only [steps, Fiber.toProc_bind, Fiber.toProc_require]
  rfl

inductive HierarchyEvent
  | request (request : AddChildRequest)
  | advance (i : Nat)

abbrev HierarchyServer := Pool AddChildCall Db Error Unit AddChildRequest

namespace HierarchyServer

def idle (db : Db) : HierarchyServer where
  store := db

def step (w : HierarchyServer) : HierarchyEvent → HierarchyServer
  | .request request => w.start request request.steps
  | .advance i => w.advance i

/-- A lookup changes nothing, and the insert is that of a relationship between two different groups. -/
def Allowed (request : AddChildRequest) : AddChildCall → (Db → Db) → Prop
  | .lookup, f => ∀ db, f db = db
  | .insert, f => request.parentGroupId ≠ request.childGroupId ∧
      f = (tx (·.addGroupRelationship request.parentGroupId request.childGroupId)).exec

/-- When the relationship is inserted, the lookup for a cycle would still find none. -/
def LookupHolds (request : AddChildRequest) (call : AddChildCall) (db : Db) : Prop :=
  call = .insert → db.wouldCreateCycle request.parentGroupId request.childGroupId = false
  deriving Decidable

def InsertsChecked (w : HierarchyServer) : HierarchyEvent → Prop
  | .request _ => True
  | .advance i => w.StepMeets LookupHolds i

instance (w : HierarchyServer) : (event : HierarchyEvent) → Decidable (w.InsertsChecked event)
  | .request _ => isTrue trivial
  | .advance i => inferInstanceAs (Decidable (w.StepMeets LookupHolds i))

theorem steps_allowed (request : AddChildRequest) : request.steps.Steps (Allowed request) := by
  have horRaise : ∀ {α : Type} (f : Db → Option α) (e : Error) db, (orRaise f e).exec db = db := by
    intro α f e db
    unfold exec orRaise
    cases f db with
    | none => rfl
    | some a => rfl
  refine .require fun _ => .require fun hne => .atomic (horRaise _ _) fun parent => ?_
  refine .atomic (horRaise _ _) fun _ => .atomic (fun _ => rfl) fun umbrella => .require fun _ => ?_
  refine .atomic (fun _ => rfl) fun linked => .require fun _ => .atomic (fun _ => rfl) fun cycle => .require fun _ => ?_
  exact .atomic ⟨hne, rfl⟩ fun _ => Fiber.steps_pure ()

variable {w : HierarchyServer} {db : Db} {p c : Id} {event : HierarchyEvent}

theorem lineageExact_insert (h : db.LineageExact) (hcycle : db.wouldCreateCycle p c = false) :
    ((tx (·.addGroupRelationship p c)).exec db).LineageExact := by
  cases hadd : db.addGroupRelationship p c with
  | error e =>
    rw [exec_tx_of_error hadd]
    exact h
  | ok result =>
    obtain ⟨linked, db'⟩ := result
    rw [exec_tx_of_ok hadd]
    rcases Db.addGroupRelationship_eq_ok hadd with ⟨-, rfl⟩ | ⟨-, -, hp, hc, rfl⟩
    · exact h
    · exact h.addGroupRelationship hp hc hcycle

theorem wouldCreateCycle_reaches (h : db.LineageExact) (hcycle : db.wouldCreateCycle p c = true) :
    db.HasGroup c ∧ ReflTransGen db.Edge c p := h.exact.isSome_iff.mp hcycle

theorem not_edge_of_wouldCreateCycle (h : db.LineageExact) (hcycle : db.wouldCreateCycle p c = true) :
    ¬ db.Edge p c := by
  intro hedge
  have hreach := (wouldCreateCycle_reaches h hcycle).2
  exact h.acyclic p (TransGen.head' hedge hreach)

theorem hasGroup_of_wouldCreateCycle (h : db.LineageExact) (hne : p ≠ c) (hcycle : db.wouldCreateCycle p c = true) :
    db.HasGroup p := by
  have hreach := (wouldCreateCycle_reaches h hcycle).2
  rcases ReflTransGen.cases_tail hreach with heq | ⟨b, -, hedge⟩
  · exact absurd heq hne
  · exact (h.endpoints b p hedge).2

theorem cycle_of_insert (h : db.LineageExact) (hne : p ≠ c) (hcycle : db.wouldCreateCycle p c = true) :
    ¬ Acyclic ((tx (·.addGroupRelationship p c)).exec db).Edge := by
  obtain ⟨hc, hreach⟩ := wouldCreateCycle_reaches h hcycle
  have hp := hasGroup_of_wouldCreateCycle h hne hcycle
  have hnew : db.relationshipExists p c = false := decide_eq_false (not_edge_of_wouldCreateCycle h hcycle)
  have hgroup : ∀ a, db.HasGroup a → db.getGroupById a ≠ none :=
    fun a ha => Option.isSome_iff_ne_none.mp (Db.getGroupById_isSome.mpr ha)
  have hadd : db.addGroupRelationship p c = .ok (true, { db with
      relationships := db.relationships ++ [⟨p, c⟩]
      lineage := upsertLeast db.lineage (Db.crossLineage db.lineage p c) }) := by
    simp [Db.addGroupRelationship, hne, hnew, hgroup p hp, hgroup c hc, Db.keyed_crossLineage h.keyed]
  rw [exec_tx_of_ok hadd]
  intro hacyclic
  have hold : ∀ a b, db.Edge a b → Db.Edge { db with
      relationships := db.relationships ++ [⟨p, c⟩]
      lineage := upsertLeast db.lineage (Db.crossLineage db.lineage p c) } a b :=
    fun a b hab => mem_append_left _ hab
  refine hacyclic p (TransGen.head' ?_ (ReflTransGen.mono hold c p hreach))
  exact mem_append_right _ mem_cons_self

/-- The lineage is exact, and what the requests in flight may still do is known. -/
def Sound (w : HierarchyServer) : Prop := w.store.LineageExact ∧ w.Steps Allowed

theorem sound_step (h : w.Sound) (hevent : w.InsertsChecked event) : (w.step event).Sound := by
  obtain ⟨hexact, hsteps⟩ := h
  cases event with
  | request request => exact ⟨hexact, Pool.Steps.start hsteps request (steps_allowed request)⟩
  | advance i =>
    refine ⟨?_, Pool.Steps.advance hsteps i⟩
    rcases hsteps.advance_store with ⟨hstore, -⟩ | ⟨request, call, f, hallowed, hstore, hmeets⟩
    · rw [step, hstore]
      exact hexact
    · rw [step, hstore]
      cases call with
      | lookup =>
        rw [hallowed w.store]
        exact hexact
      | insert =>
        rw [hallowed.2]
        exact lineageExact_insert hexact ((hmeets LookupHolds).mp hevent rfl)

theorem insertsChecked_of_acyclic (h : w.Sound) (hacyclic : Acyclic (w.step event).store.Edge) :
    w.InsertsChecked event := by
  obtain ⟨hexact, hsteps⟩ := h
  cases event with
  | request => trivial
  | advance i =>
    rcases hsteps.advance_store with ⟨-, hmeets⟩ | ⟨request, call, f, hallowed, hstore, hmeets⟩
    · exact hmeets LookupHolds
    · refine (hmeets LookupHolds).mpr ?_
      rintro rfl
      rw [step, hstore, hallowed.2] at hacyclic
      by_contra hcycle
      rw [Bool.not_eq_false] at hcycle
      exact cycle_of_insert hexact hallowed.1 hcycle hacyclic

/-- From an acyclic hierarchy, concurrent requests keep the relationship graph acyclic exactly in the runs in
which no insert comes after another one has made its child an ancestor of its parent. -/
theorem concurrent_addChild_acyclic_iff (h : db.LineageExact) (events : List HierarchyEvent) :
    (∀ before after, events = before ++ after → ∀ a, ¬ TransGen (run step (idle db) before).store.Edge a a) ↔
      Along step InsertsChecked (idle db) events := by
  have hstart : (idle db).Sound := ⟨h, fun _ _ hmem => absurd hmem not_mem_nil⟩
  exact reached_iff_along (fun _ _ hw hevent => sound_step hw hevent)
    (fun _ _ hw hacyclic => insertsChecked_of_acyclic hw hacyclic) (fun _ hw => hw.1.acyclic) hstart

def twoGroups : Db := run GroupCall.exec {} [.createGroup ⟨0, .admin⟩ "a", .createGroup ⟨0, .admin⟩ "b"]

theorem lineageExact_twoGroups : twoGroups.LineageExact :=
  lineageExact_run {} [.createGroup ⟨0, .admin⟩ "a", .createGroup ⟨0, .admin⟩ "b"]

def crossedRequests : List HierarchyEvent :=
  [.request ⟨⟨0, .admin⟩, 0, 1⟩, .request ⟨⟨0, .admin⟩, 1, 0⟩] ++ List.replicate 5 (.advance 0) ++
    List.replicate 5 (.advance 1) ++ [.advance 0, .advance 1]

theorem crossed_requests_close_cycle :
    twoGroups.LineageExact ∧ TransGen (run step (idle twoGroups) crossedRequests).store.Edge 0 0 := by
  have hedges : (run step (idle twoGroups) crossedRequests).store.relationships = [⟨0, 1⟩, ⟨1, 0⟩] := by
    decide +kernel
  refine ⟨lineageExact_twoGroups, TransGen.tail (b := 1) (TransGen.single ?_) ?_⟩
  · rw [Db.Edge, hedges]
    decide
  · rw [Db.Edge, hedges]
    decide

/-- The same two requests, one after the other: the second one finds the cycle. -/
theorem serial_requests_stay_acyclic :
    ¬ TransGen (run step (idle twoGroups) (.request ⟨⟨0, .admin⟩, 0, 1⟩ :: List.replicate 7 (.advance 0) ++
      .request ⟨⟨0, .admin⟩, 1, 0⟩ :: List.replicate 7 (.advance 0))).store.Edge 0 0 := by
  have hchecked : Along step InsertsChecked (idle twoGroups) (.request ⟨⟨0, .admin⟩, 0, 1⟩ ::
      List.replicate 7 (.advance 0) ++ .request ⟨⟨0, .admin⟩, 1, 0⟩ :: List.replicate 7 (.advance 0)) := by
    decide +kernel
  exact (concurrent_addChild_acyclic_iff lineageExact_twoGroups _).mpr hchecked _ [] (append_nil _).symm 0

end HierarchyServer

end WeftId
