import WeftId.Lib.Contest
import WeftId.Lib.Fiber
import WeftId.Lib.Ledger
import WeftId.Auth.Session
import WeftId.Scim.Rejection

/-!
SCIM requests that create the same user at the same time, one transaction at a time.  The row of the user and
its address are inserted in two transactions, so a call that loses the race for the address, or meets an
address that some user has as a secondary one, leaves a row without an address, and its second attempt may
leave another one.
-/

namespace WeftId

open List hiding lookup

open Proc Run Fiber

variable {α : Type}

namespace Scim

inductive CreateStep
  | statement
  | insertRow (email : Text)
  | insertAddress (userId : Id) (email : Text)
  | storeExternalId (userId : Id) (externalId : Text)

abbrev CreateFiber (α : Type) := Fiber CreateStep Db Error α

def statement {α : Type} (call : Service α) : CreateFiber α := atomic .statement call

section Steps

variable (env : Env) (idpId : Id)

def storeExternalIdSteps (userId : Id) : Option Text → CreateFiber Unit
  | some externalId => atomic (.storeExternalId userId externalId) (tx (·.setExternalId userId idpId externalId))
  | none => pure ()

def createUserSteps (canonicalEmail firstName lastName externalId : Option Text) : CreateFiber Id :=
  match canonicalEmail with
  | none => Fiber.raise (.scim 400 ("Payload missing a valid email address. Set `emails[].value` or a " ++
      "`userName` that is an email address.") (some "invalidValue"))
  | some email => do
    let userId ← atomic (.insertRow email)
      (tx (·.createUser (Text.orElse firstName "SCIM") (Text.orElse lastName "User") .member))
    let _ ← atomic (.insertAddress userId email) (tx (·.addVerifiedEmail env userId email true))
    statement (tx (·.setUserIdp userId idpId))
    storeExternalIdSteps idpId userId externalId
    pure userId

def writeNamesSteps (userId : Id) (payload : Json.Dict) : CreateFiber Unit :=
  match extractNames payload with
  | .error e => Fiber.raise e
  | .ok (first, last) => Fiber.whenever (first ≠ none ∨ last ≠ none) do
    let current ← statement (read (·.getUserById userId))
    statement (tx (·.updateUserProfile userId (first.getD ((current.map (·.firstName)).getD []))
      (last.getD ((current.map (·.lastName)).getD []))))

def applyIdpAttributesSteps (userId : Id) (attributes : List (Text × Text)) : CreateFiber Unit := do
  let _ ← statement (orRaise (·.getIdentityProvider idpId) (.notFound "Identity provider not found" "idp_not_found"))
  statement (tx fun db =>
    if serializedAttributes env attributes ≠ [] ∧ db.getUserById userId = none then
      .error (.foreignKeyViolation "user_idp_attributes_user_tenant_fkey")
    else .ok ((), db.replaceIdpAttributes userId idpId (serializedAttributes env attributes)))

def mirrorAttributesSteps (userId : Id) (attributes : List (Text × Text)) : CreateFiber Unit :=
  Fiber.rescue (applyIdpAttributesSteps env idpId userId attributes) fun _ => pure ()

def applyPayloadWritesSteps (userId : Id) (payload : Json.Dict) (updateNames : Bool) : CreateFiber Unit := do
  Fiber.whenever updateNames (writeNamesSteps userId payload)
  storeExternalIdSteps idpId userId (extractExternalId payload)
  match extractStandardAttributes env payload with
  | .error e => Fiber.raise e
  | .ok extraAttrs => Fiber.whenever (extraAttrs ≠ []) (mirrorAttributesSteps env idpId userId extraAttrs)

def deactivateSteps (userId : Id) : CreateFiber Unit := do
  statement (write (·.inactivateUser userId))
  statement (write (·.revokeAllUserTokens userId))
  statement (write (·.consumeUserSessionClients userId))

def reactivateSteps (userId : Id) : CreateFiber Unit := do
  statement (write (·.reactivateUser userId))
  statement (write (·.clearReactivationDenied userId))

def activeSteps (userId : Id) (newActive : Bool) : Option User → CreateFiber Unit
  | none => pure ()
  | some current =>
    if ¬ newActive ∧ ¬ current.isInactivated then deactivateSteps userId
    else Fiber.whenever (newActive ∧ current.isInactivated ∧ ¬ current.isAnonymized) (reactivateSteps userId)

def handleActiveTransitionSteps (userId : Id) : Option Bool → CreateFiber Unit
  | none => pure ()
  | some newActive => do
    let current ← statement (read (·.getUserById userId))
    activeSteps userId newActive current

def findUserSteps (externalId canonicalEmail : Option Text) : CreateFiber (Option Id) := do
  let byExternalId ← statement (read fun db => externalId.bind (db.getUserIdByExternalId idpId))
  match byExternalId with
  | some userId => pure (some userId)
  | none => statement (read fun db => canonicalEmail.bind (db.getUserIdByPrimaryEmail env))

def rebindSteps (userId : Id) : CreateFiber Unit := do
  let existing ← statement (read (·.getUserById userId))
  Fiber.whenever (∃ user ∈ existing, user.samlIdpId ≠ some idpId) (statement (tx (·.setUserIdp userId idpId)))

def finishSteps (payload : Json.Dict) (active : Option Bool) (created : Bool) (userId : Id) :
    CreateFiber (UserResource × Bool) := do
  applyPayloadWritesSteps env idpId userId payload (!created)
  handleActiveTransitionSteps userId active
  let resource ← statement (resolveUserPayload idpId userId)
  pure (resource, created)

def mergeSteps (payload : Json.Dict) (names : Option Text × Option Text) (canonicalEmail : Option Text)
    (active : Option Bool) : Option Id → CreateFiber (UserResource × Bool)
  | none => do
    let userId ← createUserSteps env idpId canonicalEmail names.1 names.2 (extractExternalId payload)
    finishSteps env idpId payload active true userId
  | some userId => do
    rebindSteps idpId userId
    finishSteps env idpId payload active false userId

structure CreateBody where
  canonicalEmail : Option Text
  names : Option Text × Option Text
  active : Option Bool

def readBody (payload : Json.Dict) : Except Error CreateBody := do
  ensureNoMutabilityViolation env payload "payload"
  let canonicalEmail ← extractPrimaryEmail env payload
  let names ← extractNames payload
  let active ← extractActive payload
  pure { canonicalEmail, names, active }

def createOrMergeUserAttemptSteps (payload : Json.Dict) : CreateFiber (UserResource × Bool) :=
  match readBody env payload with
  | .error e => Fiber.raise e
  | .ok body => do
    let found ← findUserSteps env idpId (extractExternalId payload) body.canonicalEmail
    mergeSteps env idpId payload body.names body.canonicalEmail body.active found

/-- The service `create_or_merge_user`, with every transaction a step of its own. -/
def createOrMergeUserSteps (payload : Json.Dict) : CreateFiber (UserResource × Bool) :=
  Fiber.rescue (createOrMergeUserAttemptSteps env idpId payload) fun
    | .database (.uniqueViolation _) => createOrMergeUserAttemptSteps env idpId payload
    | e => Fiber.raise e

end Steps

section Alone

variable (env : Env) (idpId userId : Id) (payload : Json.Dict)

theorem toProc_statement (call : Service α) : (statement call).toProc = call := rfl

theorem toProc_createUserSteps (canonicalEmail firstName lastName externalId : Option Text) :
    (createUserSteps env idpId canonicalEmail firstName lastName externalId).toProc =
      createUserFromScim env idpId canonicalEmail firstName lastName externalId := by
  cases canonicalEmail with
  | none => rfl
  | some email =>
    simp only [createUserSteps, toProc_bind]
    cases externalId <;> rfl

theorem toProc_writeNamesSteps : (writeNamesSteps userId payload).toProc = writeNames userId payload := by
  funext db
  unfold writeNamesSteps writeNames
  cases hnames : extractNames payload with
  | error e => simp [toProc_raise, Bind.bind, lookup]
  | ok names =>
    rw [toProc_whenever]
    rfl

theorem toProc_storeExternalIdSteps :
    (storeExternalIdSteps idpId userId (extractExternalId payload)).toProc = writeExternalId idpId userId payload := by
  unfold writeExternalId
  cases extractExternalId payload <;> rfl

theorem toProc_mirrorAttributesSteps (attributes : List (Text × Text)) :
    (mirrorAttributesSteps env idpId userId attributes).toProc = mirrorAttributes env idpId userId attributes := by
  simp only [mirrorAttributesSteps, applyIdpAttributesSteps, toProc_rescue, toProc_bind]
  rfl

theorem toProc_applyPayloadWritesSteps (updateNames : Bool) :
    (applyPayloadWritesSteps env idpId userId payload updateNames).toProc =
      applyPayloadWrites env idpId userId payload updateNames := by
  unfold applyPayloadWritesSteps
  rw [toProc_bind, toProc_whenever, toProc_writeNamesSteps]
  rw [toProc_bind, toProc_storeExternalIdSteps]
  congr 1
  funext _ db
  cases hattrs : extractStandardAttributes env payload with
  | error e => simp [toProc_raise, Bind.bind, lookup]
  | ok =>
    simp only [toProc_whenever, toProc_mirrorAttributesSteps]
    rfl

theorem toProc_handleActiveTransitionSteps (active : Option Bool) :
    (handleActiveTransitionSteps userId active).toProc = handleActiveTransition userId active := by
  cases active with
  | none => rfl
  | some =>
    simp only [handleActiveTransitionSteps, toProc_bind]
    congr 1
    funext current
    cases current with
    | none => rfl
    | some =>
      simp only [activeSteps]
      split
      · simp only [deactivateSteps, deactivate, toProc_bind, toProc_statement]
      · simp only [reactivateSteps, toProc_whenever, toProc_bind, toProc_statement]

theorem toProc_findUserSteps (externalId canonicalEmail : Option Text) :
    (findUserSteps env idpId externalId canonicalEmail).toProc =
      read (findUserForMerge env · idpId externalId canonicalEmail) := by
  funext db
  unfold findUserSteps
  rw [toProc_bind, toProc_statement, read_bind_apply, read_apply]
  unfold findUserForMerge
  cases externalId.bind (db.getUserIdByExternalId idpId) <;> rfl

theorem toProc_finishSteps (active : Option Bool) (created : Bool) :
    (finishSteps env idpId payload active created userId).toProc = (do
      applyPayloadWrites env idpId userId payload (!created)
      handleActiveTransition userId active
      let resource ← resolveUserPayload idpId userId
      pure (resource, created)) := by
  simp only [finishSteps, toProc_bind, toProc_applyPayloadWritesSteps, toProc_handleActiveTransitionSteps,
    toProc_statement, toProc_pure]

theorem toProc_rebindSteps : (rebindSteps idpId userId).toProc = (do
    let existing ← read (·.getUserById userId)
    whenever (∃ user ∈ existing, user.samlIdpId ≠ some idpId) (tx (·.setUserIdp userId idpId))) := by
  simp only [rebindSteps, toProc_bind, toProc_whenever, toProc_statement]

theorem toProc_createOrMergeUserAttemptSteps : (createOrMergeUserAttemptSteps env idpId payload).toProc =
    createOrMergeUserAttempt env idpId payload := by
  funext db
  unfold createOrMergeUserAttemptSteps createOrMergeUserAttempt readBody
  cases ensureNoMutabilityViolation env payload "payload" with
  | error e => rfl
  | ok _ =>
    cases extractPrimaryEmail env payload with
    | error e => rfl
    | ok canonicalEmail =>
      cases extractNames payload with
      | error e => rfl
      | ok names =>
        cases extractActive payload with
        | error e => rfl
        | ok active =>
          refine (congrFun (toProc_bind _ _) db).trans ?_
          rw [toProc_findUserSteps]
          simp only [lookup_bind_apply, read_bind_apply]
          cases findUserForMerge env db idpId (extractExternalId payload) canonicalEmail with
          | none =>
            simp only [mergeSteps, toProc_bind, toProc_createUserSteps, toProc_finishSteps]
            rfl
          | some userId =>
            simp only [mergeSteps, toProc_bind, toProc_rebindSteps, toProc_finishSteps]
            rfl

theorem toProc_createOrMergeUserSteps : (createOrMergeUserSteps env idpId payload).toProc =
    createOrMergeUser env idpId payload := by
  unfold createOrMergeUserSteps
  rw [toProc_rescue, toProc_createOrMergeUserAttemptSteps]
  congr 1
  funext e
  cases e with
  | database d =>
    cases d with
    | uniqueViolation => exact toProc_createOrMergeUserAttemptSteps env idpId payload
    | _ => rfl
  | _ => rfl

end Alone

end Scim

open Scim

structure CreateCall where
  fiber : CreateFiber (UserResource × Bool)
  added : List Id := []

namespace CreateCall

def newRows (db db' : Db) : List Id := (db'.users.map (·.id)).filter (· ∉ db.users.map (·.id))

def act (db : Db) (call : CreateCall) : Db × CreateCall :=
  match call.fiber with
  | .done _ => (db, call)
  | .step _ service next =>
    (service.exec db, { fiber := next (service db).1, added := call.added ++ newRows db (service.exec db) })

def result (call : CreateCall) : Option (Except Error (UserResource × Bool)) :=
  match call.fiber with
  | .done result => some result
  | .step .. => none

def next (call : CreateCall) : Option CreateStep :=
  match call.fiber with
  | .done _ => none
  | .step label _ _ => some label

def Failed (call : CreateCall) : Prop :=
  match call.result with
  | some (.error _) => True
  | _ => False

instance (call : CreateCall) : Decidable call.Failed := by
  unfold Failed
  split <;> infer_instance

def Pending (call : CreateCall) : Prop :=
  match call.next with
  | some (.insertAddress _ _) => True
  | _ => False

instance (call : CreateCall) : Decidable call.Pending := by
  unfold Pending
  split <;> infer_instance

abbrev step : Contest Db CreateCall → ContestEvent Nat → Contest Db CreateCall := Contest.step act Db.wait

def start (env : Env) (payload : Json.Dict) (db : Db) (idpIds : List Id) : Contest Db CreateCall where
  store := db
  stages := idpIds.map fun idpId => { fiber := createOrMergeUserSteps env idpId payload }

/-- When all calls have finished, at most one row of a user was added to those of `db`, every row has a primary
address, and a call that failed added none. -/
def LeavesNoOrphans (db : Db) (x : Contest Db CreateCall) : Prop :=
  (∀ call ∈ x.stages, call.result.isSome) → x.store.users.length ≤ db.users.length + 1 ∧
    (∀ user ∈ x.store.users, (x.store.getPrimaryEmail user.id).isSome) ∧
    ∀ call ∈ x.stages, call.Failed → call.added = []
  deriving Decidable

section Quiet

variable {idpId userId : Id} {db db' : Db} {f : User → User}

/-- A step that adds no row of a user and no address, and takes no user away from the provider. -/
structure Quiet (idpId : Id) (db db' : Db) : Prop where
  ids : db'.users.map (·.id) = db.users.map (·.id)
  userEmails : db'.userEmails = db.userEmails
  providers : db'.identityProviders = db.identityProviders
  nextId : db'.nextId = db.nextId
  assigned : ∀ u, (db.getUserForIdp idpId u).isSome → (db'.getUserForIdp idpId u).isSome

instance : Std.Refl (Quiet idpId) where
  refl _ := ⟨rfl, rfl, rfl, rfl, fun _ h => h⟩

theorem isSome_getUserById_iff {u : Id} : (db.getUserById u).isSome ↔ u ∈ db.users.map (·.id) := by
  unfold Db.getUserById
  simp

theorem isSome_getUserForIdp_iff {u : Id} :
    (db.getUserForIdp idpId u).isSome ↔ ∃ user ∈ db.users, user.id = u ∧ user.samlIdpId = some idpId := by
  unfold Db.getUserForIdp
  simp

theorem quiet_mapUsers (hid : ∀ u, (f u).id = u.id)
    (hidp : ∀ u, u.samlIdpId = some idpId → (f u).samlIdpId = some idpId) :
    Quiet idpId db { db with users := db.users.map f } where
  ids := by
    rw [map_map]
    exact map_congr_left fun u _ => hid u
  userEmails := rfl
  providers := rfl
  nextId := rfl
  assigned := by
    intro u h
    rw [isSome_getUserForIdp_iff] at h ⊢
    obtain ⟨user, hmem, huser, hassigned⟩ := h
    exact ⟨f user, mem_map_of_mem hmem, (hid user).trans huser, hidp user hassigned⟩

theorem quiet_updateUser (hid : ∀ u, (f u).id = u.id)
    (hidp : ∀ u, (f u).samlIdpId = u.samlIdpId) : Quiet idpId db (db.updateUser userId f) := by
  apply quiet_mapUsers
  · intro u
    by_cases hu : u.id = userId <;> simp [hu, hid]
  · intro u hassigned
    by_cases hu : u.id = userId <;> simp [hu, hidp, hassigned]

theorem quiet_setUserIdp : (tx (·.setUserIdp userId idpId)).Within (Quiet idpId) := by
  apply within_tx
  intro db a db' h
  simp only [Db.setUserIdp, Db.updateUserSamlIdp, Db.assignUsersToIdp] at h
  split at h
  · cases h
  · obtain rfl := Except.ok_snd h
    apply quiet_mapUsers
    · intro u
      by_cases hu : u.id ∈ [userId] <;> simp [hu]
    · intro u hassigned
      by_cases hu : u.id ∈ [userId] <;> simp only [hu, if_true, if_false, hassigned]

theorem quiet_setExternalId {externalId : Text} :
    (tx (·.setExternalId userId idpId externalId)).Within (Quiet idpId) := by
  apply within_tx
  intro db a db' h
  unfold Db.setExternalId at h
  split_ifs at h
  obtain rfl := Except.ok_snd h
  exact ⟨rfl, rfl, rfl, rfl, fun _ h => h⟩

theorem quiet_updateUserProfile {first last : Text} :
    (tx (·.updateUserProfile userId first last)).Within (Quiet idpId) := by
  apply within_tx
  intro db a db' h
  obtain rfl := Db.updateUserProfile_eq_ok h
  exact quiet_updateUser (fun _ => rfl) fun _ => rfl

theorem quiet_replaceIdpAttributes {serialized : List (Text × Text)} :
    Quiet idpId db (db.replaceIdpAttributes userId idpId serialized) := by
  rw [replaceIdpAttributes_eq]
  exact ⟨rfl, rfl, rfl, rfl, fun _ h => h⟩

end Quiet

variable {call : Service α} {firstName lastName email : Text} {role : Role} {externalId canonicalEmail : Option Text}
  {id : Id}

section QuietSteps

variable {env : Env} {idpId userId : Id} {payload : Json.Dict}

def QuietStep (idpId : Id) : CreateStep → (Db → Db) → Prop
  | .statement, f => ∀ db, Quiet idpId db (f db)
  | .storeExternalId _ _, f => ∀ db, Quiet idpId db (f db)
  | .insertRow _, _ => False
  | .insertAddress _ _, _ => False

theorem steps_statement (h : call.Within (Quiet idpId)) : (statement call).Steps (QuietStep idpId) := steps_atomic h

theorem steps_storeExternalIdSteps : (storeExternalIdSteps idpId userId externalId).Steps (QuietStep idpId) := by
  cases externalId with
  | none => trivial
  | some => exact steps_atomic quiet_setExternalId

theorem steps_writeNamesSteps : (writeNamesSteps userId payload).Steps (QuietStep idpId) := by
  unfold writeNamesSteps
  cases extractNames payload with
  | error e => exact steps_raise
  | ok names =>
    apply steps_whenever
    intro _
    apply (steps_statement within_read).bind
    exact fun current => steps_statement quiet_updateUserProfile

theorem steps_applyIdpAttributesSteps {attributes : List (Text × Text)} :
    (applyIdpAttributesSteps env idpId userId attributes).Steps (QuietStep idpId) := by
  apply (steps_statement within_orRaise).bind
  intro _
  apply steps_statement
  apply within_tx
  intro db a db' h
  split at h
  · cases h
  · obtain rfl := Except.ok_snd h
    exact quiet_replaceIdpAttributes

theorem steps_mirrorAttributesSteps {attributes : List (Text × Text)} :
    (mirrorAttributesSteps env idpId userId attributes).Steps (QuietStep idpId) :=
  (steps_applyIdpAttributesSteps).rescue fun _ => steps_pure ()

theorem steps_applyPayloadWritesSteps {updateNames : Bool} :
    (applyPayloadWritesSteps env idpId userId payload updateNames).Steps (QuietStep idpId) := by
  apply (steps_whenever fun _ => steps_writeNamesSteps).bind
  intro _
  apply steps_storeExternalIdSteps.bind
  intro _
  cases Scim.extractStandardAttributes env payload with
  | error e => exact steps_raise
  | ok => exact steps_whenever fun _ => steps_mirrorAttributesSteps

theorem within_deactivate_writes : (write (·.inactivateUser userId) : Service Unit).Within (Quiet idpId) ∧
    (write (·.revokeAllUserTokens userId) : Service Unit).Within (Quiet idpId) ∧
    (write (·.consumeUserSessionClients userId) : Service Unit).Within (Quiet idpId) := by
  refine ⟨within_write fun db => ?_, within_write fun db => ?_, within_write fun db => ?_⟩
  · apply quiet_updateUser <;> intro u <;> split_ifs <;> rfl
  · exact ⟨rfl, rfl, rfl, rfl, fun _ h => h⟩
  · exact ⟨rfl, rfl, rfl, rfl, fun _ h => h⟩

theorem within_reactivate_writes : (write (·.reactivateUser userId) : Service Unit).Within (Quiet idpId) ∧
    (write (·.clearReactivationDenied userId) : Service Unit).Within (Quiet idpId) := by
  refine ⟨within_write fun db => ?_, within_write fun db => ?_⟩
  · apply quiet_updateUser <;> intro u <;> split_ifs <;> rfl
  · apply quiet_updateUser <;> intro u <;> rfl

theorem steps_activeSteps {newActive : Bool} {current : Option User} :
    (activeSteps userId newActive current).Steps (QuietStep idpId) := by
  cases current with
  | none => trivial
  | some =>
    obtain ⟨hinactivate, hrevoke, hconsume⟩ := within_deactivate_writes
    obtain ⟨hreactivate, hclear⟩ := within_reactivate_writes
    simp only [activeSteps]
    split
    · apply (steps_statement hinactivate).bind
      intro _
      exact (steps_statement hrevoke).bind fun _ => steps_statement hconsume
    · apply steps_whenever
      intro _
      exact (steps_statement hreactivate).bind fun _ => steps_statement hclear

theorem steps_handleActiveTransitionSteps {active : Option Bool} :
    (handleActiveTransitionSteps userId active).Steps (QuietStep idpId) := by
  cases active with
  | none => trivial
  | some => exact (steps_statement within_read).bind fun current => steps_activeSteps

theorem steps_finishSteps {active : Option Bool} {created : Bool} :
    (finishSteps env idpId payload active created userId).Steps (QuietStep idpId) := by
  apply steps_applyPayloadWritesSteps.bind
  intro _
  apply steps_handleActiveTransitionSteps.bind
  intro _
  exact (steps_statement within_orRaise).bind fun _ => steps_pure _

theorem steps_rebindSteps : (rebindSteps idpId userId).Steps (QuietStep idpId) := by
  apply (steps_statement within_read).bind
  intro existing
  exact steps_whenever fun _ => steps_statement quiet_setUserIdp

theorem steps_findUserSteps : (findUserSteps env idpId externalId canonicalEmail).Steps (QuietStep idpId) := by
  apply (steps_statement within_read).bind
  intro found
  cases found with
  | none => exact steps_statement within_read
  | some userId => exact steps_pure _

end QuietSteps

section Creating

variable {env : Env} {idpId userId : Id} {payload : Json.Dict} {db db' : Db} {added : List Id}

structure Numbered (db : Db) : Prop where
  users : Ledger.Fresh (·.id) db.nextId db.users
  userEmails : Ledger.Fresh (·.userId) db.nextId db.userEmails

def HeldByOther (idpId : Id) (db : Db) (userId : Id) (externalId : Text) : Prop :=
  db.userIdpAttributes.any fun r =>
    r.idpId = idpId ∧ r.attributeKey = externalIdKey ∧ r.value = externalId ∧ r.userId ≠ userId
  deriving Decidable

structure Keeps (idpId : Id) (added : List Id) (db db' : Db) : Prop where
  users : ∀ u, (db.getUserById u).isSome → (db'.getUserById u).isSome
  assigned : ∀ u, (db.getUserForIdp idpId u).isSome → (db'.getUserForIdp idpId u).isSome
  addresses : ∀ u ∈ added, db'.getPrimaryEmail u = db.getPrimaryEmail u

theorem Keeps.trans {db'' : Db} (h : Keeps idpId added db db') (h' : Keeps idpId added db' db'') :
    Keeps idpId added db db'' where
  users u hu := h'.users u (h.users u hu)
  assigned u hu := h'.assigned u (h.assigned u hu)
  addresses u hu := (h'.addresses u hu).trans (h.addresses u hu)

theorem Quiet.getPrimaryEmail (h : Quiet idpId db db') (u : Id) : db'.getPrimaryEmail u = db.getPrimaryEmail u := by
  rw [Db.getPrimaryEmail, h.userEmails, Db.getPrimaryEmail]

theorem Quiet.keeps (h : Quiet idpId db db') : Keeps idpId added db db' where
  users u hu := by
    rw [isSome_getUserById_iff] at hu ⊢
    rwa [h.ids]
  assigned := h.assigned
  addresses u _ := h.getPrimaryEmail u

theorem Quiet.newRows (h : Quiet idpId db db') : newRows db db' = [] := by
  rw [CreateCall.newRows, h.ids]
  simp

def Addressed (added : List Id) (db : Db) : Prop := ∀ u ∈ added, (db.getPrimaryEmail u).isSome

theorem Addressed.keeps (h : Addressed added db) (hkeeps : Keeps idpId added db db') : Addressed added db' := by
  intro u hu
  rw [hkeeps.addresses u hu]
  exact h u hu

def Cond (env : Env) (idpId : Id) : CreateStep → List Id → Db → Prop
  | .statement, _, _ => True
  | .insertRow _, _, db => Numbered db
  | .insertAddress _ email, _, db => db.emailExists env email = false
  | .storeExternalId userId externalId, added, db => added ≠ [] → ¬ HeldByOther idpId db userId externalId

/-- Where a call stands, by its next step: before the row, between the row and its address, or with an address
for every row that it has added. -/
def Before : CreateStep → List Id → Db → Prop
  | .insertRow _, added, _ => added = []
  | .insertAddress userId _, added, db =>
    added = [userId] ∧ (db.getUserById userId).isSome ∧ db.getPrimaryEmail userId = none
  | .statement, added, db => Addressed added db
  | .storeExternalId _ _, added, db => Addressed added db

variable {label : CreateStep} {address : Text} {x : CreateFiber α}

theorem Before.keeps (h : Before label added db) (hkeeps : Keeps idpId added db db') : Before label added db' := by
  cases label with
  | insertRow email => exact h
  | insertAddress userId email =>
    obtain ⟨hadded, huser, hnone⟩ := h
    have hsame := hkeeps.addresses userId (by simp [hadded])
    exact ⟨hadded, hkeeps.users userId huser, hsame.trans hnone⟩
  | statement => exact Addressed.keeps h hkeeps
  | storeExternalId => exact Addressed.keeps h hkeeps

/-- What a step does to the store; a row and an address are inserted for `email` only. -/
def CreatingStep (env : Env) (idpId : Id) (email : Text) : CreateStep → (Db → Db) → Prop
  | .statement, f => ∀ db, Quiet idpId db (f db)
  | .storeExternalId _ _, f => ∀ db, Quiet idpId db (f db)
  | .insertRow address, f => address = email ∧
      ∃ firstName lastName, f = (tx (·.createUser firstName lastName .member)).exec
  | .insertAddress userId address, f => address = email ∧ f = (tx (·.addVerifiedEmail env userId email true)).exec

def rely (env : Env) (idpId : Id) (email : Text) : Fiber.Rely CreateStep Db (List Id) where
  track db db' added := added ++ newRows db db'
  rely := Keeps idpId
  cond label added db := (db.getIdentityProvider idpId).isSome ∧ Cond env idpId label added db
  before := Before
  guar := CreatingStep env idpId email

theorem secures_quiet {J : Db → Prop} (hx : x.Steps (QuietStep idpId))
    (hkeeps : ∀ db db', Keeps idpId added db db' → J db → J db') (haddressed : ∀ db, J db → Addressed added db)
    (h : J db) : x.Secures (rely env idpId email) (fun _ added' db => added' = added ∧ J db) added db := by
  induction x generalizing db with
  | done result => exact ⟨rfl, h⟩
  | step label call next ih =>
    have hquiet : (Before label added db ∧ CreatingStep env idpId email label call.exec) ∧
        ∀ db, Quiet idpId db (call.exec db) := by
      cases label with
      | statement => exact ⟨⟨haddressed db h, hx.1⟩, hx.1⟩
      | storeExternalId => exact ⟨⟨haddressed db h, hx.1⟩, hx.1⟩
      | insertRow email => exact hx.1.elim
      | insertAddress => exact hx.1.elim
    refine ⟨hquiet.1, fun db' hrely _ => ?_⟩
    have hstep := hquiet.2 db'
    have htrack : (rely env idpId email).track db' (call.exec db') added = added := by
      simp [rely, hstep.newRows]
    rw [htrack]
    exact ih _ (hx.2 _) (hkeeps _ _ hstep.keeps (hkeeps _ _ hrely h))

def Created (idpId userId : Id) (db : Db) : Prop := (db.getPrimaryEmail userId).isSome ∧ Bound idpId userId db

theorem Created.keeps (h : Created idpId userId db) (hkeeps : Keeps idpId [userId] db db') :
    Created idpId userId db' := by
  refine ⟨?_, hkeeps.users _ h.2.1, hkeeps.assigned _ h.2.2⟩
  rw [hkeeps.addresses userId (mem_singleton_self userId)]
  exact h.1

theorem Created.addressed (h : Created idpId userId db) : Addressed [userId] db := by
  intro u hu
  rw [mem_singleton.mp hu]
  exact h.1

theorem secures_created (env : Env) (email : Text) (hx : x.Steps (QuietStep idpId)) (h : Created idpId userId db) :
    x.Secures (rely env idpId email) (fun _ added db => added = [userId] ∧ Created idpId userId db) [userId] db :=
  secures_quiet hx (fun _ _ hkeeps hcreated => hcreated.keeps hkeeps) (fun _ hcreated => hcreated.addressed) h

def Goes {α : Type} (idpId userId : Id) (result : Except Error α) (added : List Id) (db : Db) : Prop :=
  (∃ a, result = .ok a) ∧ added = [userId] ∧ Created idpId userId db

abbrev Proceeds (env : Env) (idpId : Id) (email : Text) (userId : Id) {α : Type} (x : CreateFiber α) (db : Db) : Prop :=
  x.Secures (rely env idpId email) (Goes idpId userId) [userId] db

theorem goes_atomic (hquiet : QuietStep idpId label call.exec)
    (hok : ∀ db, Created idpId userId db → (db.getIdentityProvider idpId).isSome → Cond env idpId label [userId] db →
      ∃ a, (call db).1 = .ok a) (h : Created idpId userId db) :
    Proceeds env idpId email userId (atomic label call) db := by
  have hsecures := secures_created env email (steps_atomic hquiet) h
  refine ⟨hsecures.1, fun db' hrely hcond => ?_⟩
  exact ⟨hok db' (h.keeps hrely) hcond.1 hcond.2, hsecures.2 db' hrely hcond⟩

theorem goes_bind {β : Type} {f : α → CreateFiber β} {P : Except Error β → List Id → Db → Prop}
    (hx : Proceeds env idpId email userId x db)
    (hf : ∀ a db, Created idpId userId db → (f a).Secures (rely env idpId email) P [userId] db) :
    (x >>= f).Secures (rely env idpId email) P [userId] db := by
  apply hx.bind
  · rintro a added db ⟨-, rfl, hcreated⟩
    exact hf a db hcreated
  · rintro e added db ⟨⟨a, ha⟩, -⟩
    cases ha

theorem goes_pure {a : α} (h : Created idpId userId db) :
    Proceeds env idpId email userId (pure a : CreateFiber α) db := ⟨⟨a, rfl⟩, rfl, h⟩

theorem goes_storeExternalIdSteps (hlength : ∀ e ∈ externalId, e.length ≤ 2000)
    (h : Created idpId userId db) :
    Proceeds env idpId email userId (storeExternalIdSteps idpId userId externalId) db := by
  cases externalId with
  | none => exact goes_pure h
  | some externalId =>
    have hquiet : QuietStep idpId (.storeExternalId userId externalId)
        (tx (·.setExternalId userId idpId externalId)).exec := quiet_setExternalId
    apply goes_atomic hquiet _ h
    intro db hcreated hprovider hcond
    have hfree := hcond (by simp)
    unfold HeldByOther at hfree
    have hshort := not_lt.mpr (hlength externalId rfl)
    have huser := Option.isSome_iff_ne_none.mp hcreated.2.1
    have hidp := Option.isSome_iff_ne_none.mp hprovider
    have hset : db.setExternalId userId idpId externalId =
        .ok ((), db.upsertUserIdpAttribute userId idpId externalIdKey externalId) := by
      unfold Db.setExternalId
      rw [if_neg hshort, if_neg hfree, if_neg huser, if_neg hidp]
    exact ⟨(), by rw [tx_apply_of_ok hset]⟩

theorem goes_statement (hquiet : call.Within (Quiet idpId))
    (hok : ∀ db, Created idpId userId db → ∃ a, (call db).1 = .ok a) (h : Created idpId userId db) :
    Proceeds env idpId email userId (statement call) db := by
  have hstep := hquiet
  exact goes_atomic hstep (fun db hcreated _ _ => hok db hcreated) h

theorem goes_write {f : Db → Db} (hquiet : (write f : Service Unit).Within (Quiet idpId))
    (h : Created idpId userId db) :
    Proceeds env idpId email userId (statement (write f)) db :=
  goes_statement hquiet (fun _ _ => ⟨(), rfl⟩) h

theorem goes_whenever {c : Prop} [Decidable c] {x : CreateFiber Unit} (h : Created idpId userId db)
    (hx : Proceeds env idpId email userId x db) : Proceeds env idpId email userId (Fiber.whenever c x) db := by
  unfold Fiber.whenever
  by_cases hc : c
  · rwa [if_pos hc]
  · rw [if_neg hc]
    exact goes_pure h

theorem goes_mirrorAttributesSteps (attributes : List (Text × Text)) (h : Created idpId userId db) :
    Proceeds env idpId email userId (mirrorAttributesSteps env idpId userId attributes) db := by
  apply (secures_created env email steps_applyIdpAttributesSteps h).rescue
  · rintro a added db ⟨rfl, hcreated⟩
    exact ⟨⟨a, rfl⟩, rfl, hcreated⟩
  · rintro e added db ⟨rfl, hcreated⟩
    exact goes_pure hcreated

theorem goes_handleActiveTransitionSteps {active : Option Bool} (h : Created idpId userId db) :
    Proceeds env idpId email userId (handleActiveTransitionSteps userId active) db := by
  obtain ⟨hinactivate, hrevoke, hconsume⟩ := within_deactivate_writes
  obtain ⟨hreactivate, hclear⟩ := within_reactivate_writes
  cases active with
  | none => exact goes_pure h
  | some =>
    apply goes_bind (goes_statement within_read (fun db _ => ⟨db.getUserById userId, rfl⟩) h)
    intro current db h
    cases current with
    | none => exact goes_pure h
    | some =>
      simp only [activeSteps]
      split
      · apply goes_bind (goes_write hinactivate h)
        intro _ db h
        exact goes_bind (goes_write hrevoke h) fun _ db h => goes_write hconsume h
      · apply goes_whenever h
        exact goes_bind (goes_write hreactivate h) fun _ db h => goes_write hclear h

variable (hlength : ∀ e ∈ extractExternalId payload, e.length ≤ 2000)
  (hattributes : ∃ attributes, Scim.extractStandardAttributes env payload = .ok attributes)

include hlength hattributes in
theorem goes_finishSteps (active : Option Bool) (h : Created idpId userId db) :
    Proceeds env idpId email userId (finishSteps env idpId payload active true userId) db := by
  obtain ⟨attributes, hattributes⟩ := hattributes
  have hwrites : Proceeds env idpId email userId (applyPayloadWritesSteps env idpId userId payload false) db := by
    simp only [applyPayloadWritesSteps, hattributes]
    apply goes_bind (goes_pure h)
    intro _ db h
    apply goes_bind (goes_storeExternalIdSteps hlength h)
    exact fun _ db h => goes_whenever h (goes_mirrorAttributesSteps attributes h)
  apply goes_bind hwrites
  intro _ db h
  apply goes_bind (goes_handleActiveTransitionSteps h)
  intro _ db h
  have hread : Proceeds env idpId email userId (statement (resolveUserPayload idpId userId)) db := by
    apply goes_statement within_orRaise _ h
    intro db h
    obtain ⟨user, huser⟩ := Option.isSome_iff_exists.mp h.2.2
    simp [orRaise, readUser, huser]
  exact goes_bind hread fun resource db h => goes_pure h

theorem getPrimaryEmail_nextId (h : Numbered db) : db.getPrimaryEmail db.nextId = none := by
  have hnone : db.userEmails.find? (fun e => e.userId = db.nextId ∧ e.isPrimary) = none := by
    rw [find?_eq_none]
    intro e he
    have hlt := h.userEmails e he
    have hne := ne_of_lt hlt
    simp [hne]
  rw [Db.getPrimaryEmail, hnone]
  rfl

theorem newRows_createUser (h : Numbered db)
    (hcreate : db.createUser firstName lastName role = .ok (id, db')) : newRows db db' = [id] := by
  obtain ⟨rfl, rfl⟩ := Db.createUser_eq_ok hcreate
  have hnew : db.nextId ∉ db.users.map (·.id) := by
    intro hmem
    obtain ⟨user, huser, hid⟩ := mem_map.mp hmem
    exact lt_irrefl _ (hid ▸ h.users user huser)
  have hold : (db.users.map (·.id)).filter (· ∉ db.users.map (·.id)) = [] := by simp
  rw [newRows, map_append, filter_append, hold, nil_append]
  exact filter_cons_of_pos (by simpa using hnew)

/-- The row is there and has no address yet. -/
def RowInserted (result : Except Error Id) (added : List Id) (db : Db) : Prop :=
  match result with
  | .ok userId => added = [userId] ∧ (db.getUserById userId).isSome ∧ db.getPrimaryEmail userId = none
  | .error _ => added = []

theorem rowInserted_insertRow :
    (atomic (.insertRow email) (tx (·.createUser firstName lastName .member))).Secures (rely env idpId email)
      RowInserted [] db := by
  apply secures_atomic
  · rfl
  · exact ⟨rfl, firstName, lastName, rfl⟩
  intro db _ hcond
  have hnumbered : Numbered db := hcond.2
  cases hcreate : db.createUser firstName lastName .member with
  | error e =>
    rw [tx_apply_of_error hcreate, exec_tx_of_error hcreate]
    simp [RowInserted, rely, newRows]
  | ok result =>
    obtain ⟨userId, db'⟩ := result
    have hrows := newRows_createUser hnumbered hcreate
    rw [tx_apply_of_ok hcreate, exec_tx_of_ok hcreate]
    obtain ⟨rfl, rfl⟩ := Db.createUser_eq_ok hcreate
    refine ⟨hrows, ?_, getPrimaryEmail_nextId hnumbered⟩
    rw [isSome_getUserById_iff]
    simp

theorem isSome_getPrimaryEmail_self (hadd : db.addVerifiedEmail env userId address true = .ok (id, db')) :
    (db'.getPrimaryEmail userId).isSome := by
  obtain rfl := Db.insertEmailRow_eq_ok hadd
  unfold Db.getPrimaryEmail
  simp

def AddressInserted {α : Type} (userId : Id) (result : Except Error α) (added : List Id) (db : Db) : Prop :=
  (∃ a, result = .ok a) ∧ added = [userId] ∧ (db.getPrimaryEmail userId).isSome ∧ (db.getUserById userId).isSome

/-- The lengths that the table allows. -/
def AddressFits (email : Text) : Prop := (Db.emailDomain email).length ≤ 253 ∧ email.length ≤ 320
  deriving Decidable

theorem addVerifiedEmail_of_free (hfits : AddressFits email) (hfree : db.emailExists env email = false)
    (hnone : db.getPrimaryEmail userId = none) (huser : (db.getUserById userId).isSome) :
    db.addVerifiedEmail env userId email true = .ok (db.nextId, { db with
      nextId := db.nextId + 1
      userEmails := db.userEmails ++
        [{ id := db.nextId, userId, email, isPrimary := true, verifiedAt := some db.now }] }) := by
  have hfound := Option.isSome_iff_ne_none.mp huser
  unfold Db.addVerifiedEmail Db.insertEmailRow
  simp [not_lt.mpr hfits.1, not_lt.mpr hfits.2, hfree, hnone, hfound]

theorem addressInserted_insertAddress (hfits : AddressFits email) (huser : (db.getUserById userId).isSome)
    (hnone : db.getPrimaryEmail userId = none) :
    (atomic (.insertAddress userId email) (tx (·.addVerifiedEmail env userId email true))).Secures
      (rely env idpId email) (AddressInserted userId) [userId] db := by
  apply secures_atomic
  · exact ⟨rfl, huser, hnone⟩
  · exact ⟨rfl, rfl⟩
  intro db' hkeeps hcond
  have hfree := hcond.2
  have hnone' := (hkeeps.addresses userId (mem_singleton_self _)).trans hnone
  have hadd := addVerifiedEmail_of_free hfits hfree hnone' (hkeeps.users userId huser)
  rw [tx_apply_of_ok hadd, exec_tx_of_ok hadd]
  refine ⟨⟨_, rfl⟩, by simp [rely, newRows], ?_, hkeeps.users userId huser⟩
  exact isSome_getPrimaryEmail_self hadd

theorem goes_setUserIdp (haddress : (db.getPrimaryEmail userId).isSome) (huser : (db.getUserById userId).isSome) :
    Proceeds env idpId email userId (statement (tx (·.setUserIdp userId idpId))) db := by
  apply secures_atomic
  · intro u hu
    rwa [mem_singleton.mp hu]
  · exact quiet_setUserIdp
  intro db' hkeeps hcond
  have hquiet : Quiet idpId db' ((tx (·.setUserIdp userId idpId)).exec db') := quiet_setUserIdp db'
  have hkept := Keeps.trans hkeeps hquiet.keeps
  have hidp := Option.isSome_iff_ne_none.mp hcond.1
  have hset : db'.setUserIdp userId idpId = .ok ((), { db' with
      users := db'.users.map fun u => if u.id ∈ [userId] then { u with samlIdpId := some idpId } else u }) := by
    unfold Db.setUserIdp Db.updateUserSamlIdp Db.assignUsersToIdp
    simp [hidp]
  refine ⟨⟨(), by rw [tx_apply_of_ok hset]⟩, by simp [rely, hquiet.newRows], ?_, hkept.users userId huser, ?_⟩
  · rw [hkept.addresses userId (mem_singleton_self _)]
    exact haddress
  · have huser' := hkeeps.users userId huser
    rw [isSome_getUserById_iff, mem_map] at huser'
    obtain ⟨user, hmem, hid⟩ := huser'
    rw [exec_tx_of_ok hset, isSome_getUserForIdp_iff]
    exact ⟨_, mem_map_of_mem hmem, by simp [hid], by simp [hid]⟩

/-- How the creation ends: with the user in place, or with nothing added. -/
def CreationEnds (idpId : Id) (result : Except Error Id) (added : List Id) (db : Db) : Prop :=
  match result with
  | .ok userId => added = [userId] ∧ Created idpId userId db
  | .error _ => added = []

theorem secures_createUserSteps {firstName lastName : Option Text} (hlength : ∀ e ∈ externalId, e.length ≤ 2000)
    (hfits : AddressFits email) (hemail : ∀ address ∈ canonicalEmail, address = email) :
    (createUserSteps env idpId canonicalEmail firstName lastName externalId).Secures (rely env idpId email)
      (CreationEnds idpId) [] db := by
  cases canonicalEmail with
  | none => rfl
  | some address =>
    obtain rfl := hemail address rfl
    apply rowInserted_insertRow.bind
    · rintro userId added db ⟨rfl, huser, hnone⟩
      apply (addressInserted_insertAddress hfits huser hnone).bind
      · rintro _ added db ⟨-, rfl, haddress, huser⟩
        apply goes_bind (goes_setUserIdp haddress huser)
        intro _ db h
        apply goes_bind (goes_storeExternalIdSteps hlength h)
        exact fun _ db h => ⟨rfl, h⟩
      · rintro e added db ⟨⟨a, ha⟩, -⟩
        cases ha
    · exact fun e added db h => h

/-- How a call ends: the rows that it has added have an address, and it has added none if it failed. -/
def Ends {α : Type} (result : Except Error α) (added : List Id) (db : Db) : Prop :=
  Addressed added db ∧ ((∃ e, result = .error e) → added = [])

theorem ends_nil (result : Except Error α) (db : Db) : Ends result [] db :=
  ⟨fun _ hu => (not_mem_nil hu).elim, fun _ => rfl⟩

theorem secures_unadded (hx : x.Steps (QuietStep idpId)) :
    x.Secures (rely env idpId email) (fun _ added _ => added = [] ∧ True) [] db :=
  secures_quiet hx (fun _ _ _ h => h) (fun _ _ _ hu => (not_mem_nil hu).elim) trivial

def bodyEmail (env : Env) (payload : Json.Dict) : Text :=
  match readBody env payload with
  | .ok body => body.canonicalEmail.getD []
  | .error _ => []

variable (hfits : AddressFits (bodyEmail env payload))

include hlength hattributes hfits

theorem secures_createOrMergeUserAttemptSteps (db : Db) : (createOrMergeUserAttemptSteps env idpId payload).Secures
    (rely env idpId (bodyEmail env payload)) Ends [] db := by
  unfold createOrMergeUserAttemptSteps
  cases hbody : readBody env payload with
  | error e => exact ends_nil _ db
  | ok body =>
    have hemail : ∀ address ∈ body.canonicalEmail, address = bodyEmail env payload := by
      rintro address (haddress : body.canonicalEmail = some address)
      simp [bodyEmail, hbody, haddress]
    apply (secures_unadded steps_findUserSteps).bind
    · rintro found added db ⟨rfl, -⟩
      cases found with
      | none =>
        apply (secures_createUserSteps hlength hfits hemail).bind
        · rintro userId added db ⟨rfl, hcreated⟩
          apply (goes_finishSteps hlength hattributes body.active hcreated).mono
          rintro result added db ⟨⟨a, rfl⟩, rfl, hcreated⟩
          refine ⟨hcreated.addressed, ?_⟩
          rintro ⟨e, he⟩
          cases he
        · rintro e added db hadded
          obtain rfl : added = [] := hadded
          exact ends_nil _ db
      | some userId =>
        have hsteps : (mergeSteps env idpId payload body.names body.canonicalEmail body.active (some userId)).Steps
            (QuietStep idpId) := steps_rebindSteps.bind fun _ => steps_finishSteps
        apply (secures_unadded hsteps).mono
        rintro result added db ⟨rfl, -⟩
        exact ends_nil result db
    · rintro e added db ⟨rfl, -⟩
      exact ends_nil _ db

theorem secures_createOrMergeUserSteps (db : Db) :
    (createOrMergeUserSteps env idpId payload).Secures (rely env idpId (bodyEmail env payload)) Ends [] db := by
  apply (secures_createOrMergeUserAttemptSteps hlength hattributes hfits db).rescue
  · exact fun a added db h => h
  · intro e added db h
    obtain rfl : added = [] := h.2 ⟨e, rfl⟩
    split
    · exact secures_createOrMergeUserAttemptSteps hlength hattributes hfits db
    · exact ends_nil _ db

end Creating

section Runs

variable {env : Env} {idpId userId : Id} {email : Text} {rows i : Nat} {x : Contest Db CreateCall}
  {call call' : CreateCall} {db db' : Db} {label : CreateStep}

def Standing (env : Env) (idpId : Id) (email : Text) (db : Db) (call : CreateCall) : Prop :=
  call.fiber.Secures (rely env idpId email) Ends call.added db

theorem Standing.keeps (h : Standing env idpId email db call) (hkeeps : Keeps idpId call.added db db') :
    Standing env idpId email db' call := by
  apply h.later (fun _ _ _ h h' => Keeps.trans h h') (fun _ hbefore => Before.keeps hbefore hkeeps) _ hkeeps
  exact fun result hends => ⟨hends.1.keeps hkeeps, hends.2⟩

theorem Standing.pending (h : Standing env idpId email db call) (hpending : call.Pending) :
    ∃ userId, call.added = [userId] ∧ (db.getUserById userId).isSome ∧ db.getPrimaryEmail userId = none := by
  obtain ⟨fiber, added⟩ := call
  cases fiber with
  | done result => exact hpending.elim
  | step label =>
    cases label with
    | insertAddress userId => exact ⟨userId, h.1.1⟩
    | _ => exact hpending.elim

theorem Standing.addressed (h : Standing env idpId email db call) (hpending : ¬ call.Pending) :
    Addressed call.added db := by
  obtain ⟨fiber, added⟩ := call
  cases fiber with
  | done result => exact h.1
  | step label =>
    cases label with
    | insertAddress => exact (hpending trivial).elim
    | statement => exact h.1.1
    | insertRow =>
      obtain rfl : added = [] := h.1.1
      exact fun u hu => (not_mem_nil hu).elim
    | storeExternalId => exact h.1.1

/-- No call has added a row. -/
structure Untouched (rows : Nat) (x : Contest Db CreateCall) : Prop where
  length : x.store.users.length = rows
  addressed : ∀ user ∈ x.store.users, (x.store.getPrimaryEmail user.id).isSome
  added : ∀ (j : Nat) (other : CreateCall), x.stages[j]? = some other → other.added = []

structure Touched (env : Env) (email : Text) (rows i : Nat) (call : CreateCall) (userId : Id)
    (x : Contest Db CreateCall) : Prop where
  stage : x.stages[i]? = some call
  added : call.added = [userId]
  others : ∀ (j : Nat) (other : CreateCall), x.stages[j]? = some other → j ≠ i → other.added = []
  length : x.store.users.length = rows + 1
  addressed : ∀ user ∈ x.store.users, user.id ≠ userId → (x.store.getPrimaryEmail user.id).isSome
  taken : x.store.emailExists env email = true ↔ ¬ call.Pending

structure Sound (env : Env) (idpId : Id) (email : Text) (rows : Nat) (x : Contest Db CreateCall) : Prop where
  numbered : Numbered x.store
  provider : (x.store.getIdentityProvider idpId).isSome
  calls : ∀ (j : Nat) (call : CreateCall), x.stages[j]? = some call → Standing env idpId email x.store call
  phase : Untouched rows x ∨ ∃ i call userId, Touched env email rows i call userId x

/-- What the next step of a call needs: the row is inserted while nobody has the address and no other call stands
between its row and its address, and no other user holds the `externalId` that is stored for the new user. -/
def StepAlone (env : Env) (idpId : Id) (x : Contest Db CreateCall) (added : List Id) : Option CreateStep → Prop
  | some (.insertRow email) => x.store.emailExists env email = false ∧ ∀ other ∈ x.stages, ¬ other.Pending
  | some (.storeExternalId userId externalId) => added ≠ [] → ¬ HeldByOther idpId x.store userId externalId
  | some .statement => True
  | some (.insertAddress _ _) => True
  | none => True

instance (added : List Id) (label : Option CreateStep) : Decidable (StepAlone env idpId x added label) := by
  unfold StepAlone
  split <;> infer_instance

def InsertsAlone (env : Env) (idpId : Id) (x : Contest Db CreateCall) : ContestEvent Nat → Prop
  | .other _ => True
  | .advance i => ∀ call ∈ x.stages[i]?, StepAlone env idpId x call.added call.next

instance : ∀ event, Decidable (InsertsAlone env idpId x event)
  | .other _ => isTrue trivial
  | .advance _ => inferInstanceAs (Decidable (∀ call ∈ _, _))

theorem Keeps.refl (added : List Id) (db : Db) : Keeps idpId added db db :=
  ⟨fun _ h => h, fun _ h => h, fun _ _ => rfl⟩

theorem Standing.act {service : Service α} {next : Except Error α → CreateFiber (UserResource × Bool)}
    {added : List Id} (h : Standing env idpId email db ⟨.step label service next, added⟩)
    (hprovider : (db.getIdentityProvider idpId).isSome) (hcond : Cond env idpId label added db) :
    Standing env idpId email (service.exec db) ⟨next (service db).1, added ++ newRows db (service.exec db)⟩ :=
  h.2 db (Keeps.refl added db) ⟨hprovider, hcond⟩

theorem Quiet.forall_users (h : Quiet idpId db db') {P : Id → Prop} (hdb : ∀ user ∈ db.users, P user.id) :
    ∀ user ∈ db'.users, P user.id := by
  intro user huser
  have hid := h.ids ▸ mem_map_of_mem huser
  obtain ⟨old, hold, heq⟩ := mem_map.mp hid
  rw [← heq]
  exact hdb old hold

theorem Quiet.numbered (h : Quiet idpId db db') (hdb : Numbered db) : Numbered db' where
  users := by
    rw [h.nextId]
    exact h.forall_users (P := (· < db.nextId)) hdb.users
  userEmails := by
    rw [h.userEmails, h.nextId]
    exact hdb.userEmails

theorem Quiet.length (h : Quiet idpId db db') : db'.users.length = db.users.length := by
  simpa using congrArg List.length h.ids

theorem Sound.quiet (h : Sound env idpId email rows x) (hi : x.stages[i]? = some call)
    (hpending : ¬ call.Pending) (hquiet : Quiet idpId x.store db') (hadded : call'.added = call.added)
    (hstanding : Standing env idpId email db' call') :
    Sound env idpId email rows { store := db', stages := x.stages.set i call' } where
  numbered := hquiet.numbered h.numbered
  provider := by
    rw [Db.getIdentityProvider, hquiet.providers]
    exact h.provider
  calls := Contest.forall_stage_after hi hstanding fun j other hold _ => (h.calls j other hold).keeps hquiet.keeps
  phase := by
    have hlt := (List.getElem?_eq_some_iff.mp hi).1
    have hpending' : ¬ call'.Pending := by
      intro hnow
      obtain ⟨u, hu, -, hnone⟩ := hstanding.pending hnow
      have hsome := (h.calls i call hi).addressed hpending u (by rw [← hadded, hu]; exact mem_singleton_self u)
      rw [hquiet.getPrimaryEmail u] at hnone
      simp [hnone] at hsome
    rcases h.phase with huntouched | ⟨k, creator, userId, htouched⟩
    · left
      refine ⟨hquiet.length.trans huntouched.length, ?_, Contest.forall_stage_after hi ?_ fun j other hold _ => ?_⟩
      · apply hquiet.forall_users (P := fun u => (db'.getPrimaryEmail u).isSome)
        intro user huser
        rw [hquiet.getPrimaryEmail]
        exact huntouched.addressed user huser
      · exact hadded.trans (huntouched.added i call hi)
      · exact huntouched.added j other hold
    · right
      have haddressed : ∀ user ∈ db'.users, user.id ≠ userId → (db'.getPrimaryEmail user.id).isSome := by
        apply hquiet.forall_users (P := fun u => u ≠ userId → (db'.getPrimaryEmail u).isSome)
        intro user huser hne
        rw [hquiet.getPrimaryEmail]
        exact htouched.addressed user huser hne
      have hexists : db'.emailExists env email = x.store.emailExists env email := by
        rw [Db.emailExists, hquiet.userEmails, Db.emailExists]
      by_cases hik : i = k
      · subst hik
        obtain rfl := Option.some.inj (hi.symm.trans htouched.stage)
        refine ⟨i, call', userId, getElem?_set_self hlt, hadded.trans htouched.added,
          Contest.forall_stage_after hi (absurd rfl) fun j other hold _ => htouched.others j other hold,
          hquiet.length.trans htouched.length, haddressed, ?_⟩
        exact hexists ▸ htouched.taken.trans (iff_of_true hpending hpending')
      · refine ⟨k, creator, userId, (getElem?_set_ne hik).trans htouched.stage, htouched.added,
          Contest.forall_stage_after hi (fun hne => hadded.trans (htouched.others i call hi hne)) fun j other hold _ =>
            htouched.others j other hold,
          hquiet.length.trans htouched.length, haddressed, ?_⟩
        exact hexists ▸ htouched.taken

theorem keeps_createUser {added : List Id}
    (hcreate : db.createUser firstName lastName role = .ok (id, db')) : Keeps idpId added db db' := by
  obtain ⟨-, rfl⟩ := Db.createUser_eq_ok hcreate
  refine ⟨fun u hu => ?_, fun u hu => ?_, fun _ _ => rfl⟩
  · rw [isSome_getUserById_iff] at hu ⊢
    simp only [map_append, mem_append]
    exact .inl hu
  · rw [isSome_getUserForIdp_iff] at hu ⊢
    obtain ⟨user, hmem, huser⟩ := hu
    exact ⟨user, mem_append_left _ hmem, huser⟩

theorem Sound.insertRow (h : Sound env idpId email rows x)
    (hi : x.stages[i]? = some call) (hfree : x.store.emailExists env email = false)
    (halone : ∀ other ∈ x.stages, ¬ other.Pending)
    (hcreate : x.store.createUser firstName lastName role = .ok (userId, db')) (hadded : call'.added = [userId])
    (hstanding : Standing env idpId email db' call') :
    Sound env idpId email rows { store := db', stages := x.stages.set i call' } := by
  have hkeeps : ∀ added, Keeps idpId added x.store db' := fun added => keeps_createUser hcreate
  have hlt := (List.getElem?_eq_some_iff.mp hi).1
  have huntouched : Untouched rows x := by
    rcases h.phase with huntouched | ⟨k, creator, u, htouched⟩
    · exact huntouched
    · have htaken := htouched.taken.mpr (halone creator (mem_of_getElem? htouched.stage))
      simp [hfree] at htaken
  have hnone := getPrimaryEmail_nextId h.numbered
  obtain ⟨rfl, rfl⟩ := Db.createUser_eq_ok hcreate
  have hpending : call'.Pending := by
    by_contra hnot
    have hsome := hstanding.addressed hnot x.store.nextId (by simp [hadded])
    have hnone' : ((x.store.getPrimaryEmail x.store.nextId)).isSome := hsome
    simp [hnone] at hnone'
  refine ⟨⟨fun user huser => ?_, fun e he => ?_⟩, h.provider,
    Contest.forall_stage_after hi hstanding fun j other hold _ => (h.calls j other hold).keeps (hkeeps other.added),
    .inr ⟨i, call', x.store.nextId, ?_⟩⟩
  · rcases mem_concat_iff.mp huser with hold | rfl
    · exact Nat.lt_succ_of_lt (h.numbered.users user hold)
    · exact Nat.lt_succ_self _
  · exact Nat.lt_succ_of_lt (h.numbered.userEmails e he)
  · refine ⟨getElem?_set_self hlt, hadded,
      Contest.forall_stage_after hi (absurd rfl) fun j other hold _ _ => huntouched.added j other hold,
      ?_, fun user huser hne => ?_, ?_⟩
    · simp [huntouched.length]
    · rcases mem_append.mp huser with hold | hnew
      · exact huntouched.addressed user hold
      · exact (hne (by rw [mem_singleton.mp hnew])).elim
    · have hfree' : x.store.emailExists env email ≠ true := by simp [hfree]
      exact iff_of_false hfree' (not_not_intro hpending)

theorem Sound.touched (h : Sound env idpId email rows x) (hi : x.stages[i]? = some call)
    (hcall : call.added = [userId]) : Touched env email rows i call userId x := by
  rcases h.phase with huntouched | ⟨k, creator, v, htouched⟩
  · simp [huntouched.added i call hi] at hcall
  · by_cases hik : i = k
    · subst hik
      obtain rfl := Option.some.inj (hi.symm.trans htouched.stage)
      obtain rfl : userId = v := by simpa [hcall] using htouched.added
      exact htouched
    · simp [htouched.others i call hi hik] at hcall

theorem Sound.insertAddress (h : Sound env idpId email rows x)
    (hi : x.stages[i]? = some call) (hpending : call.Pending) (hcall : call.added = [userId])
    (hadd : x.store.addVerifiedEmail env userId email true = .ok (id, db')) (hadded : call'.added = [userId])
    (hstanding : Standing env idpId email db' call') :
    Sound env idpId email rows { store := db', stages := x.stages.set i call' } := by
  have hlt := (List.getElem?_eq_some_iff.mp hi).1
  obtain ⟨u, hu, huser, hnone⟩ := (h.calls i call hi).pending hpending
  obtain rfl : u = userId := by simpa [hcall] using hu.symm
  have htouched := h.touched hi hcall
  have hpending' : ¬ call'.Pending := by
    intro hnow
    obtain ⟨v, hv, -, hnone'⟩ := hstanding.pending hnow
    obtain rfl : v = u := by simpa [hadded] using hv.symm
    have hsome := isSome_getPrimaryEmail_self hadd
    simp [hnone'] at hsome
  obtain rfl := Db.insertEmailRow_eq_ok hadd
  have hold : u < x.store.nextId := by
    rw [isSome_getUserById_iff, mem_map] at huser
    obtain ⟨user, hmem, rfl⟩ := huser
    exact h.numbered.users user hmem
  refine ⟨⟨fun user hmem => ?_, fun e he => ?_⟩, h.provider,
    Contest.forall_stage_after hi hstanding fun j other hother hne => ?_, .inr ⟨i, call', u, ?_⟩⟩
  · exact Nat.lt_succ_of_lt (h.numbered.users user hmem)
  · rcases mem_concat_iff.mp he with hmem | rfl
    · exact Nat.lt_succ_of_lt (h.numbered.userEmails e hmem)
    · exact Nat.lt_succ_of_lt hold
  · refine (h.calls j other hother).keeps ⟨fun _ h => h, fun _ h => h, fun u hu => ?_⟩
    rw [htouched.others j other hother hne] at hu
    cases hu
  · refine ⟨getElem?_set_self hlt, hadded,
      Contest.forall_stage_after hi (absurd rfl) fun j other hold _ => htouched.others j other hold,
      htouched.length, fun user hmem hne => ?_, ?_⟩
    · have haddressed := htouched.addressed user hmem hne
      unfold Db.getPrimaryEmail at haddressed ⊢
      rw [Option.isSome_map] at haddressed ⊢
      rw [find?_append, Option.isSome_or, haddressed, Bool.true_or]
    · exact iff_of_true (by simp [Db.emailExists, Db.sameEmail]) hpending'

theorem Sound.wait (h : Sound env idpId email rows x) (micros : Nat) :
    Sound env idpId email rows { x with store := x.store.wait micros } where
  numbered := ⟨h.numbered.users, h.numbered.userEmails⟩
  provider := h.provider
  calls := fun j call hj => (h.calls j call hj).keeps ⟨fun _ h => h, fun _ h => h, fun _ _ => rfl⟩
  phase := by
    rcases h.phase with huntouched | ⟨k, creator, userId, htouched⟩
    · exact .inl ⟨huntouched.length, huntouched.addressed, huntouched.added⟩
    · exact .inr ⟨k, creator, userId, htouched.stage, htouched.added, htouched.others, htouched.length,
        htouched.addressed, htouched.taken⟩

theorem Sound.step (h : Sound env idpId email rows x) (hfits : AddressFits email) {event : ContestEvent Nat}
    (hevent : InsertsAlone env idpId x event) : Sound env idpId email rows (step x event) := by
  unfold CreateCall.step
  refine Contest.step_cases h (fun micros _ => h.wait micros) fun i call hadvance hi => ?_
  subst hadvance
  have halone := hevent call hi
  have hstanding := h.calls i call hi
  obtain ⟨fiber, added⟩ := call
  cases fiber with
  | done result =>
    exact h.quiet hi id (refl_of _ x.store) rfl hstanding
  | step label service next =>
    have hallowed := hstanding.1.2
    cases label with
    | statement =>
      have hnext := hstanding.act h.provider trivial
      have hquiet := hallowed x.store
      exact h.quiet hi id hquiet (by simp [act, hquiet.newRows]) hnext
    | storeExternalId =>
      have hnext := hstanding.act h.provider halone
      have hquiet := hallowed x.store
      exact h.quiet hi id hquiet (by simp [act, hquiet.newRows]) hnext
    | insertRow =>
      have hnext := hstanding.act h.provider h.numbered
      obtain ⟨rfl, firstName, lastName, hexec⟩ := hallowed
      have hnil : added = [] := hstanding.1.1
      have hstore := congrFun hexec x.store
      cases hcreate : x.store.createUser firstName lastName .member with
      | error e =>
        rw [exec_tx_of_error hcreate] at hstore
        have hquiet : Quiet idpId x.store (service.exec x.store) := by
          rw [hstore]
          exact refl_of _ x.store
        exact h.quiet hi id hquiet (by simp [act, hquiet.newRows]) hnext
      | ok result =>
        obtain ⟨userId, db'⟩ := result
        rw [exec_tx_of_ok hcreate] at hstore
        have hrows := newRows_createUser h.numbered hcreate
        have hadded : added ++ newRows x.store (service.exec x.store) = [userId] := by
          rw [hnil, hstore, hrows, nil_append]
        exact h.insertRow hi halone.1 halone.2 (hstore ▸ hcreate) hadded hnext
    | insertAddress userId address =>
      obtain ⟨rfl, hexec⟩ := hallowed
      obtain ⟨hadded, huser, hnone⟩ := hstanding.1.1
      have htouched := h.touched hi hadded
      have hfree := Bool.eq_false_iff.mpr fun htaken => htouched.taken.mp htaken trivial
      have hnext := hstanding.act h.provider hfree
      have hadd := addVerifiedEmail_of_free hfits hfree hnone huser
      have hstore := (congrFun hexec x.store).trans (exec_tx_of_ok hadd)
      have hkept : added ++ newRows x.store (service.exec x.store) = [userId] := by
        change added = [userId] at hadded
        rw [hstore, hadded]
        simp [newRows]
      exact h.insertAddress hi trivial hadded (hstore ▸ hadd) hkept hnext

theorem Sound.leavesNoOrphans (h : Sound env idpId email db.users.length x) : LeavesNoOrphans db x := by
  intro hfinished
  have hidle : ∀ call ∈ x.stages, ¬ call.Pending := by
    rintro ⟨fiber, added⟩ hmem hpending
    cases fiber with
    | done result => exact hpending
    | step => simpa [result] using hfinished _ hmem
  have hfailed : ∀ call ∈ x.stages, call.Failed → call.added = [] := by
    rintro ⟨fiber, added⟩ hmem hfailed
    obtain ⟨j, hj⟩ := List.mem_iff_getElem?.mp hmem
    have hsecures := h.calls j _ hj
    cases fiber with
    | done result =>
      cases result with
      | ok a => exact hfailed.elim
      | error e => exact hsecures.2 ⟨e, rfl⟩
    | step => exact hfailed.elim
  rcases h.phase with huntouched | ⟨k, creator, userId, htouched⟩
  · exact ⟨huntouched.length.le.trans (Nat.le_succ _), huntouched.addressed, hfailed⟩
  · refine ⟨htouched.length.le, fun user huser => ?_, hfailed⟩
    by_cases hid : user.id = userId
    · have hcreator := h.calls k creator htouched.stage
      have hmem := mem_of_getElem? htouched.stage
      exact hcreator.addressed (hidle creator hmem) user.id (by simp [htouched.added, hid])
    · exact htouched.addressed user huser hid

end Runs

end CreateCall

end WeftId
