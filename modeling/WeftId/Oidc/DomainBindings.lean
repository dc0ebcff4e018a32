import WeftId.Groups.Lineage
import WeftId.Lib.Fiber
import WeftId.Oidc.Links
import WeftId.Saml.Domains

/-!
Privileged domains bound to SAML providers and to OIDC connections.  Each kind has a table of its own, and a request
to bind looks into the other table first; requests that run at the same time, one database call at a time, may each
look before the other one binds.
-/

namespace WeftId

open List Proc Run Fiber

namespace Db

def bindDomainToConnection (db : Db) (domainId connectionId : Id) : Db :=
  { db with oidcDomainBindings := db.oidcDomainBindings.filter (·.domainId ≠ domainId) ++ [⟨domainId, connectionId⟩] }

def unbindDomainFromConnection (db : Db) (domainId : Id) : Db :=
  { db with oidcDomainBindings := db.oidcDomainBindings.filter (·.domainId ≠ domainId) }

def bindings (db : Db) : List DomainBinding × List DomainBinding := (db.samlDomainBindings, db.oidcDomainBindings)

/-- No domain is bound to providers of both kinds. -/
def BoundOnce (db : Db) : Prop :=
  ∀ b ∈ db.samlDomainBindings, ∀ b' ∈ db.oidcDomainBindings, b.domainId ≠ b'.domainId
  deriving Decidable

end Db

def bindDomainToConnection (user : RequestingUser) (connectionId domainId : Id) : BindingFiber Unit := do
  requireSuperAdminSteps user
  let _ ← found (·.getConnection connectionId) "OIDC connection not found" "oidc_connection_not_found"
  let domain ← found (·.getPrivilegedDomainById domainId) "Privileged domain not found" "domain_not_found"
  let samlBinding ← keeping (read (·.getSamlDomainBinding domainId))
  Fiber.require (samlBinding = none)
    (.conflict ("Domain '" ++ String.ofList domain.domain ++
      "' is already bound to a SAML identity provider. Unbind it from the SAML IdP first.") "domain_bound_to_saml_idp")
  atomic (.bindOidc domainId) (write (·.bindDomainToConnection domainId connectionId))

def unbindDomainFromConnection (user : RequestingUser) (domainId : Id) : BindingFiber Unit := do
  requireSuperAdminSteps user
  let _ ← found (·.getOidcDomainBinding domainId) "Domain binding not found" "domain_binding_not_found"
  let _ ← found (·.getPrivilegedDomainById domainId) "Privileged domain not found" "domain_not_found"
  atomic .unbind (write (·.unbindDomainFromConnection domainId))

def rebindDomainToConnection (user : RequestingUser) (domainId newConnectionId : Id) : BindingFiber Unit := do
  requireSuperAdminSteps user
  let _ ← found (·.getOidcDomainBinding domainId) "Domain binding not found" "domain_binding_not_found"
  let _ ← found (·.getConnection newConnectionId) "Target OIDC connection not found" "oidc_connection_not_found"
  let _ ← found (·.getPrivilegedDomainById domainId) "Privileged domain not found" "domain_not_found"
  atomic (.bindOidc domainId) (write (·.bindDomainToConnection domainId newConnectionId))

inductive BindingRequest
  | bindDomainToIdp (idpId domainId : Id)
  | rebindDomainToIdp (domainId newIdpId : Id)
  | unbindDomainFromIdp (domainId : Id)
  | bindDomainToConnection (connectionId domainId : Id)
  | rebindDomainToConnection (domainId newConnectionId : Id)
  | unbindDomainFromConnection (domainId : Id)

def BindingRequest.steps (env : Env) (user : RequestingUser) : BindingRequest → BindingFiber Unit
  | .bindDomainToIdp idpId domainId => WeftId.bindDomainToIdp env user idpId domainId
  | .rebindDomainToIdp domainId newIdpId => WeftId.rebindDomainToIdp env user domainId newIdpId
  | .unbindDomainFromIdp domainId => WeftId.unbindDomainFromIdp user domainId
  | .bindDomainToConnection connectionId domainId => WeftId.bindDomainToConnection user connectionId domainId
  | .rebindDomainToConnection domainId newConnectionId => WeftId.rebindDomainToConnection user domainId newConnectionId
  | .unbindDomainFromConnection domainId => WeftId.unbindDomainFromConnection user domainId

variable {domainId idpId newIdpId : Id} {α : Type}

inductive BindingEvent
  | request (user : RequestingUser) (request : BindingRequest)
  | advance (i : Nat)

abbrev BindingServer := Pool BindingCall Db Error Unit BindingRequest

namespace BindingServer

def idle (db : Db) : BindingServer where
  store := db

def step (env : Env) (w : BindingServer) : BindingEvent → BindingServer
  | .request user request => w.start request (request.steps env user)
  | .advance i => w.advance i

def Allowed (_ : BindingRequest) : BindingCall → (Db → Db) → Prop
  | .keep, f => ∀ db, (f db).bindings = db.bindings
  | .bindSaml domainId, f => ∃ idpId, ∀ db, f db = db.bindDomainToIdp domainId idpId
  | .bindOidc domainId, f => ∃ connectionId, ∀ db, f db = db.bindDomainToConnection domainId connectionId
  | .unbind, f => ∀ db, (f db).samlDomainBindings ⊆ db.samlDomainBindings ∧
      (f db).oidcDomainBindings ⊆ db.oidcDomainBindings

def UnboundElsewhere (_ : BindingRequest) : BindingCall → Db → Prop
  | .bindSaml domainId, db => ∀ b ∈ db.oidcDomainBindings, b.domainId ≠ domainId
  | .bindOidc domainId, db => ∀ b ∈ db.samlDomainBindings, b.domainId ≠ domainId
  | .keep, _ => True
  | .unbind, _ => True

instance (request : BindingRequest) (call : BindingCall) (db : Db) : Decidable (UnboundElsewhere request call db) := by
  cases call <;> unfold UnboundElsewhere <;> infer_instance

def BindsUnbound (w : BindingServer) : BindingEvent → Prop
  | .request _ _ => True
  | .advance i => w.StepMeets UnboundElsewhere i

instance (w : BindingServer) : (event : BindingEvent) → Decidable (w.BindsUnbound event)
  | .request _ _ => isTrue trivial
  | .advance i => inferInstanceAs (Decidable (w.StepMeets UnboundElsewhere i))

section Calls

variable {request : BindingRequest} {userIds : List Id} {source : Source} {idpName : Text}

theorem keeps_orRaise {f : Db → Option α} {e : Error} : Allowed request .keep (orRaise f e : Service α).exec := by
  intro db
  unfold exec orRaise
  cases f db with
  | none => rfl
  | some a => rfl

theorem keeps_tx {f : Db → Except DbError (α × Db)}
    (h : ∀ db a db', f db = .ok (a, db') → db'.bindings = db.bindings) : Allowed request .keep (tx f).exec := by
  intro db
  cases hf : f db with
  | error e => rw [exec_tx_of_error hf]
  | ok result =>
    obtain ⟨a, db'⟩ := result
    rw [exec_tx_of_ok hf]
    exact h db a db' hf

theorem keeps_createIdpGroup {name : Text} : Allowed request .keep (tx (·.createIdpGroup idpId name source)).exec := by
  apply keeps_tx
  intro db id db' h
  cases source with
  | saml | oidc =>
    obtain ⟨-, -, rfl⟩ := Db.insertGroup_eq_ok h
    rfl

theorem keeps_bulkAddUserToGroups {userId : Id} {groupIds : List Id} :
    Allowed request .keep (tx (·.bulkAddUserToGroups userId groupIds)).exec := by
  apply keeps_tx
  intro db n db' h
  have hframe := (Db.bulkAddUserToGroups_eq_ok h).1
  rw [hframe]
  rfl

theorem keeps_assignUsersToIdp {samlIdpId : Option Id} :
    Allowed request .keep (tx (·.assignUsersToIdp userIds samlIdpId)).exec := by
  apply keeps_tx
  intro db a db' h
  unfold Db.assignUsersToIdp at h
  split at h
  · cases h
  · obtain rfl := Except.ok_snd h
    rfl

theorem createIdpBaseGroupSteps_allowed : (createIdpBaseGroupSteps idpId idpName source).Steps (Allowed request) := by
  apply Steps.atomic (fun _ => rfl)
  intro existing
  apply Steps.require
  intro _
  exact steps_atomic keeps_createIdpGroup

theorem getOrCreateBaseGroupIdSteps_allowed :
    (getOrCreateBaseGroupIdSteps idpId idpName source).Steps (Allowed request) := by
  apply Steps.atomic (fun _ => rfl)
  intro base
  cases base with
  | some baseGroupId => exact steps_pure baseGroupId
  | none =>
    apply createIdpBaseGroupSteps_allowed.rescue
    intro e
    cases e with
    | conflict => exact steps_atomic keeps_orRaise
    | _ => exact steps_raise

theorem ensureUsersInBaseGroup_allowed :
    (ensureUsersInBaseGroup userIds idpId idpName).Steps (Allowed request) := by
  apply steps_whenever
  intro _
  apply getOrCreateBaseGroupIdSteps_allowed.bind
  intro baseGroupId
  apply steps_forEach
  intro userId
  exact .atomic keeps_bulkAddUserToGroups fun _ => steps_pure ()

theorem moveUsersBetweenIdps_allowed {oldIdpId : Id} {newIdpName : Text} :
    (moveUsersBetweenIdps userIds oldIdpId newIdpId newIdpName).Steps (Allowed request) := by
  have hremove : ∀ userId, Steps (Allowed request) (do
      let oldGroupIds ← keeping (read (·.getUserIdpGroupIds userId oldIdpId .saml))
      whenever (oldGroupIds ≠ []) (keeping (write (·.bulkRemoveUserFromGroups userId oldGroupIds)))) := by
    intro userId
    apply Steps.atomic (fun _ => rfl)
    intro oldGroupIds
    exact steps_whenever fun _ => steps_atomic fun _ => rfl
  exact (steps_forEach hremove).bind fun _ => ensureUsersInBaseGroup_allowed

end Calls

variable {user : RequestingUser} {connectionId : Id}

theorem bindDomainToIdp_allowed {env : Env} :
    (bindDomainToIdp env user idpId domainId).Steps (Allowed (.bindDomainToIdp idpId domainId)) := by
  apply Steps.require
  intro _
  refine .atomic keeps_orRaise fun idp => .atomic keeps_orRaise fun domain => ?_
  refine .atomic (fun _ => rfl) fun oidcBinding => .require fun _ => .atomic (fun _ => rfl) fun usersInDomain => ?_
  apply Steps.bind
  · apply steps_whenever
    intro _
    exact .atomic keeps_assignUsersToIdp fun _ => ensureUsersInBaseGroup_allowed
  · intro _
    exact steps_atomic ⟨idpId, fun _ => rfl⟩

theorem rebindDomainToIdp_allowed {env : Env} :
    (rebindDomainToIdp env user domainId newIdpId).Steps (Allowed (.rebindDomainToIdp domainId newIdpId)) := by
  apply Steps.require
  intro _
  refine .atomic keeps_orRaise fun binding => .atomic keeps_orRaise fun newIdp => ?_
  refine .atomic keeps_orRaise fun domain => .atomic (fun _ => rfl) fun _ => .atomic (fun _ => rfl) fun users => ?_
  apply Steps.bind
  · apply steps_whenever
    intro _
    apply Steps.bind
    · exact steps_forEach fun userId => steps_atomic keeps_assignUsersToIdp
    · exact fun _ => moveUsersBetweenIdps_allowed
  · intro _
    exact steps_atomic ⟨newIdpId, fun _ => rfl⟩

theorem unbindDomainFromIdp_allowed :
    (unbindDomainFromIdp user domainId).Steps (Allowed (.unbindDomainFromIdp domainId)) := by
  apply Steps.require
  intro _
  refine .atomic keeps_orRaise fun _ => .atomic keeps_orRaise fun _ => ?_
  exact steps_atomic fun db => ⟨filter_subset_self _, List.Subset.refl _⟩

theorem bindDomainToConnection_allowed : (bindDomainToConnection user connectionId domainId).Steps
      (Allowed (.bindDomainToConnection connectionId domainId)) := by
  apply Steps.require
  intro _
  refine .atomic keeps_orRaise fun _ => .atomic keeps_orRaise fun domain => ?_
  refine .atomic (fun _ => rfl) fun samlBinding => .require fun _ => ?_
  exact steps_atomic ⟨connectionId, fun _ => rfl⟩

theorem rebindDomainToConnection_allowed {newConnectionId : Id} :
    (rebindDomainToConnection user domainId newConnectionId).Steps
      (Allowed (.rebindDomainToConnection domainId newConnectionId)) := by
  apply Steps.require
  intro _
  refine .atomic keeps_orRaise fun _ => .atomic keeps_orRaise fun _ => ?_
  refine .atomic keeps_orRaise fun _ => ?_
  exact steps_atomic ⟨newConnectionId, fun _ => rfl⟩

theorem unbindDomainFromConnection_allowed :
    (unbindDomainFromConnection user domainId).Steps (Allowed (.unbindDomainFromConnection domainId)) := by
  apply Steps.require
  intro _
  refine .atomic keeps_orRaise fun _ => .atomic keeps_orRaise fun _ => ?_
  exact steps_atomic fun db => ⟨List.Subset.refl _, filter_subset_self _⟩

theorem steps_allowed (env : Env) (user : RequestingUser) (request : BindingRequest) :
    (request.steps env user).Steps (Allowed request) := by
  cases request with
  | bindDomainToIdp => exact bindDomainToIdp_allowed
  | rebindDomainToIdp => exact rebindDomainToIdp_allowed
  | unbindDomainFromIdp => exact unbindDomainFromIdp_allowed
  | bindDomainToConnection => exact bindDomainToConnection_allowed
  | rebindDomainToConnection =>
    exact rebindDomainToConnection_allowed
  | unbindDomainFromConnection => exact unbindDomainFromConnection_allowed

section Once

variable {db : Db} {domainId : Id}

theorem boundOnce_of_subset {db' : Db} (h : db.BoundOnce) (hsaml : db'.samlDomainBindings ⊆ db.samlDomainBindings)
    (hoidc : db'.oidcDomainBindings ⊆ db.oidcDomainBindings) : db'.BoundOnce := by
  intro b hb b' hb'
  exact h b (hsaml hb) b' (hoidc hb')

theorem boundOnce_of_bindings {db' : Db} (h : db.BoundOnce) (hkeep : db'.bindings = db.bindings) : db'.BoundOnce := by
  obtain ⟨hsaml, hoidc⟩ := Prod.mk.inj hkeep
  apply boundOnce_of_subset h
  · exact fun b hb => hsaml ▸ hb
  · exact fun b hb => hoidc ▸ hb

theorem boundOnce_bindDomainToIdp (h : db.BoundOnce) :
    (db.bindDomainToIdp domainId idpId).BoundOnce ↔ ∀ b ∈ db.oidcDomainBindings, b.domainId ≠ domainId := by
  constructor
  · intro honce b hb heq
    have hnew : ⟨domainId, idpId⟩ ∈ (db.bindDomainToIdp domainId idpId).samlDomainBindings := by
      simp [Db.bindDomainToIdp]
    exact honce _ hnew b hb heq.symm
  · intro hfree b hb b' hb'
    simp only [Db.bindDomainToIdp, mem_append, mem_filter, mem_singleton] at hb
    rcases hb with ⟨hold, -⟩ | rfl
    · exact h b hold b' hb'
    · exact (hfree b' hb').symm

theorem boundOnce_bindDomainToConnection (h : db.BoundOnce) :
    (db.bindDomainToConnection domainId connectionId).BoundOnce ↔
      ∀ b ∈ db.samlDomainBindings, b.domainId ≠ domainId := by
  constructor
  · intro honce b hb heq
    have hnew : ⟨domainId, connectionId⟩ ∈
        (db.bindDomainToConnection domainId connectionId).oidcDomainBindings := by
      simp [Db.bindDomainToConnection]
    exact honce b hb _ hnew heq
  · intro hfree b hb b' hb'
    simp only [Db.bindDomainToConnection, mem_append, mem_filter, mem_singleton] at hb'
    rcases hb' with ⟨hold, -⟩ | rfl
    · exact h b hb b' hold
    · exact hfree b hb

theorem boundOnce_call {request : BindingRequest} {call : BindingCall} {f : Db → Db} (h : db.BoundOnce)
    (hcall : Allowed request call f) : (f db).BoundOnce ↔ UnboundElsewhere request call db := by
  cases call with
  | keep => exact ⟨fun _ => trivial, fun _ => boundOnce_of_bindings h (hcall db)⟩
  | bindSaml =>
    obtain ⟨idpId, hf⟩ := hcall
    rw [hf db]
    exact boundOnce_bindDomainToIdp h
  | bindOidc =>
    obtain ⟨connectionId, hf⟩ := hcall
    rw [hf db]
    exact boundOnce_bindDomainToConnection h
  | unbind => exact ⟨fun _ => trivial, fun _ => boundOnce_of_subset h (hcall db).1 (hcall db).2⟩

end Once

section Runs

variable {env : Env} {w : BindingServer} {event : BindingEvent}

/-- No domain is bound twice, and what the requests in flight may still do is known. -/
def Sound (w : BindingServer) : Prop := w.store.BoundOnce ∧ w.Steps Allowed

theorem boundOnce_step (h : w.Sound) : (w.step env event).store.BoundOnce ↔ w.BindsUnbound event := by
  obtain ⟨honce, hsteps⟩ := h
  cases event with
  | request => exact ⟨fun _ => trivial, fun _ => honce⟩
  | advance i =>
    rcases hsteps.advance_store with ⟨hstore, hmeets⟩ | ⟨request, call, f, hallowed, hstore, hmeets⟩
    · rw [step, hstore]
      exact ⟨fun _ => hmeets UnboundElsewhere, fun _ => honce⟩
    · rw [step, hstore, BindsUnbound, hmeets UnboundElsewhere]
      exact boundOnce_call honce hallowed

theorem steps_step (h : w.Steps Allowed) : (w.step env event).Steps Allowed := by
  cases event with
  | request user request => exact Pool.Steps.start h request (steps_allowed env user request)
  | advance i => exact Pool.Steps.advance h i

/-- From a state in which no domain is bound under both protocols, the requests keep it so exactly in the runs in
which no binding is written while the other protocol's table has one for the domain. -/
theorem domains_bound_once_iff {db : Db} (h : db.BoundOnce) (env : Env) (events : List BindingEvent) :
    (∀ before after, events = before ++ after → (run (step env) (idle db) before).store.BoundOnce) ↔
      Along (step env) BindsUnbound (idle db) events := by
  have hstart : (idle db).Sound := ⟨h, fun _ _ hmem => absurd hmem not_mem_nil⟩
  apply reached_iff_along (I := Sound) (A := fun w : BindingServer => w.store.BoundOnce)
  · exact fun w event hw hevent => ⟨(boundOnce_step hw).mpr hevent, steps_step hw.2⟩
  · exact fun w event hw honce => (boundOnce_step hw).mp honce
  · exact fun w hw => hw.1
  · exact hstart

def oneDomain : Db where
  privilegedDomains := [{ id := 1, domain := "a.com" }]
  identityProviders := [{ id := 2, name := "idp" }]
  oidcConnections := [{ id := 3, name := "connection" }]

def crossedBinds : List BindingEvent :=
  [.request ⟨0, .superAdmin⟩ (.bindDomainToIdp 2 1), .request ⟨0, .superAdmin⟩ (.bindDomainToConnection 3 1)] ++
    List.replicate 4 (.advance 0) ++ List.replicate 3 (.advance 1) ++ [.advance 0, .advance 1]

theorem crossed_binds_bind_twice :
    oneDomain.BoundOnce ∧ ¬ (run (step Env.ascii) (idle oneDomain) crossedBinds).store.BoundOnce := by
  decide +kernel

/-- One after the other, the second request is refused. -/
theorem serial_binds_bind_once :
    (run (step Env.ascii) (idle oneDomain) (.request ⟨0, .superAdmin⟩ (.bindDomainToIdp 2 1) ::
      List.replicate 6 (.advance 0) ++ .request ⟨0, .superAdmin⟩ (.bindDomainToConnection 3 1) ::
      List.replicate 6 (.advance 0))).store.BoundOnce := by
  have hfree : Along (step Env.ascii) BindsUnbound (idle oneDomain) (.request ⟨0, .superAdmin⟩ (.bindDomainToIdp 2 1) ::
      List.replicate 6 (.advance 0) ++ .request ⟨0, .superAdmin⟩ (.bindDomainToConnection 3 1) ::
      List.replicate 6 (.advance 0)) := by
    decide +kernel
  exact (domains_bound_once_iff (by decide) Env.ascii _).mpr hfree _ [] (append_nil _).symm

end Runs

end BindingServer

end WeftId
