import WeftId.OAuth.Provider

/-!
Tokens are minted under a live authorization as long as no withdrawal meets an authorization code that is still
outstanding.  Withdrawals delete tokens and approved device requests, but a code stays redeemable until it
expires, and its redemption checks neither the user nor the access.
-/

namespace WeftId

open List Proc Run ClosureTable

structure GrantsLive (db : Db) : Prop where
  holders : ∀ v, db.Holds v → db.Active v
  codes : ∀ c ∈ db.authorizationCodes, c.Outstanding db.now → db.Authorized c.userId c.clientId

section Preservation

variable {db db' : Db} {out moved : Id → Prop} {userId : Id}

theorem GrantsLive.issues (h : GrantsLive db) (hi : Issues (fun v _ => db.Active v) (fun _ => True) db db') :
    GrantsLive db' := by
  refine ⟨fun v hv => Db.Active.of_directory hi.directory.symm ?_, fun c hc hout => ?_⟩
  · rcases hv with ⟨t, ht, htype, rfl⟩ | ⟨d, hd, hstatus, hv⟩
    · rcases hi.tokens t ht htype with ⟨t₀, ht₀, htype₀, huser, -⟩ | hactive
      · exact h.holders _ (.inl ⟨t₀, ht₀, htype₀, huser⟩)
      · exact hactive
    · rcases hi.devices d hd hstatus with ⟨d₀, hd₀, hstatus₀, huser⟩ | hactive
      · exact h.holders _ (.inr ⟨d₀, hd₀, hstatus₀, huser.trans hv⟩)
      · exact hactive v hv
  · refine Db.Authorized.of_directory hi.directory.symm ?_
    rcases hi.codes c hc hout with hc | hauthorized
    · exact h.codes c hc ⟨hout.1, lt_of_le_of_lt hi.now_le hout.2⟩
    · exact hauthorized

theorem Touches.active (h : Touches out moved db db') (hactive : db.Active userId) (hout : ¬ out userId) :
    db'.Active userId := by
  obtain ⟨u, hu, rfl, hflag⟩ := hactive
  obtain ⟨u', hu', hid, -, hflag'⟩ := h.rows u hu hout
  exact ⟨u', hu', hid, hflag' hflag⟩

variable {client : OAuth2Client}

theorem Db.mayUse_iff : db.mayUse client userId ↔ client.oidcEnabled = false ∨
    (db.getClientById client.id).any (·.availableToAll) ∨ ∃ m ∈ db.memberships, m.userId = userId ∧
      ∃ a ∈ db.clientGroupAssignments, a.oauth2ClientId = client.id ∧
        (depthOf db.lineage a.groupId m.groupId).isSome := by
  simp only [mayUse, userCanAccessClient, Bool.not_eq_true, Bool.or_eq_true, any_eq_true, decide_eq_true_eq]

theorem Touches.mayUse (h : Touches out moved db db') (hmay : db.mayUse client userId)
    (hmoved : ¬ moved userId) : db'.mayUse client userId := by
  rw [Db.mayUse_iff] at hmay ⊢
  rw [Db.getClientById_of_clients h.clients, h.assignments]
  rcases hmay with hplain | hall | ⟨m, hm, huser, a, ha, hclient, hlineage⟩
  · exact .inl hplain
  · exact .inr (.inl hall)
  · have hkept := h.memberships m hm (by rwa [huser])
    exact .inr (.inr ⟨m, hkept, huser, a, ha, hclient, h.lineage _ _ hlineage⟩)

theorem GrantsLive.touches (h : GrantsLive db) (ht : Touches out moved db db')
    (hcodes : ∀ c ∈ db'.authorizationCodes, c.Outstanding db.now →
      (db.Active c.userId → db'.Active c.userId) ∧ ¬ moved c.userId) : GrantsLive db' := by
  refine ⟨fun v hv => ?_, fun c hc hout => ?_⟩
  · have hholds : db.Holds v := by
      rcases hv with ⟨t, ht', htype, huser⟩ | ⟨d, hd, hstatus, huser⟩
      · exact .inl ⟨t, ht.tokens ht', htype, huser⟩
      · exact .inr ⟨d, ht.devices hd, hstatus, huser⟩
    by_contra hgone
    -- whoever stops being active loses every grant
    have hnone := ht.shut v (h.holders v hholds) hgone
    rcases hv with ⟨t, ht', htype, huser⟩ | ⟨d, hd, hstatus, huser⟩
    · exact hnone.refresh t ht' htype huser
    · exact hnone.devices d hd hstatus huser
  · have hout' : c.Outstanding db.now := ⟨hout.1, lt_of_le_of_lt ht.now_le hout.2⟩
    obtain ⟨hactive, haccess⟩ := h.codes c (ht.codes hc) hout'
    obtain ⟨hkept, hmoved⟩ := hcodes c hc hout'
    refine ⟨hkept hactive, fun client hclient => ht.mayUse (haccess client ?_) hmoved⟩
    rwa [← Db.getClientById_of_clients ht.clients]

theorem GrantsLive.of_quiet (h : GrantsLive db) (ht : Touches (fun _ => False) (fun _ => False) db db') :
    GrantsLive db' :=
  h.touches ht fun _ _ _ => ⟨fun hactive => ht.active hactive fun hf => hf, fun hf => hf⟩

theorem GrantsLive.of_access (h : GrantsLive db) (husers : db'.users = db.users) (hnow : db'.now = db.now)
    (hcodes : db'.authorizationCodes = db.authorizationCodes) (hdevices : db'.oauth2DeviceCodes = db.oauth2DeviceCodes)
    (htokens : db'.oauth2Tokens ⊆ db.oauth2Tokens)
    (haccess : ∀ c ∈ db.authorizationCodes, c.Outstanding db.now → ∀ client,
      db'.getClientById c.clientId = some client → db'.mayUse client c.userId) : GrantsLive db' := by
  have hactive : ∀ v, db.Active v → db'.Active v := by
    intro v hv
    unfold Db.Active
    rwa [husers]
  refine ⟨fun v hv => hactive v (h.holders v ?_), fun c hc hout => ?_⟩
  · rcases hv with ⟨t, ht, hrest⟩ | ⟨d, hd, hrest⟩
    · exact .inl ⟨t, htokens ht, hrest⟩
    · rw [hdevices] at hd
      exact .inr ⟨d, hd, hrest⟩
  · rw [hcodes] at hc
    rw [hnow] at hout
    exact ⟨hactive _ (h.codes c hc hout).active, haccess c hc hout⟩

end Preservation

section ClientSettings

variable {db : Db} {clientId groupId : Id} {oidcEnabled availableToAll : Option Bool}

/-- Only the users of the client's groups may use it. -/
def OAuth2Client.Gated (client : OAuth2Client) : Prop := client.oidcEnabled ∧ client.availableToAll = false
  deriving Decidable

def OAuth2Client.withOidcSettings (client : OAuth2Client) (oidcEnabled availableToAll : Option Bool) : OAuth2Client :=
  { client with
    oidcEnabled := oidcEnabled.getD client.oidcEnabled
    availableToAll := availableToAll.getD client.availableToAll }

/-- No code of the client can still be redeemed. -/
def Db.NoOutstandingCodes (db : Db) (clientId : Id) : Prop :=
  ∀ c ∈ db.authorizationCodes, c.clientId = clientId → ¬ c.Outstanding db.now

theorem getClientById_updateClientOidcSettings (id : Id) :
    (db.updateClientOidcSettings clientId oidcEnabled availableToAll).getClientById id =
      (db.getClientById id).map fun c =>
        if c.id = clientId then c.withOidcSettings oidcEnabled availableToAll else c := by
  unfold Db.getClientById Db.updateClientOidcSettings
  rw [find?_map]
  congr 2
  funext c
  by_cases hc : c.id = clientId <;> simp [hc]

theorem getClientById_id {id : Id} (h : db.getClientById id = some client) : client.id = id := by
  simpa using find?_some h

theorem GrantsLive.updateClientOidcSettings (h : GrantsLive db) (hclient : db.getClientById clientId = some client)
    (hgates : (client.withOidcSettings oidcEnabled availableToAll).Gated → ¬ client.Gated →
      db.NoOutstandingCodes clientId) :
    GrantsLive (db.updateClientOidcSettings clientId oidcEnabled availableToAll) := by
  refine h.of_access rfl rfl rfl rfl (List.Subset.refl _) fun c hc hout client' hclient' => ?_
  rw [getClientById_updateClientOidcSettings] at hclient'
  obtain ⟨client₀, hclient₀, hupdated⟩ := Option.map_eq_some_iff.mp hclient'
  have hmay := (h.codes c hc hout).access client₀ hclient₀
  have hid₀ := getClientById_id hclient₀
  by_cases hsame : client₀.id = clientId
  · rw [if_pos hsame] at hupdated
    obtain rfl : client₀ = client := by
      rw [← hsame, hid₀, hclient₀] at hclient
      exact Option.some.inj hclient
    subst hupdated
    rw [Db.mayUse_iff, getClientById_updateClientOidcSettings]
    by_cases hplain : (client₀.withOidcSettings oidcEnabled availableToAll).oidcEnabled = false
    · exact .inl hplain
    by_cases hall : (client₀.withOidcSettings oidcEnabled availableToAll).availableToAll
    · right
      left
      have hfind : db.getClientById (client₀.withOidcSettings oidcEnabled availableToAll).id = some client₀ := by
        change db.getClientById client₀.id = _
        rwa [hid₀]
      rw [hfind, Option.map_some, if_pos hsame]
      exact hall
    -- the client is gated now: either it was before, or the call found no outstanding code
    have hgated : (client₀.withOidcSettings oidcEnabled availableToAll).Gated :=
      ⟨by simpa using hplain, by simpa using hall⟩
    by_cases hbefore : client₀.Gated
    · rw [Db.mayUse_iff, hid₀, hclient₀] at hmay
      rcases hmay with hmay | hmay | hmay
      · rw [hbefore.1] at hmay
        cases hmay
      · rw [Option.any_some, hbefore.2] at hmay
        cases hmay
      · rw [← hid₀] at hmay
        exact .inr (.inr hmay)
    · exact absurd hout (hgates hgated hbefore c hc (hid₀.symm.trans hsame))
  · rw [if_neg hsame] at hupdated
    subst hupdated
    rw [Db.mayUse_iff] at hmay ⊢
    rw [getClientById_updateClientOidcSettings, hid₀, hclient₀, Option.map_some, if_neg hsame, ← hclient₀, ← hid₀]
    exact hmay

theorem GrantsLive.deleteTokens (h : GrantsLive db) (p : OAuth2Token → Bool) : GrantsLive (db.deleteTokens p) :=
  h.of_quiet touches_deleteTokens

theorem ensures_getNormalClient_bind {α : Type} {f : OAuth2Client → Service α} {Q : Except Error α → Db → Prop}
    (herr : ∀ e, Q (.error e) db) (h : ∀ client, db.getClientById clientId = some client → (f client).Ensures db Q) :
    (getNormalClient clientId >>= f).Ensures db Q := by
  refine ensures_bind.mpr (.orRaise (herr _) fun client hclient => .require (herr _) fun _ => ?_)
  exact h client hclient

theorem GrantsLive.setOidcSettings (h : GrantsLive db) (user : RequestingUser)
    (hgates : ∀ client, db.getClientById clientId = some client →
      (client.withOidcSettings oidcEnabled availableToAll).Gated → ¬ client.Gated → db.NoOutstandingCodes clientId) :
    GrantsLive ((setOidcSettings user clientId oidcEnabled availableToAll).exec db) := by
  change (WeftId.setOidcSettings user clientId oidcEnabled availableToAll).Ensures db fun _ db' => GrantsLive db'
  refine .require h fun _ => ensures_getNormalClient_bind (fun _ => h) fun client hclient => ?_
  have hupdated := h.updateClientOidcSettings hclient (hgates client hclient)
  refine .write (ensures_whenever.mpr ⟨fun _ => ?_, fun _ => hupdated⟩)
  exact hupdated.deleteTokens _

theorem GrantsLive.assignClientToGroup (h : GrantsLive db) (user : RequestingUser) :
    GrantsLive ((assignClientToGroup user clientId groupId).exec db) := by
  change (WeftId.assignClientToGroup user clientId groupId).Ensures db fun _ db' => GrantsLive db'
  refine .require h fun _ => ensures_getNormalClient_bind (fun _ => h) fun _ _ => ?_
  refine .orRaise h fun _ _ =>
    ensures_bind.mpr (ensures_tx.mpr ⟨fun created db' hcreate => ?_, fun e he => by cases he⟩)
  obtain rfl := congrArg Prod.snd (Except.ok.inj hcreate)
  have hcreated : GrantsLive (db.createClientAssignment clientId groupId).2 := by
    unfold Db.createClientAssignment
    split_ifs
    · exact h
    · refine h.of_access rfl rfl rfl rfl (List.Subset.refl _) fun c hc hout client hclient => ?_
      have hmay := Db.mayUse_iff.mp ((h.codes c hc hout).access client hclient)
      refine Db.mayUse_iff.mpr (hmay.imp_right (Or.imp_right ?_))
      rintro ⟨m, hm, huser, a, ha, hrest⟩
      exact ⟨m, hm, huser, a, mem_append_left _ ha, hrest⟩
  exact ensures_require.mpr ⟨fun _ => hcreated, fun _ => hcreated⟩

theorem GrantsLive.deleteClientAssignment (h : GrantsLive db)
    (hgated : ∀ client, db.getClientById clientId = some client → client.Gated → db.NoOutstandingCodes clientId) :
    GrantsLive (db.deleteClientAssignment clientId groupId) := by
  refine h.of_access rfl rfl rfl rfl (List.Subset.refl _) fun c hc hout client hclient => ?_
  have hfound : db.getClientById c.clientId = some client := hclient
  have hid := getClientById_id hfound
  have hmay := Db.mayUse_iff.mp ((h.codes c hc hout).access client hfound)
  rw [Db.mayUse_iff]
  rcases hmay with hplain | hall | ⟨m, hm, huser, a, ha, haclient, hlineage⟩
  · exact .inl hplain
  · exact .inr (.inl hall)
  · by_cases hother : client.id = clientId
    · by_cases hgate : client.Gated
      · rw [← hid, hother] at hfound
        exact absurd hout (hgated client hfound hgate c hc (hid.symm.trans hother))
      · by_cases hplain : client.oidcEnabled = false
        · exact .inl hplain
        · right
          left
          change ((db.getClientById client.id).any (·.availableToAll)) = true
          rw [hid, hfound]
          by_contra hall
          exact hgate ⟨by simpa using hplain, by simpa using hall⟩
    · have hkept : a ∈ (db.deleteClientAssignment clientId groupId).clientGroupAssignments := by
        refine mem_filter.mpr ⟨ha, ?_⟩
        simp only [decide_eq_true_eq, not_and]
        exact fun hdeleted => absurd (haclient.symm.trans hdeleted) hother
      exact .inr (.inr ⟨m, hm, huser, a, hkept, haclient, hlineage⟩)

theorem GrantsLive.removeClientGroupAssignment (h : GrantsLive db) (user : RequestingUser)
    (hgated : ∀ client, db.getClientById clientId = some client → client.Gated → db.NoOutstandingCodes clientId) :
    GrantsLive ((removeClientGroupAssignment user clientId groupId).exec db) := by
  change (WeftId.removeClientGroupAssignment user clientId groupId).Ensures db fun _ db' => GrantsLive db'
  refine .require h fun _ => ensures_getNormalClient_bind (fun _ => h) fun _ _ => ?_
  have hdeleted : GrantsLive (db.deleteClientAssignment clientId groupId) := h.deleteClientAssignment hgated
  refine .read (.write (.require hdeleted fun _ => ?_))
  exact ensures_whenever.mpr ⟨fun _ => hdeleted.deleteTokens _, fun _ => hdeleted⟩

end ClientSettings

section Accounts

variable {db : Db} {userId : Id}

def KeepsActive (db db' : Db) : Prop := ∀ v, db.Active v → db'.Active v

instance : Std.Refl KeepsActive := ⟨fun _ _ h => h⟩

instance : IsTrans Db KeepsActive := ⟨fun _ _ _ h h' v hv => h' v (h v hv)⟩

theorem keepsActive_updateUserRole {role : Role} : KeepsActive db (db.updateUserRole userId role) := by
  rintro v ⟨u, hu, rfl, hactive⟩
  refine ⟨_, mem_map_of_mem hu, ?_⟩
  split_ifs <;> exact ⟨rfl, hactive⟩

theorem keepsActive_updateUser {user : RequestingUser} {update : UserUpdate} :
    (updateUser user userId update).Within KeepsActive := by
  refine within_updateUser_of (fun first last => ?_) fun role _ db => keepsActive_updateUserRole
  refine Within.mono (R := Touches (fun _ => False) fun _ => False) (within_updateUserProfile _ _) ?_
  exact fun db db' ht v hv => ht.active hv fun hf => hf

theorem GrantsLive.deleteUser (h : GrantsLive db) (user : RequestingUser) :
    GrantsLive ((deleteUser user userId).exec db) := by
  change (WeftId.deleteUser user userId).Ensures db fun _ db' => GrantsLive db'
  refine .require h fun _ => .orRaise h fun target _ => .read (.require h fun _ => .require h fun _ => ?_)
  refine .write (ensures_tx.mpr ⟨fun _ db' hdelete => ?_, fun e _ => ?_⟩)
  · have htouches : Touches (· = userId) (· = userId) (db.consumeUserSessionClients userId) db' :=
      touches_deleteUser (by exact rfl) (by exact rfl) hdelete
    refine (h.of_quiet (touches_consumeUserSessionClients db userId)).touches htouches fun c hc _ => ?_
    have hother : c.userId ≠ userId := by
      unfold Db.deleteUser at hdelete
      split_ifs at hdelete
      obtain rfl := Except.ok_snd hdelete
      simpa using (mem_filter.mp hc).2
    exact ⟨fun hactive => htouches.active hactive hother, hother⟩
  · exact h.of_quiet (touches_consumeUserSessionClients db userId)

end Accounts

namespace ServiceStep

variable (env : Env)

/-- The users whom the call inactivates or takes out of their groups.  A role change does neither, and a
deletion takes the codes of the user along. -/
def Withdraws (db : Db) : LifecycleCall → Id → Prop
  | .deleteUser _ _, _ | .updateUser _ _ _, _ => False
  | c, v => c.TakesOut env db v ∨ c.Moves v

/-- A step that withdraws a user or access to a client meets no outstanding code of that user or client. -/
def SparesCodes (db : Db) : ServiceStep → Prop
  | .lifecycle c => ∀ code ∈ db.authorizationCodes, code.Outstanding db.now → ¬ Withdraws env db c code.userId
  | .setOidcSettings _ clientId oidcEnabled availableToAll => ∀ client, db.getClientById clientId = some client →
      (client.withOidcSettings oidcEnabled availableToAll).Gated → ¬ client.Gated → db.NoOutstandingCodes clientId
  | .removeClientGroupAssignment _ clientId _ => ∀ client, db.getClientById clientId = some client → client.Gated →
      db.NoOutstandingCodes clientId
  | _ => True

variable {env} {db : Db} {request : GrantRequest}

theorem grantsLive_lifecycle (h : GrantsLive db) {c : LifecycleCall}
    (hspares : ∀ code ∈ db.authorizationCodes, code.Outstanding db.now → ¬ Withdraws env db c code.userId) :
    GrantsLive (c.exec env db) := by
  have htouches := c.touches_exec env db
  have hall : (∀ v, Withdraws env db c v ↔ c.TakesOut env db v ∨ c.Moves v) → GrantsLive (c.exec env db) := by
    intro hiff
    refine h.touches htouches fun code hcode hout => ?_
    obtain ⟨hkept, hmoved⟩ := not_or.mp fun hw => hspares code (htouches.codes hcode) hout ((hiff code.userId).mpr hw)
    exact ⟨fun hactive => htouches.active hactive hkept, hmoved⟩
  cases c with
  | deleteUser user userId => exact h.deleteUser user
  | updateUser =>
    exact h.touches htouches fun code _ _ => ⟨keepsActive_updateUser db code.userId, fun hf => hf⟩
  | _ => exact hall fun v => Iff.rfl

theorem issues_token (h : GrantsLive db) {clientId : Id} :
    Issues (fun v _ => db.Active v) (fun _ => True) db ((tokenEndpoint env clientId request).exec db) := by
  refine Granting.issues tokenEndpoint_cases (fun client code hredeems => ?_) h.holders
  obtain ⟨hmem, -, hlive⟩ := hredeems.found
  exact ⟨(h.codes code hmem ⟨hredeems.unconsumed, hlive⟩).active, fun _ _ => trivial⟩

theorem grantsLive_exec (h : GrantsLive db) {step : ServiceStep} (hspares : step.SparesCodes env db) :
    GrantsLive (step.exec env db) := by
  cases step with
  | authorize => exact h.issues (within_handleAuthorizeRequest db)
  | authorizeGrant => exact h.issues (within_authorizeGrant db)
  | startDeviceAuthorization => exact h.issues (within_startDeviceAuthorization db)
  | deviceDecision => exact h.issues (within_deviceDecision db)
  | token => exact h.issues (issues_token h)
  | lifecycle c => exact grantsLive_lifecycle h hspares
  | reactivateUser => exact h.of_quiet (within_reactivateUser db)
  | setOidcSettings user => exact h.setOidcSettings user hspares
  | assignClientToGroup user => exact h.assignClientToGroup user
  | removeClientGroupAssignment user => exact h.removeClientGroupAssignment user hspares
  | endOidcSession sid => exact h.of_quiet (touches_endOidcSession db)
  | wait micros => exact h.of_quiet (touches_wait micros)

theorem authorized_of_issued (h : GrantsLive db) {clientId c u : Id}
    (hanswer : (tokenEndpoint env clientId request db).1 = .ok (.issued c u)) :
    db.Active u ∧ ∃ client, db.getClientById c = some client ∧ db.mayUse client u := by
  obtain ⟨rfl, client, hclient, hgrant⟩ := Granting.issued tokenEndpoint_cases hanswer
  rcases hgrant with ⟨code, hredeems, rfl⟩ | ⟨hholds, hmay⟩
  · obtain ⟨hmem, hid, hlive⟩ := hredeems.found
    have hauthorized := h.codes code hmem ⟨hredeems.unconsumed, hlive⟩
    rw [hid, getClientById_id hclient] at hauthorized
    exact ⟨hauthorized.active, client, hclient, hauthorized.access client hclient⟩
  · exact ⟨h.holders u hholds, client, hclient, hmay⟩

/-- In every run in which no withdrawal meets an outstanding code, tokens are only issued to active users who
may access the client. -/
theorem tokens_issued_under_live_authorization (env : Env) {db : Db} (hdb : GrantsLive db) {steps : List ServiceStep}
    (h : Along (exec env) (SparesCodes env) db steps) {before after : List ServiceStep} {clientId : Id}
    {request : GrantRequest} (hsteps : steps = before ++ .token clientId request :: after) {c u : Id}
    (hissued : (tokenEndpoint env clientId request (run (exec env) db before)).1 = .ok (.issued c u)) :
    (run (exec env) db before).Active u ∧ ∃ client, (run (exec env) db before).getClientById c = some client ∧
      (client.oidcEnabled → (run (exec env) db before).userCanAccessClient u c) := by
  subst hsteps
  have hlive : GrantsLive (run (exec env) db before) :=
    invariant_of_along (fun _ step hdb hspares => grantsLive_exec hdb hspares) hdb h.left
  obtain ⟨hactive, client, hclient, hmay⟩ := authorized_of_issued hlive hissued
  refine ⟨hactive, client, hclient, fun hoidc => ?_⟩
  have hid := getClientById_id hclient
  unfold Db.mayUse at hmay
  rw [hid] at hmay
  simpa [hoidc] using hmay

def appsTenant : Db where
  nextId := 10
  users := [{ id := 1, role := .admin }, { id := 2 }]
  oauth2Clients := [{ id := 5, redirectUris := ["cb"] },
    { id := 6, redirectUris := ["cb"], oidcEnabled := true }]
  clientGroupAssignments := [⟨6, 7⟩]
  memberships := [⟨7, 2⟩]
  lineage := [⟨7, 7, 0⟩]

theorem grantsLive_appsTenant : GrantsLive appsTenant := by
  refine ⟨fun v hv => ?_, fun c hc => ?_⟩
  · rcases hv with ⟨t, ht, -⟩ | ⟨d, hd, -⟩
    · exact absurd ht not_mem_nil
    · exact absurd hd not_mem_nil
  · exact absurd hc not_mem_nil

def adaAuthorizes (clientId : Id) : ServiceStep :=
  .authorize { userId := some 2, sid := some 3 } { clientId, redirectUri := "cb" } true

def adaRedeems : GrantRequest := .authorizationCode (some "10") (some "cb") none

/-- A code is redeemed after its user was inactivated, and one after the group lost the application. -/
theorem code_outlives_withdrawal : GrantsLive appsTenant ∧
    (tokenEndpoint Env.ascii 5 adaRedeems (run (exec Env.ascii) appsTenant
      [adaAuthorizes 5, .lifecycle (.inactivateUser ⟨1, .admin⟩ 2)])).1 = .ok (.issued 5 2) ∧
    ¬ (run (exec Env.ascii) appsTenant [adaAuthorizes 5, .lifecycle (.inactivateUser ⟨1, .admin⟩ 2)]).Active 2 ∧
    (tokenEndpoint Env.ascii 6 adaRedeems (run (exec Env.ascii) appsTenant
      [adaAuthorizes 6, .removeClientGroupAssignment ⟨1, .admin⟩ 6 7])).1 = .ok (.issued 6 2) ∧
    (run (exec Env.ascii) appsTenant
      [adaAuthorizes 6, .removeClientGroupAssignment ⟨1, .admin⟩ 6 7]).userCanAccessClient
      2 6 = false :=
  ⟨grantsLive_appsTenant, by decide +kernel, by decide +kernel, by decide +kernel, by decide +kernel⟩

/-- The code is redeemed first, and the group loses the application afterwards. -/
theorem code_redeemed_in_time : (run (exec Env.ascii) appsTenant [adaAuthorizes 6]).Active 2 ∧
    ∃ client, (run (exec Env.ascii) appsTenant [adaAuthorizes 6]).getClientById 6 = some client ∧
      (client.oidcEnabled → (run (exec Env.ascii) appsTenant [adaAuthorizes 6]).userCanAccessClient 2 6) := by
  have hspares : Along (exec Env.ascii) (SparesCodes Env.ascii) appsTenant
      ([adaAuthorizes 6] ++ .token 6 adaRedeems :: [.removeClientGroupAssignment ⟨1, .admin⟩ 6 7]) := by
    simp only [cons_append, nil_append, along_cons]
    refine ⟨trivial, trivial, fun _ _ _ => ?_, along_nil⟩
    unfold Db.NoOutstandingCodes
    decide +kernel
  exact tokens_issued_under_live_authorization Env.ascii grantsLive_appsTenant hspares rfl (by decide +kernel)

end ServiceStep

end WeftId
