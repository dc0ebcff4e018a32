import WeftId.OAuth.Provider
import WeftId.OAuth.RefreshChains

/-!
Remembered consent.  A grant lets the authorization endpoint issue codes without asking; revoking it deletes
the grant, the codes that are not redeemed yet, the approved device requests and the tokens of the user at the
client, and from then on only a new decision of the user leads to a token.
-/

namespace WeftId

open List Proc Run

structure ConsentGrant where
  id : Id
  clientId : Id
  userId : Id
  scopes : List Text
  deriving DecidableEq

structure ConsentStore where
  db : Db
  grants : List ConsentGrant := []

namespace Db

def revokeUserClientTokens (db : Db) (userId clientId : Id) : Db :=
  { db.deleteTokens fun t => t.userId = userId ∧ t.clientId = clientId with
    authorizationCodes := db.authorizationCodes.filter fun c =>
      ¬ (c.userId = userId ∧ c.clientId = clientId ∧ c.consumedAt = none)
    oauth2DeviceCodes := db.oauth2DeviceCodes.filter fun d =>
      ¬ (d.userId = some userId ∧ d.clientId = clientId ∧ d.status = .approved) }

def consumeUserClientSessionClients (db : Db) (userId clientId : Id) : Db :=
  { db with oidcSessionClients := db.oidcSessionClients.filter fun r => ¬ (r.userId = userId ∧ r.clientId = clientId) }

end Db

namespace ConsentStore

def getConsentGrant (s : ConsentStore) (clientId userId : Id) : Option ConsentGrant :=
  s.grants.find? fun g => g.clientId = clientId ∧ g.userId = userId

def consentCovers (s : ConsentStore) (clientId userId : Id) (scopes : List Text) : Bool :=
  (s.getConsentGrant clientId userId).any fun g => scopes.all (· ∈ g.scopes)

def upsertConsentGrant (s : ConsentStore) (clientId userId : Id) (scopes : List Text) : Except DbError ConsentStore :=
  let stored := ((s.getConsentGrant clientId userId).map (·.scopes)).getD []
  let union := (stored ++ scopes).eraseDups
  if 50 < union.length then .error (.checkViolation "chk_oauth2_consent_grants_scopes_count")
  else if s.grants.any fun g => g.clientId = clientId ∧ g.userId = userId then
    .ok { s with grants := s.grants.map fun g =>
      if g.clientId = clientId ∧ g.userId = userId then { g with scopes := union } else g }
  else .ok {
    db := { s.db with nextId := s.db.nextId + 1 }
    grants := s.grants ++ [{ id := s.db.nextId, clientId, userId, scopes := union }] }

def recordConsent (s : ConsentStore) (clientId userId : Id) (scopes : List Text) : Except Error ConsentStore :=
  if s.consentCovers clientId userId scopes then .ok s
  else (s.upsertConsentGrant clientId userId scopes).mapError .database

section Requests

variable (env : Env)

def handleAuthorizeRequest (session : Session) (params : AuthorizeParams) (s : ConsentStore) : ConsentStore :=
  let covered := session.userId.any fun userId => s.consentCovers params.clientId userId (parseScope params.scope)
  { s with db := (WeftId.handleAuthorizeRequest env session params covered).exec s.db }

/-- The consent is recorded when the request is about to be answered with a code, and before the code is
issued. -/
def authorizeGrant (session : Session) (stored : AuthorizeParams) (createdAt : Nat) (action : String)
    (s : ConsentStore) : ConsentStore :=
  match WeftId.authorizeGrant env session stored createdAt action s.db, session.userId with
  | (.ok (.code _, _), _), some userId =>
    match s.recordConsent stored.clientId userId (parseScope stored.scope) with
    | .ok s' => { s' with db := (WeftId.authorizeGrant env session stored createdAt action).exec s'.db }
    | .error _ => s
  | (_, db), _ => { s with db }

def deviceDecision (session : Session) (stash : DeviceVerification) (action : String) (s : ConsentStore) :
    ConsentStore :=
  match WeftId.deviceDecision session stash action s.db, session.userId, s.db.findPendingRequest stash.userCode with
  | (.ok .approved, db), some userId, some (request, client) =>
    match ConsentStore.recordConsent { s with db } client.id userId (parseScope request.scope) with
    | .ok s' => s'
    | .error _ => { s with db }
  | (_, db), _, _ => { s with db }

end Requests

def revoke (grant : ConsentGrant) : Proc ConsentStore Error Unit := do
  let deleted ← read fun s : ConsentStore => s.grants.any (·.id = grant.id)
  write fun s => { s with grants := s.grants.filter (·.id ≠ grant.id) }
  require deleted (.notFound "Consent grant not found" "consent_grant_not_found")
  write fun s => { s with db := s.db.revokeUserClientTokens grant.userId grant.clientId }
  write fun s => { s with db := s.db.consumeUserClientSessionClients grant.userId grant.clientId }

def revokeMyGrant (user : RequestingUser) (grantId : Id) : Proc ConsentStore Error ConsentGrant := do
  let grant ← orRaise (fun s : ConsentStore => s.grants.find? fun g => g.id = grantId ∧ g.userId = user.id)
    (.notFound "Consent grant not found" "consent_grant_not_found")
  revoke grant
  pure grant

def revokeClientGrant (user : RequestingUser) (clientId grantId : Id) : Proc ConsentStore Error ConsentGrant := do
  require (user.role = .admin ∨ user.role = .superAdmin)
    (.forbidden "Admin access required" "admin_required" (some "admin"))
  let client ← orRaise (fun s : ConsentStore => s.db.getClientById clientId)
    (.notFound "Application not found" "oauth2_client_not_found")
  require (client.clientType = .normal)
    (.validation "Consent applies only to Apps (authorization-code clients)" "consent_not_supported_for_client_type")
  let grant ← orRaise (fun s : ConsentStore => s.grants.find? fun g => g.id = grantId ∧ g.clientId = client.id)
    (.notFound "Consent grant not found" "consent_grant_not_found")
  revoke grant
  pure grant

end ConsentStore

inductive ConsentStep
  | authorize (session : Session) (params : AuthorizeParams)
  | authorizeGrant (session : Session) (stored : AuthorizeParams) (createdAt : Nat) (action : String)
  | startDeviceAuthorization (clientId : Id) (scope : Option Text)
  | deviceDecision (session : Session) (stash : DeviceVerification) (action : String)
  | token (clientId : Id) (request : GrantRequest)
  | revokeMyGrant (user : RequestingUser) (grantId : Id)
  | revokeClientGrant (user : RequestingUser) (clientId grantId : Id)
  | wait (micros : Nat)

namespace ConsentStep

def exec (env : Env) (s : ConsentStore) : ConsentStep → ConsentStore
  | .authorize session params => s.handleAuthorizeRequest env session params
  | .authorizeGrant session stored createdAt action => s.authorizeGrant env session stored createdAt action
  | .startDeviceAuthorization clientId scope =>
    { s with db := (WeftId.startDeviceAuthorization env clientId scope).exec s.db }
  | .deviceDecision session stash action => s.deviceDecision session stash action
  | .token clientId request => { s with db := (tokenEndpoint env clientId request).exec s.db }
  | .revokeMyGrant user grantId => (ConsentStore.revokeMyGrant user grantId).exec s
  | .revokeClientGrant user clientId grantId => (ConsentStore.revokeClientGrant user clientId grantId).exec s
  | .wait micros => { s with db := s.db.wait micros }

def Revokes (userId clientId : Id) (s : ConsentStore) : ConsentStep → Prop
  | .revokeMyGrant user grantId =>
    ∃ grant, (ConsentStore.revokeMyGrant user grantId s).1 = .ok grant ∧ grant.userId = userId ∧
      grant.clientId = clientId
  | .revokeClientGrant user client grantId => ∃ grant,
    (ConsentStore.revokeClientGrant user client grantId s).1 = .ok grant ∧ grant.userId = userId ∧
      grant.clientId = clientId
  | _ => False

/-- The step records a new decision of the user for the client: a consent grant, or an approved device request. -/
def Decides (env : Env) (userId clientId : Id) (s : ConsentStore) (step : ConsentStep) : Prop :=
  (s.getConsentGrant clientId userId = none ∧ (step.exec env s).getConsentGrant clientId userId ≠ none) ∨
    ∃ d ∈ (step.exec env s).db.oauth2DeviceCodes, d ∉ s.db.oauth2DeviceCodes ∧ d.status = .approved ∧
      d.userId = some userId ∧ d.clientId = clientId
  deriving Decidable

end ConsentStep

/-- Nothing is left from which the client could get a token for the user: no token, no code to redeem and no
approved device request. -/
structure Db.Severed (userId clientId : Id) (db : Db) : Prop where
  tokens : ∀ t ∈ db.oauth2Tokens, ¬ (t.userId = userId ∧ t.clientId = clientId)
  codes : ∀ code ∈ db.authorizationCodes, code.consumedAt = none → ¬ (code.userId = userId ∧ code.clientId = clientId)
  devices : ∀ d ∈ db.oauth2DeviceCodes, d.status = .approved → ¬ (d.userId = some userId ∧ d.clientId = clientId)
  client : ∀ client, db.getClientById clientId = some client → client.clientType = .normal

variable {grantId : Id} {client : OAuth2Client} {session : Session}

section Severed

variable {userId clientId u c : Id} {db db' : Db} {env : Env} {scope : Option Text}

section

variable (h : db.Severed userId clientId)
include h

theorem Db.Severed.of_eq (htokens : db'.oauth2Tokens = db.oauth2Tokens)
    (hcodes : db'.authorizationCodes = db.authorizationCodes) (hdevices : db'.oauth2DeviceCodes = db.oauth2DeviceCodes)
    (hclients : db'.oauth2Clients = db.oauth2Clients) : db'.Severed userId clientId := by
  refine ⟨htokens ▸ h.tokens, hcodes ▸ h.codes, hdevices ▸ h.devices, fun client hclient => h.client client ?_⟩
  rwa [← getClientById_of_clients hclients]

theorem Db.Severed.of_tokens
    {tokens : List OAuth2Token} (htokens : ∀ t ∈ tokens, ¬ (t.userId = userId ∧ t.clientId = clientId)) {nextId : Id} :
    Db.Severed userId clientId { db with nextId, oauth2Tokens := tokens } :=
  ⟨htokens, h.codes, h.devices, h.client⟩

theorem Db.Severed.deleteTokens (p : OAuth2Token → Bool) :
    (db.deleteTokens p).Severed userId clientId :=
  h.of_tokens (fun t ht => h.tokens t (mem_deleteTokens ht).1)

theorem Db.Severed.append {t : OAuth2Token}
    (ht : ¬ (t.userId = userId ∧ t.clientId = clientId)) (nextId : Id) :
    Db.Severed userId clientId { db with nextId, oauth2Tokens := db.oauth2Tokens ++ [t] } := by
  refine h.of_tokens (fun t' ht' => ?_)
  rcases mem_append.mp ht' with ht' | ht'
  · exact h.tokens t' ht'
  · rwa [mem_singleton.mp ht']

theorem Db.Severed.rotateRefreshToken {old : OAuth2Token}
    (hold : old ∈ db.oauth2Tokens) : (db.rotateRefreshToken old).2.Severed userId clientId := by
  refine h.of_tokens (fun t ht => ?_)
  obtain ⟨-, rfl | ⟨t₀, ht₀, rfl⟩⟩ := mem_rotateRefreshToken_cases ht
  · exact h.tokens old hold
  · rw [reparent_owner.1, reparent_owner.2.1]
    exact h.tokens t₀ ht₀

theorem Db.Severed.wait (micros : Nat) : (db.wait micros).Severed userId clientId := h.of_eq rfl rfl rfl rfl

theorem Db.Severed.createAccessToken (hpair : ¬ (u = userId ∧ c = clientId))
    {parentTokenId grantId : Option Id} {isClientCredentials : Bool}
    (hcreate : db.createAccessToken env c u parentTokenId isClientCredentials scope grantId = .ok ((), db')) :
    db'.Severed userId clientId := by
  obtain ⟨-, rfl⟩ := createAccessToken_eq_ok hcreate
  exact h.append hpair _

theorem Db.Severed.consumeCode (codeId : Id) :
    (db.consumeCode codeId).2.Severed userId clientId := by
  unfold Db.consumeCode
  split_ifs
  · refine ⟨h.tokens, fun code hcode hopen => ?_, h.devices, h.client⟩
    obtain ⟨code₀, hcode₀, rfl⟩ := mem_map.mp hcode
    split_ifs at hopen ⊢
    exact h.codes code₀ hcode₀ hopen
  · exact h

theorem Db.Severed.updateDeviceCode (requestId : Id) {f : DeviceCode → DeviceCode}
    (hf : ∀ d, (f d).status = .approved → d.status = .approved ∧ (f d).userId = d.userId ∧
      (f d).clientId = d.clientId) :
    (db.updateDeviceCode requestId f).Severed userId clientId := by
  refine ⟨h.tokens, h.codes, fun d hd hstatus => ?_, h.client⟩
  obtain ⟨d₀, hd₀, rfl⟩ := mem_map.mp hd
  split_ifs at hstatus ⊢
  · obtain ⟨hstatus₀, huser, hclient⟩ := hf d₀ hstatus
    rw [huser, hclient]
    exact h.devices d₀ hd₀ hstatus₀
  · exact h.devices d₀ hd₀ hstatus

theorem Db.Severed.redeemDeviceCode (requestId : Id) :
    (db.redeemDeviceCode requestId).2.Severed userId clientId := by
  unfold Db.redeemDeviceCode
  split
  · refine h.updateDeviceCode requestId fun d hstatus => ?_
    split_ifs at hstatus ⊢
    exact ⟨hstatus, rfl, rfl⟩
  · exact h

theorem Db.Severed.issueUserTokens {sid : Option Id} {r : Except Error TokenAnswer}
    (hissue : WeftId.issueUserTokens env client u scope grantId sid db = (r, db'))
    (hpair : ¬ (u = userId ∧ client.id = clientId)) : db'.Severed userId clientId := by
  obtain ⟨db₁, hcreate, hdb'⟩ := issueUserTokens_cases env
  obtain rfl := congrArg Prod.snd (hdb'.symm.trans hissue)
  have htokens := Severed.createAccessToken ((h.append hpair _).wait env.tokenPause) hpair hcreate
  cases grantSession client scope sid with
  | none => exact htokens
  | some s => exact htokens.of_eq rfl rfl rfl rfl

end

abbrev Severs (userId clientId : Id) : Db → Db → Prop := Preserves (Db.Severed userId clientId)

theorem within_tokenEndpoint_severed {client : Id} {request : GrantRequest} :
    (tokenEndpoint env client request).Within (Severs userId clientId) := by
  intro db h
  change (tokenEndpoint env client request).Ensures db fun _ db' => db'.Severed userId clientId
  refine tokenEndpoint_cases.mono fun r db' hgrant => ?_
  cases hgrant with
  | kept => exact h
  | reused _ codeId hdb =>
    rcases hdb with rfl | rfl
    · exact h.deleteTokens _
    · exact (h.consumeCode codeId).deleteTokens _
  | polled _ requestId => exact h.updateDeviceCode requestId fun d hd => ⟨hd, rfl, rfl⟩
  | code hredeems hissue =>
    obtain ⟨hmem, hclient, -⟩ := hredeems.found
    refine (h.consumeCode _).issueUserTokens hissue fun hpair => ?_
    exact h.codes _ hmem hredeems.unconsumed ⟨hpair.1, hclient.trans hpair.2⟩
  | refresh _ _ hfound _ hcreate =>
    obtain ⟨hmem, -, -, hclient, -⟩ := Db.findRefreshToken_spec hfound
    refine ((h.rotateRefreshToken hmem).wait env.tokenPause).createAccessToken (fun hpair => ?_) hcreate
    exact h.tokens _ hmem ⟨hpair.1, hclient.trans hpair.2⟩
  | orphaned hfound => exact h.rotateRefreshToken (Db.findRefreshToken_spec hfound).1
  | @service found _ hclient htype _ hcreate =>
    refine h.createAccessToken (fun hpair => ?_) hcreate
    have hid : found.id = client := by simpa using find?_some hclient
    obtain rfl := hid.symm.trans hpair.2
    cases (h.client found hclient).symm.trans htype
  | device _ _ hfound hstatus huser _ hissue =>
    obtain ⟨hmem, hclient⟩ := Db.findDeviceCode_spec hfound
    refine (h.redeemDeviceCode _).issueUserTokens hissue fun hpair => ?_
    exact h.devices _ hmem hstatus ⟨huser.trans (congrArg some hpair.1), hclient.trans hpair.2⟩
  | unredeemed _ requestId => exact h.redeemDeviceCode requestId

theorem Db.Severed.answering (h : db.Severed userId clientId) {params : AuthorizeParams}
    {P : OAuth2Client → Prop} {r : Except Error (AuthorizeAnswer × Session)}
    (hanswer : Answering env db session params P r db') : db'.Severed userId clientId ∨
      (∃ client, P client) ∧ (∃ code after, r = .ok (.code code, after)) ∧ session.userId = some userId ∧
        params.clientId = clientId := by
  cases hanswer with
  | kept => exact .inl (h.of_eq rfl rfl rfl rfl)
  | @issued user _ _ client _ code huser _ _ _ _ _ hP =>
    by_cases hpair : user.id = userId ∧ params.clientId = clientId
    · exact .inr ⟨⟨client, hP⟩, ⟨code, _, rfl⟩, hpair.1 ▸ (getCurrentUser_active huser).1, hpair.2⟩
    · refine .inl ⟨h.tokens, fun code hcode hopen => ?_, h.devices, h.client⟩
      rcases mem_concat_iff.mp hcode with hcode | rfl
      · exact h.codes code (mem_of_mem_filter hcode) hopen
      · exact hpair

theorem within_startDeviceAuthorization_severed {client : Id} :
    (startDeviceAuthorization env client scope).Within (Severs userId clientId) := by
  have hauthenticate : (authenticateClient client).Within (Severs userId clientId) :=
    .orRaise fun _ => .require fun _ => within_pure _
  refine within_bind hauthenticate fun _ => .require fun _ => ?_
  refine within_bind (within_write fun db h => ?_) fun _ => within_iff_ensures.mpr fun db => ?_
  · exact ⟨h.tokens, h.codes, fun d hd => h.devices d (mem_of_mem_filter hd), h.client⟩
  · refine .orRaise id fun created hcreated h => ?_
    obtain ⟨userCode, -, rfl⟩ := Option.map_eq_some_iff.mp hcreated
    refine ⟨h.tokens, h.codes, fun d hd hstatus => ?_, h.client⟩
    rcases mem_concat_iff.mp hd with hd | rfl
    · exact h.devices d hd hstatus
    · cases hstatus

theorem deviceDecision_frame (session : Session) (stash : DeviceVerification) (action : String) (db : Db) :
    (WeftId.deviceDecision session stash action).Ensures db fun _ db' => db'.oauth2Tokens = db.oauth2Tokens ∧
      db'.authorizationCodes = db.authorizationCodes ∧ db'.oauth2Clients = db.oauth2Clients := by
  refine (deviceDecision_cases session stash action db).mono fun _ db' h => ?_
  obtain ⟨nextId, rfl | ⟨user, after, requestId, approved, -, rfl⟩⟩ := h
  · exact ⟨rfl, rfl, rfl⟩
  · unfold Db.decideDeviceCode
    dsimp only
    split <;> exact ⟨rfl, rfl, rfl⟩

end Severed

namespace ConsentStore

def revoked (s : ConsentStore) (grant : ConsentGrant) : ConsentStore where
  db := (s.db.revokeUserClientTokens grant.userId grant.clientId).consumeUserClientSessionClients
    grant.userId grant.clientId
  grants := s.grants.filter (·.id ≠ grant.id)

/-- The unique constraint of the grants, and that consent is only recorded for applications. -/
structure Sound (s : ConsentStore) : Prop where
  unique : ∀ g ∈ s.grants, ∀ g' ∈ s.grants, g.clientId = g'.clientId → g.userId = g'.userId → g = g'
  clients : ∀ g ∈ s.grants, ∀ client, s.db.getClientById g.clientId = some client → client.clientType = .normal

section Sound

variable {s s' : ConsentStore} {userId clientId : Id} {scopes : List Text} {env : Env} {r : Except Error ConsentGrant}
  {user : RequestingUser} {grant : ConsentGrant} {db : Db}

theorem revoke_of_mem (h : grant ∈ s.grants) : revoke grant s = (.ok (), s.revoked grant) := by
  have hdeleted : s.grants.any (·.id = grant.id) := any_eq_true.mpr ⟨grant, h, decide_eq_true rfl⟩
  unfold revoke
  rw [read_bind_apply, hdeleted]
  rfl

def RevokesOne (s : ConsentStore) (r : Except Error ConsentGrant) (s' : ConsentStore) : Prop :=
  (∃ e, r = .error e ∧ s' = s) ∨ ∃ grant ∈ s.grants, r = .ok grant ∧ s' = s.revoked grant

theorem revoke_found {find : ConsentStore → Option ConsentGrant} {e : Error}
    (hfind : ∀ grant, find s = some grant → grant ∈ s.grants) : (do
      let grant ← orRaise find e
      revoke grant
      pure grant : Proc ConsentStore Error ConsentGrant).Ensures s s.RevokesOne := by
  refine .orRaise (.inl ⟨e, rfl, rfl⟩) fun grant hgrant => ?_
  have hmem := hfind grant hgrant
  unfold Ensures
  rw [bind_apply_of_ok (revoke_of_mem hmem)]
  exact .inr ⟨grant, hmem, rfl, rfl⟩

theorem revokeMyGrant_spec : (revokeMyGrant user grantId).Ensures s s.RevokesOne :=
  revoke_found fun _ => mem_of_find?_eq_some

theorem revokeClientGrant_spec : (revokeClientGrant user clientId grantId).Ensures s s.RevokesOne := by
  refine .require (.inl ⟨_, rfl, rfl⟩) fun _ => .orRaise (.inl ⟨_, rfl, rfl⟩) fun client _ => ?_
  refine .require (.inl ⟨_, rfl, rfl⟩) fun _ => ?_
  exact revoke_found fun _ => mem_of_find?_eq_some

theorem Sound.of_directory (h : s.Sound) (hdirectory : db.directory = s.db.directory) : Sound { s with db } := by
  have hclients : db.oauth2Clients = s.db.oauth2Clients := (congrArg Db.oauth2Clients hdirectory :)
  refine ⟨h.unique, fun g hg client hclient => h.clients g hg client ?_⟩
  rwa [← Db.getClientById_of_clients hclients]

theorem Sound.revoked (h : s.Sound) (grant : ConsentGrant) : (s.revoked grant).Sound := by
  refine ⟨fun g hg g' hg' => ?_, fun g hg => h.clients g (mem_of_mem_filter hg)⟩
  exact h.unique g (mem_of_mem_filter hg) g' (mem_of_mem_filter hg')

theorem Sound.of_revokesOne (h : s.Sound) (hrevokes : s.RevokesOne r s') : s'.Sound := by
  obtain ⟨-, -, rfl⟩ | ⟨grant, -, -, rfl⟩ := hrevokes
  · exact h
  · exact h.revoked grant

theorem getConsentGrant_ne_none {g : ConsentGrant} (h : g ∈ s.grants) (hclient : g.clientId = clientId)
    (huser : g.userId = userId) : s.getConsentGrant clientId userId ≠ none := by
  intro hnone
  have hg := find?_eq_none.mp hnone g h
  exact hg (by simp [hclient, huser])

/-- What recording a consent does: nothing when it is covered, or the grant of the pair is widened or added. -/
inductive Records (clientId userId : Id) (scopes : List Text) (s : ConsentStore) : ConsentStore → Prop
  | covered : s.consentCovers clientId userId scopes → Records clientId userId scopes s s
  | widened {union : List Text} : scopes ⊆ union → (∃ g ∈ s.grants, g.clientId = clientId ∧ g.userId = userId) →
    Records clientId userId scopes s { s with grants := s.grants.map fun g =>
      if g.clientId = clientId ∧ g.userId = userId then { g with scopes := union } else g }
  | added {union : List Text} : scopes ⊆ union → (∀ g ∈ s.grants, ¬ (g.clientId = clientId ∧ g.userId = userId)) →
    Records clientId userId scopes s {
      db := { s.db with nextId := s.db.nextId + 1 }
      grants := s.grants ++ [{ id := s.db.nextId, clientId, userId, scopes := union }] }

theorem records_of_recordConsent (h : s.recordConsent clientId userId scopes = .ok s') :
    Records clientId userId scopes s s' := by
  have hunion : ∀ stored, scopes ⊆ (stored ++ scopes).eraseDups := fun _ _ hscope =>
    mem_eraseDups.mpr (mem_append_right _ hscope)
  unfold recordConsent at h
  split at h
  · rename_i hcovers
    exact Except.ok.inj h ▸ .covered hcovers
  unfold upsertConsentGrant at h
  dsimp only at h
  split at h
  · cases h
  split at h
  · rename_i hstored
    exact Except.ok.inj h ▸ .widened (hunion _) (by simpa using hstored)
  · rename_i hnew
    exact Except.ok.inj h ▸ .added (hunion _) (by simpa using hnew)

theorem recordConsent_spec (h : s.recordConsent clientId userId scopes = .ok s') :
    (∃ nextId, s'.db = { s.db with nextId }) ∧ s'.getConsentGrant clientId userId ≠ none := by
  cases records_of_recordConsent h with
  | covered hcovers =>
    refine ⟨⟨s.db.nextId, rfl⟩, fun hnone => ?_⟩
    rw [consentCovers, hnone] at hcovers
    cases hcovers
  | widened _ hstored =>
    obtain ⟨g, hg, hpair⟩ := hstored
    refine ⟨⟨s.db.nextId, rfl⟩, getConsentGrant_ne_none (mem_map.mpr ⟨g, hg, if_pos hpair⟩) hpair.1 hpair.2⟩
  | added => exact ⟨⟨_, rfl⟩, getConsentGrant_ne_none (mem_append_right _ mem_cons_self) rfl rfl⟩

theorem recordConsent_nextId_le (h : s.recordConsent clientId userId scopes = .ok s') : s.db.nextId ≤ s'.db.nextId := by
  cases records_of_recordConsent h with
  | added => exact Nat.le_succ _
  | _ => exact le_refl _

theorem consentCovers_of_recordConsent (h : s.recordConsent clientId userId scopes = .ok s') :
    s'.consentCovers clientId userId scopes := by
  cases records_of_recordConsent h with
  | covered hcovers => exact hcovers
  | @widened union hunion hstored =>
    have hsome : (s.grants.find? fun g => g.clientId = clientId ∧ g.userId = userId).isSome := by
      simpa using hstored
    obtain ⟨found, hfound⟩ := Option.isSome_iff_exists.mp hsome
    have hmatch : found.clientId = clientId ∧ found.userId = userId := by simpa using find?_some hfound
    -- widening a grant does not change which pair it belongs to
    have hkeys : ((fun g : ConsentGrant => decide (g.clientId = clientId ∧ g.userId = userId)) ∘ fun g =>
        if g.clientId = clientId ∧ g.userId = userId then { g with scopes := union } else g) =
        fun g => decide (g.clientId = clientId ∧ g.userId = userId) := by
      funext g
      dsimp only [Function.comp_apply]
      split <;> rfl
    unfold consentCovers getConsentGrant
    rw [find?_map, hkeys, hfound, Option.map_some, if_pos hmatch]
    exact all_eq_true.mpr fun scope hscope => decide_eq_true (hunion hscope)
  | added hunion hnew =>
    have hfresh := find?_eq_none.mpr fun g hg hpair => hnew g hg (of_decide_eq_true hpair)
    unfold consentCovers getConsentGrant
    simp only [find?_append, hfresh, find?_cons]
    exact all_eq_true.mpr fun scope hscope => decide_eq_true (hunion hscope)

theorem Sound.recordConsent (hs : s.Sound)
    (hclient : ∀ client, s.db.getClientById clientId = some client → client.clientType = .normal)
    (h : s.recordConsent clientId userId scopes = .ok s') : s'.Sound := by
  cases records_of_recordConsent h with
  | covered => exact hs
  | widened =>
    refine ⟨fun g hg g' hg' hc hu => ?_, fun g hg client hfound => ?_⟩
    · obtain ⟨g₀, hg₀, rfl⟩ := mem_map.mp hg
      obtain ⟨g₁, hg₁, rfl⟩ := mem_map.mp hg'
      have heq : g₀ = g₁ := by
        refine hs.unique g₀ hg₀ g₁ hg₁ ?_ ?_
        · split_ifs at hc <;> exact hc
        · split_ifs at hu <;> exact hu
      rw [heq]
    · obtain ⟨g₀, hg₀, rfl⟩ := mem_map.mp hg
      refine hs.clients g₀ hg₀ client ?_
      split_ifs at hfound <;> exact hfound
  | added _ hother =>
    refine ⟨fun g hg g' hg' hc hu => ?_, fun g hg => ?_⟩
    · rcases mem_concat_iff.mp hg with hg | rfl <;> rcases mem_concat_iff.mp hg' with hg' | rfl
      · exact hs.unique g hg g' hg' hc hu
      · exact absurd ⟨hc, hu⟩ (hother g hg)
      · exact absurd ⟨hc.symm, hu.symm⟩ (hother g' hg')
      · rfl
    · rcases mem_concat_iff.mp hg with hg | rfl
      · exact hs.clients g hg
      · exact hclient

theorem authorizeGrant_code {stored : AuthorizeParams} {createdAt : Nat} {action : String} :
    (WeftId.authorizeGrant env session stored createdAt action).Ensures db fun r _ =>
      (∃ code after, r = .ok (.code code, after)) →
        ∀ client, db.getClientById stored.clientId = some client → client.clientType = .normal := by
  refine (authorizeGrant_cases session stored createdAt action db).mono fun r _ h => ?_
  rintro ⟨code, after, hr⟩ client' hclient'
  cases h with
  | kept hne => exact absurd hr (hne code after)
  | issued _ hclient hnormal =>
    obtain rfl := Option.some.inj (hclient.symm.trans hclient')
    exact hnormal

theorem findPendingRequest_eq_some {userCode : Text} {request : DeviceCode}
    (h : db.findPendingRequest userCode = some (request, client)) :
    db.getClientById client.id = some client ∧ client.clientType = .normal := by
  obtain ⟨found, -, h⟩ := Option.bind_eq_some_iff.mp h
  obtain ⟨client', hclient, h⟩ := Option.bind_eq_some_iff.mp h
  split_ifs at h with hcan
  obtain ⟨-, rfl⟩ := Prod.mk.inj (Option.some.inj h)
  have hid : client'.id = found.clientId := by simpa using find?_some hclient
  exact ⟨by rw [hid, hclient], (of_decide_eq_true hcan).1⟩

theorem severed_of_revokesOne (h : s.db.Severed userId clientId)
    (hrevokes : s.RevokesOne r s') : s'.db.Severed userId clientId := by
  obtain ⟨-, -, rfl⟩ | ⟨grant, -, -, rfl⟩ := hrevokes
  · exact h
  · exact ⟨fun t ht => h.tokens t (mem_of_mem_filter ht), fun code hcode => h.codes code (mem_of_mem_filter hcode),
      fun d hd => h.devices d (mem_of_mem_filter hd), h.client⟩

theorem Sound.severs (h : s.Sound) (hgrant : grant ∈ s.grants) :
    (s.revoked grant).getConsentGrant grant.clientId grant.userId = none ∧
      (s.revoked grant).db.Severed grant.userId grant.clientId := by
  refine ⟨find?_eq_none.mpr fun g hg hpair => ?_, ⟨fun t ht hpair => ?_, fun code hcode hopen hpair => ?_,
    fun d hd hstatus hpair => ?_, h.clients grant hgrant⟩⟩
  · have hpair := of_decide_eq_true hpair
    obtain ⟨hg, hne⟩ := mem_filter.mp hg
    obtain rfl : g = grant := h.unique g hg grant hgrant hpair.1 hpair.2
    exact of_decide_eq_true hne rfl
  · have hkept := (Db.mem_deleteTokens ht).2
    exact of_decide_eq_false hkept hpair
  · have hkept := of_decide_eq_true (mem_filter.mp hcode).2
    exact hkept ⟨hpair.1, hpair.2, hopen⟩
  · have hkept := of_decide_eq_true (mem_filter.mp hd).2
    exact hkept ⟨hpair.1, hpair.2, hstatus⟩

theorem authorizeGrant_cases (env : Env) (s : ConsentStore) (session : Session) (stored : AuthorizeParams)
    (createdAt : Nat) (action : String) :
    let page := WeftId.authorizeGrant env session stored createdAt action
    s.authorizeGrant env session stored createdAt action = s ∨
      s.authorizeGrant env session stored createdAt action = { s with db := page.exec s.db } ∧
        (session.userId = none ∨ ¬ ∃ code after, (page s.db).1 = .ok (.code code, after)) ∨
      ∃ userId s', (∃ code after, (page s.db).1 = .ok (.code code, after)) ∧
        s.recordConsent stored.clientId userId (parseScope stored.scope) = .ok s' ∧ session.userId = some userId ∧
        s.authorizeGrant env session stored createdAt action = { s' with db := page.exec s'.db } := by
  unfold authorizeGrant
  cases huser : session.userId with
  | none =>
    refine .inr (.inl ⟨?_, .inl rfl⟩)
    split
    · rename_i h
      cases h
    · rename_i h _
      unfold exec
      rw [h]
  | some userId =>
    split
    · rename_i code after db' userId' hpage hsome
      obtain rfl := Option.some.inj hsome
      split
      · rename_i s' hrecord
        exact .inr (.inr ⟨userId, s', ⟨code, after, by rw [hpage]⟩, hrecord, rfl, rfl⟩)
      · exact .inl rfl
    · rename_i answer db' hpage hother
      refine .inr (.inl ⟨by unfold exec; rw [hpage], .inr fun ⟨code, after, hcode⟩ => ?_⟩)
      rw [hpage] at hcode
      exact hother code after userId rfl hcode

theorem deviceDecision_cases (s : ConsentStore) (session : Session) (stash : DeviceVerification) (action : String) :
    let decided : ConsentStore := { s with db := (WeftId.deviceDecision session stash action).exec s.db }
    s.deviceDecision session stash action = decided ∨
      ∃ client userId scopes s', s.db.getClientById client.id = some client ∧ client.clientType = .normal ∧
        decided.recordConsent client.id userId scopes = .ok s' ∧ s.deviceDecision session stash action = s' := by
  unfold deviceDecision exec
  split
  · rename_i db' userId request client hpage huser hpending
    rw [hpage]
    obtain ⟨hclient, hnormal⟩ := findPendingRequest_eq_some hpending
    split
    · rename_i s' hrecord
      exact .inr ⟨client, userId, _, s', hclient, hnormal, hrecord, rfl⟩
    · exact .inl rfl
  · rename_i hpage _
    rw [hpage]
    exact .inl rfl

end Sound

end ConsentStore

namespace ConsentStep

variable {env : Env} {s : ConsentStore} {userId clientId : Id} {step : ConsentStep}

abbrev anyMint : Id → Option Id → Prop := fun _ _ => True

theorem sound_exec (h : s.Sound) (step : ConsentStep) : (step.exec env s).Sound := by
  cases step with
  | authorize session params =>
    have hissues := @within_handleAuthorizeRequest anyMint (fun _ => True) env session params
    exact h.of_directory (hissues s.db).directory
  | authorizeGrant session stored createdAt action =>
    have hissues := @within_authorizeGrant anyMint (fun _ => True) env session action stored createdAt
    change (s.authorizeGrant env session stored createdAt action).Sound
    obtain heq | ⟨heq, -⟩ | ⟨userId, s', hcode, hrecord, -, heq⟩ :=
      ConsentStore.authorizeGrant_cases env s session stored createdAt action
    · exact heq.symm ▸ h
    · exact heq.symm ▸ h.of_directory (hissues s.db).directory
    · have hsound : s'.Sound := h.recordConsent (ConsentStore.authorizeGrant_code hcode) hrecord
      exact heq.symm ▸ hsound.of_directory (hissues s'.db).directory
  | startDeviceAuthorization client scope =>
    have hissues := @within_startDeviceAuthorization anyMint (fun _ => True) env client scope
    exact h.of_directory (hissues s.db).directory
  | deviceDecision session stash action =>
    have hissues := @within_deviceDecision anyMint (fun _ => True) session action stash
    have hdecided := h.of_directory (hissues s.db).directory
    change (s.deviceDecision session stash action).Sound
    obtain heq | ⟨client, userId, scopes, s', hclient, hnormal, hrecord, heq⟩ :=
      ConsentStore.deviceDecision_cases s session stash action
    · exact heq.symm ▸ hdecided
    · have hclients : ((WeftId.deviceDecision session stash action).exec s.db).oauth2Clients = s.db.oauth2Clients :=
        (deviceDecision_frame session stash action s.db).2.2
      refine heq.symm ▸ hdecided.recordConsent (fun client' hclient' => ?_) hrecord
      rw [Db.getClientById_of_clients hclients, hclient] at hclient'
      rwa [← Option.some.inj hclient']
  | token client request =>
    have hissues : Issues anyMint (fun _ => True) s.db ((tokenEndpoint env client request).exec s.db) :=
      Granting.issues tokenEndpoint_cases (fun _ _ _ => ⟨trivial, fun _ _ => trivial⟩)
        fun _ _ => trivial
    exact h.of_directory hissues.directory
  | revokeMyGrant => exact h.of_revokesOne ConsentStore.revokeMyGrant_spec
  | revokeClientGrant =>
    exact h.of_revokesOne ConsentStore.revokeClientGrant_spec
  | wait micros => exact h.of_directory (by exact rfl)

theorem severed_exec (hnone : s.getConsentGrant clientId userId = none)
    (h : s.db.Severed userId clientId) (hstep : ¬ step.Decides env userId clientId s) :
    (step.exec env s).db.Severed userId clientId := by
  cases step with
  | authorize =>
    obtain hkeep | ⟨⟨_, -, hcovered⟩, -, hpair⟩ := h.answering handleAuthorizeRequest_cases
    · exact hkeep
    · rw [hpair.1, hpair.2, Option.any_some, ConsentStore.consentCovers, hnone] at hcovered
      cases hcovered
  | authorizeGrant session stored createdAt action =>
    change (s.authorizeGrant env session stored createdAt action).db.Severed userId clientId
    obtain heq | ⟨heq, hno⟩ | ⟨u, s', hcode, hrecord, huser, heq⟩ :=
      ConsentStore.authorizeGrant_cases env s session stored createdAt action
    · exact heq.symm ▸ h
    · rw [heq]
      rcases h.answering (authorizeGrant_cases session stored createdAt action s.db) with hkeep | ⟨-, hcode, huser, -⟩
      · exact hkeep
      · rcases hno with hno | hno
        · rw [hno] at huser
          cases huser
        · exact absurd hcode hno
    · obtain ⟨⟨nextId, hdb⟩, hgrant⟩ := ConsentStore.recordConsent_spec hrecord
      have h' : s'.db.Severed userId clientId := hdb ▸ h.of_eq rfl rfl rfl rfl
      obtain hkeep | ⟨-, -, huser', hclient⟩ :=
        h'.answering (authorizeGrant_cases session stored createdAt action s'.db)
      · rw [heq]
        exact hkeep
      · obtain rfl : u = userId := Option.some.inj (huser.symm.trans huser')
        refine absurd (.inl ⟨hnone, ?_⟩) hstep
        change (s.authorizeGrant env session stored createdAt action).getConsentGrant clientId u ≠ none
        rw [heq, ← hclient]
        exact hgrant
  | startDeviceAuthorization => exact within_startDeviceAuthorization_severed s.db h
  | deviceDecision session stash action =>
    have hframe := deviceDecision_frame session stash action s.db
    have hdevices : ∀ d ∈ (s.deviceDecision session stash action).db.oauth2DeviceCodes, d.status = .approved →
        ¬ (d.userId = some userId ∧ d.clientId = clientId) := by
      intro d hd hstatus hpair
      by_cases hold : d ∈ s.db.oauth2DeviceCodes
      · exact h.devices d hold hstatus hpair
      · exact hstep (.inr ⟨d, hd, hold, hstatus, hpair.1, hpair.2⟩)
    have hrest : ∃ nextId, (s.deviceDecision session stash action).db =
        { (WeftId.deviceDecision session stash action).exec s.db with nextId } := by
      obtain heq | ⟨_, _, _, s', -, -, hrecord, heq⟩ := ConsentStore.deviceDecision_cases s session stash action
      · exact ⟨_, by rw [heq]⟩
      · rw [heq]
        exact (ConsentStore.recordConsent_spec hrecord).1
    obtain ⟨nextId, hdb⟩ := hrest
    change (s.deviceDecision session stash action).db.Severed userId clientId
    rw [hdb] at hdevices ⊢
    refine ⟨fun t ht => h.tokens t (hframe.1 ▸ ht), fun c hc => h.codes c (hframe.2.1 ▸ hc), hdevices, fun c hc => ?_⟩
    refine h.client c ?_
    rwa [← Db.getClientById_of_clients hframe.2.2]
  | token => exact within_tokenEndpoint_severed s.db h
  | revokeMyGrant =>
    exact ConsentStore.severed_of_revokesOne h ConsentStore.revokeMyGrant_spec
  | revokeClientGrant =>
    exact ConsentStore.severed_of_revokesOne h ConsentStore.revokeClientGrant_spec
  | wait micros => exact h.of_eq rfl rfl rfl rfl

theorem severed_of_revokes (hs : s.Sound) (h : step.Revokes userId clientId s) :
    (step.exec env s).getConsentGrant clientId userId = none ∧ (step.exec env s).db.Severed userId clientId := by
  have hone : ∀ {r s'}, s.RevokesOne r s' →
      (∃ grant, r = .ok grant ∧ grant.userId = userId ∧ grant.clientId = clientId) →
      s'.getConsentGrant clientId userId = none ∧ s'.db.Severed userId clientId := by
    rintro r s' hrevokes ⟨grant, hr, rfl, rfl⟩
    obtain ⟨e, he, -⟩ | ⟨grant', hgrant, hr', rfl⟩ := hrevokes
    · cases hr.symm.trans he
    · obtain rfl := Except.ok.inj (hr.symm.trans hr')
      exact hs.severs hgrant
  cases step with
  | revokeMyGrant => exact hone ConsentStore.revokeMyGrant_spec h
  | revokeClientGrant => exact hone ConsentStore.revokeClientGrant_spec h
  | _ => exact h.elim

/-- Once the consent of a user for a client is revoked, no token of the two exists until the user decides anew. -/
theorem no_token_after_revocation (env : Env) (s : ConsentStore) (hs : s.Sound) (userId clientId : Id)
    (before : List ConsentStep) (step : ConsentStep) (after : List ConsentStep)
    (hrevokes : step.Revokes userId clientId (run (exec env) s before))
    (hafter : Along (exec env) (fun s step => ¬ step.Decides env userId clientId s)
      (run (exec env) s (before ++ [step])) after) :
    ∀ t ∈ (run (exec env) s (before ++ step :: after)).db.oauth2Tokens,
      ¬ (t.userId = userId ∧ t.clientId = clientId) := by
  have hbefore : (run (exec env) s before).Sound := invariant (fun _ step h => sound_exec h step) hs
  have hrun : run (exec env) s (before ++ step :: after) =
      run (exec env) (run (exec env) s (before ++ [step])) after := by
    rw [← run_append, append_assoc, singleton_append]
  rw [hrun]
  refine (invariant_of_along (I := fun s : ConsentStore =>
    s.getConsentGrant clientId userId = none ∧ s.db.Severed userId clientId)
    (fun s step h hstep => ?_) ?_ hafter).2.tokens
  · refine ⟨?_, severed_exec h.1 h.2 hstep⟩
    by_contra hgrant
    exact hstep (.inl ⟨h.1, hgrant⟩)
  · rw [run_append]
    exact severed_of_revokes hbefore hrevokes

/-- A user who has allowed a client, with a code and an approved device request that are not redeemed yet. -/
def consentTenant : ConsentStore where
  db := {
    nextId := 10
    oauth2Clients := [{ id := 5, redirectUris := ["cb"], deviceGrantEnabled := true }]
    authorizationCodes := [{
      id := 3
      code := "c"
      clientId := 5
      userId := 2
      redirectUri := "cb"
      expiresAt := 300 * 1000000 }]
    oauth2DeviceCodes := [{
      id := 4
      clientId := 5
      deviceCode := "d"
      userCode := "u"
      status := .approved
      userId := some 2
      expiresAt := 600 * 1000000 }] }
  grants := [{ id := 6, clientId := 5, userId := 2, scopes := ["openid"] }]

def redemptions : List ConsentStep :=
  [.token 5 (.authorizationCode (some "c") (some "cb") none), .token 5 (.deviceCode (some "d"))]

/-- Both requests would be answered with tokens before the user revokes the grant. -/
theorem redemptions_fail_after_revocation :
    (run (exec Env.ascii) consentTenant redemptions).db.oauth2Tokens.length = 4 ∧
    ∀ t ∈ (run (exec Env.ascii) consentTenant
      (.revokeMyGrant { id := 2, role := .member } 6 :: redemptions)).db.oauth2Tokens,
      ¬ (t.userId = 2 ∧ t.clientId = 5) := by
  have hsound : consentTenant.Sound := ⟨by decide +kernel, fun g hg client hclient => by
    obtain rfl := mem_singleton.mp hg
    cases hclient
    rfl⟩
  exact ⟨by decide +kernel, no_token_after_revocation Env.ascii consentTenant hsound 2 5 [] (.revokeMyGrant _ 6)
    redemptions ⟨_, rfl, rfl, rfl⟩ (by decide +kernel)⟩

end ConsentStep

end WeftId
