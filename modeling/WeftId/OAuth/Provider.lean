import WeftId.OAuth.TokenEndpoint
import WeftId.Users.Lifecycle

/-!
The OAuth2 provider as a whole: users authorize clients and approve devices, clients ask for tokens, and
administrators, providers and jobs take users and access away.  `Issues` says once what the endpoints can do.
-/

namespace WeftId

open List Proc Run ClosureTable

/-- The code can still be redeemed. -/
def AuthorizationCode.Outstanding (code : AuthorizationCode) (now : Nat) : Prop :=
  code.consumedAt = none ∧ now < code.expiresAt
  deriving Decidable

structure Db.Authorized (db : Db) (userId clientId : Id) : Prop where
  active : db.Active userId
  access : ∀ client, db.getClientById clientId = some client → db.mayUse client userId

/-- What the endpoints of the provider can do: codes are added only for users who may use the client, device
requests are approved only by active users, and new refresh tokens and session records meet the given
conditions on the user and the session. -/
structure Issues (mints : Id → Option Id → Prop) (records : Id → Prop) (db db' : Db) : Prop where
  directory : db'.directory = db.directory
  now_le : db.now ≤ db'.now
  codes : ∀ c ∈ db'.authorizationCodes, c.Outstanding db'.now →
    c ∈ db.authorizationCodes ∨ db.Authorized c.userId c.clientId
  devices : ∀ d ∈ db'.oauth2DeviceCodes, d.status = .approved →
    (∃ d₀ ∈ db.oauth2DeviceCodes, d₀.status = .approved ∧ d₀.userId = d.userId) ∨ ∀ v, d.userId = some v → db.Active v
  tokens : ∀ t ∈ db'.oauth2Tokens, t.tokenType = .refresh →
    (∃ t₀ ∈ db.oauth2Tokens, t₀.tokenType = .refresh ∧ t₀.userId = t.userId ∧ t₀.sid = t.sid) ∨ mints t.userId t.sid
  sessionClients : ∀ r ∈ db'.oidcSessionClients, (∃ r₀ ∈ db.oidcSessionClients, r₀.sid = r.sid) ∨ records r.sid

section Issues

variable {mints : Id → Option Id → Prop} {records : Id → Prop} {db db' db'' : Db} {env : Env} {user : User}
  {userId clientId requestId c u : Id} {scope : Option Text} {r : Except Error TokenAnswer} {sid grantId : Option Id}
  {params : AuthorizeParams} {request : GrantRequest} {client : OAuth2Client} {session : Session} {action : String}

theorem Db.Active.of_directory (h : db'.directory = db.directory) (hactive : db'.Active userId) : db.Active userId := by
  have husers : db'.users = db.users := (congrArg users h :)
  unfold Active at hactive ⊢
  rwa [husers] at hactive

theorem Db.mayUse_of_directory (h : db'.directory = db.directory) (client : OAuth2Client) :
    db'.mayUse client userId = db.mayUse client userId := by
  have hdirectory : db'.directory.mayUse client userId = db.directory.mayUse client userId := by rw [h]
  exact hdirectory

theorem Db.Authorized.of_directory (h : db'.directory = db.directory) (ha : db'.Authorized userId clientId) :
    db.Authorized userId clientId := by
  have hclients : db'.oauth2Clients = db.oauth2Clients := (congrArg oauth2Clients h :)
  refine ⟨ha.active.of_directory h, fun client hclient => ?_⟩
  rw [← mayUse_of_directory h]
  apply ha.access
  rwa [getClientById_of_clients hclients]

theorem Issues.refl (mints : Id → Option Id → Prop) (records : Id → Prop) (db : Db) : Issues mints records db db where
  directory := rfl
  now_le := le_refl _
  codes := fun _ hc _ => .inl hc
  devices := fun d hd hstatus => .inl ⟨d, hd, hstatus, rfl⟩
  tokens := fun t ht htype => .inl ⟨t, ht, htype, rfl, rfl⟩
  sessionClients := fun r hr => .inl ⟨r, hr, rfl⟩

theorem Issues.trans (h : Issues mints records db db') (h' : Issues mints records db' db'') :
    Issues mints records db db'' where
  directory := h'.directory.trans h.directory
  now_le := le_trans h.now_le h'.now_le
  codes := by
    intro c hc hout
    rcases h'.codes c hc hout with hc' | hnew
    · exact h.codes c hc' ⟨hout.1, lt_of_le_of_lt h'.now_le hout.2⟩
    · exact .inr (hnew.of_directory h.directory)
  devices := by
    intro d hd hstatus
    rcases h'.devices d hd hstatus with ⟨d', hd', hstatus', huser⟩ | hnew
    · rw [← huser]
      exact h.devices d' hd' hstatus'
    · exact .inr fun v hv => (hnew v hv).of_directory h.directory
  tokens := by
    intro t ht htype
    rcases h'.tokens t ht htype with ⟨t', ht', htype', huser, hsid⟩ | hnew
    · rcases h.tokens t' ht' htype' with ⟨t₀, ht₀, htype₀, huser₀, hsid₀⟩ | hnew
      · exact .inl ⟨t₀, ht₀, htype₀, huser₀.trans huser, hsid₀.trans hsid⟩
      · rw [← huser, ← hsid]
        exact .inr hnew
    · exact .inr hnew
  sessionClients := by
    intro r hr
    rcases h'.sessionClients r hr with ⟨r', hr', hsid⟩ | hnew
    · rw [← hsid]
      exact h.sessionClients r' hr'
    · exact .inr hnew

instance : Std.Refl (Issues mints records) := ⟨Issues.refl mints records⟩

instance : IsTrans Db (Issues mints records) := ⟨fun _ _ _ => Issues.trans⟩

theorem issues_of_issued (hdirectory : db'.directory = db.directory) (hnow : db'.now = db.now)
    (h : db'.issued = db.issued) : Issues mints records db db' := by
  have hc := (congrArg Db.authorizationCodes h :)
  have ht := (congrArg Db.oauth2Tokens h :)
  have hd := (congrArg Db.oauth2DeviceCodes h :)
  have hs := (congrArg Db.oidcSessionClients h :)
  refine ⟨hdirectory, le_of_eq hnow.symm, fun c hmem _ => .inl (hc ▸ hmem),
    fun d hmem hstatus => .inl ⟨d, hd ▸ hmem, hstatus, rfl⟩,
    fun t hmem htype => .inl ⟨t, ht ▸ hmem, htype, rfl, rfl⟩, fun r hmem => .inl ⟨r, hs ▸ hmem, rfl⟩⟩

theorem issues_deleteTokens {p : OAuth2Token → Bool} : Issues mints records db (db.deleteTokens p) :=
  { Issues.refl mints records db with
    tokens := fun t ht htype => .inl ⟨t, (Db.mem_deleteTokens ht).1, htype, rfl, rfl⟩ }

theorem issues_createRefreshToken (hmints : mints userId sid) :
    Issues mints records db (db.createRefreshToken env clientId userId scope grantId sid).2 :=
  { Issues.refl mints records db with
    tokens := by
      intro t ht htype
      rcases mem_concat_iff.mp ht with ht | rfl
      · exact .inl ⟨t, ht, htype, rfl, rfl⟩
      · exact .inr hmints }

theorem issues_wait {micros : Nat} : Issues mints records db (db.wait micros) :=
  { Issues.refl mints records db with
    now_le := Nat.le_add_right _ _
    codes := fun _ hc _ => .inl hc }

theorem issues_createAccessToken {parentTokenId : Option Id} {isClientCredentials : Bool}
    (h : db.createAccessToken env clientId userId parentTokenId isClientCredentials scope grantId = .ok ((), db')) :
    Issues mints records db db' := by
  obtain ⟨-, rfl⟩ := Db.createAccessToken_eq_ok h
  refine { Issues.refl mints records db with tokens := ?_ }
  intro t ht htype
  rcases mem_concat_iff.mp ht with ht | rfl
  · exact .inl ⟨t, ht, htype, rfl, rfl⟩
  · cases htype

theorem issues_upsertSessionClient {sid : Id} (hrecords : records sid) :
    Issues mints records db (db.upsertSessionClient sid clientId userId) := by
  refine { Issues.refl mints records db with sessionClients := ?_ }
  intro r hr
  rcases KeyedRows.mem_store.mp hr with rfl | ⟨hold, -⟩
  · exact .inr hrecords
  · exact .inl ⟨r, hold, rfl⟩

theorem issues_consumeCode {codeId : Id} : Issues mints records db (db.consumeCode codeId).2 := by
  unfold Db.consumeCode
  split_ifs
  · refine { Issues.refl mints records db with codes := ?_ }
    intro c hc hout
    obtain ⟨c₀, hc₀, rfl⟩ := mem_map.mp hc
    split_ifs at hout ⊢
    · cases hout.1
    · exact .inl hc₀
  · exact Issues.refl mints records db

theorem issues_rotateRefreshToken {old : OAuth2Token} (hold : old ∈ db.oauth2Tokens)
    (htype : old.tokenType = .refresh) :
    Issues mints records db (db.rotateRefreshToken old).2 := by
  refine { Issues.refl mints records db with tokens := ?_ }
  intro t ht hrefresh
  obtain ⟨-, rfl | ⟨t₀, ht₀, rfl⟩⟩ := Db.mem_rotateRefreshToken_cases ht
  · exact .inl ⟨old, hold, htype, rfl, rfl⟩
  · rw [Db.reparent_tokenType] at hrefresh
    exact .inl ⟨t₀, ht₀, hrefresh, Db.reparent_owner.1.symm, Db.reparent_owner.2.2.symm⟩

theorem issues_updateDeviceCode (db : Db) (requestId : Id) {f : DeviceCode → DeviceCode}
    (hf : ∀ d, (f d).status = .approved → d.status = .approved ∧ (f d).userId = d.userId) :
    Issues mints records db (db.updateDeviceCode requestId f) := by
  refine { Issues.refl mints records db with devices := ?_ }
  intro d hd hstatus
  obtain ⟨d₀, hd₀, rfl⟩ := mem_map.mp hd
  split_ifs at hstatus ⊢
  · exact .inl ⟨d₀, hd₀, (hf d₀ hstatus).1, (hf d₀ hstatus).2.symm⟩
  · exact .inl ⟨d₀, hd₀, hstatus, rfl⟩

theorem issues_redeemDeviceCode : Issues mints records db (db.redeemDeviceCode requestId).2 := by
  unfold Db.redeemDeviceCode
  split
  · apply issues_updateDeviceCode
    intro d hstatus
    split_ifs at hstatus ⊢
    exact ⟨hstatus, rfl⟩
  · exact Issues.refl mints records db

theorem issues_decideDeviceCode {approved : Bool} (hactive : db.Active userId) :
    Issues mints records db (db.decideDeviceCode requestId approved userId).2 := by
  unfold Db.decideDeviceCode
  dsimp only
  split
  · refine { Issues.refl mints records db with devices := ?_ }
    intro d hd hstatus
    obtain ⟨d₀, hd₀, rfl⟩ := mem_map.mp hd
    by_cases hopen : d₀.id = requestId ∧ d₀.status = .pending ∧ db.now < d₀.expiresAt
    · rw [if_pos hopen]
      right
      intro v hv
      obtain rfl : userId = v := Option.some.inj hv
      exact hactive
    · rw [if_neg hopen] at hstatus ⊢
      exact .inl ⟨d₀, hd₀, hstatus, rfl⟩
  · exact Issues.refl mints records db

theorem issues_createDeviceCode (h : db.createDeviceCode env clientId scope = some db') :
    Issues mints records db db' := by
  obtain ⟨userCode, -, rfl⟩ := Option.map_eq_some_iff.mp h
  refine { Issues.refl mints records db with devices := ?_ }
  intro d hd hstatus
  rcases mem_concat_iff.mp hd with hd | rfl
  · exact .inl ⟨d, hd, hstatus, rfl⟩
  · cases hstatus

theorem issues_createAuthorizationCode (hauthorized : db.Authorized userId params.clientId) :
    Issues mints records db (db.createAuthorizationCode env params userId sid).2 := by
  refine { Issues.refl mints records db with codes := ?_ }
  intro c hc _
  rcases mem_concat_iff.mp hc with hc | rfl
  · exact .inl (mem_of_mem_filter hc)
  · exact .inr hauthorized

def Db.Holds (db : Db) (userId : Id) : Prop :=
  (∃ t ∈ db.oauth2Tokens, t.tokenType = .refresh ∧ t.userId = userId) ∨
    ∃ d ∈ db.oauth2DeviceCodes, d.status = .approved ∧ d.userId = some userId

theorem issueUserTokens_issues {grantId : Id}
    (hissue : issueUserTokens env client userId scope grantId sid db = (r, db'))
    (hmints : mints userId (grantSession client scope sid))
    (hrecords : ∀ s, grantSession client scope sid = some s → records s) : Issues mints records db db' := by
  obtain ⟨db₁, hcreate, hdb'⟩ := issueUserTokens_cases env
  obtain rfl := congrArg Prod.snd (hdb'.symm.trans hissue)
  have htokens : Issues mints records db db₁ :=
    (issues_createRefreshToken hmints).trans (issues_wait.trans (issues_createAccessToken hcreate))
  cases hsid : grantSession client scope sid with
  | none => exact htokens
  | some s => exact htokens.trans (issues_upsertSessionClient (hrecords s hsid))

theorem issueUserTokens_returns {grantId : Id}
    (hissue : issueUserTokens env client userId scope grantId sid db = (.ok (.issued c u), db')) :
    client.id = c ∧ userId = u := by
  obtain ⟨_, -, hissued⟩ := issueUserTokens_cases env
  exact TokenAnswer.issued.inj (Except.ok.inj (congrArg Prod.fst (hissued.symm.trans hissue)))

theorem Granting.issues
    (h : Granting env db clientId request r db') (hcode : ∀ client code, Redeems env db clientId request client code →
      mints code.userId (grantSession client code.scope code.sid) ∧
        ∀ s, grantSession client code.scope code.sid = some s → records s)
    (hdevice : ∀ v, db.Holds v → mints v none) : Issues mints records db db' := by
  cases h with
  | kept => exact Issues.refl _ _ db
  | reused _ codeId h =>
    rcases h with rfl | rfl
    · exact issues_deleteTokens
    · exact issues_consumeCode.trans issues_deleteTokens
  | polled _ requestId => exact issues_updateDeviceCode db requestId fun d hd => ⟨hd, rfl⟩
  | code h hissue =>
    obtain ⟨hmints, hrecords⟩ := hcode _ _ h
    exact issues_consumeCode.trans (issueUserTokens_issues hissue hmints hrecords)
  | refresh _ _ hfound _ hcreate =>
    obtain ⟨hmem, -, htype, -⟩ := Db.findRefreshToken_spec hfound
    exact (issues_rotateRefreshToken hmem htype).trans (issues_wait.trans (issues_createAccessToken hcreate))
  | orphaned hfound =>
    obtain ⟨hmem, -, htype, -⟩ := Db.findRefreshToken_spec hfound
    exact issues_rotateRefreshToken hmem htype
  | service _ _ hcreate => exact issues_createAccessToken hcreate
  | device _ _ hfound hstatus huser _ hissue =>
    refine issues_redeemDeviceCode.trans (issueUserTokens_issues hissue ?_ ?_)
    · rw [grantSession, ite_self]
      exact hdevice _ (.inr ⟨_, (Db.findDeviceCode_spec hfound).1, hstatus, huser⟩)
    · simp [grantSession]
  | unredeemed => exact issues_redeemDeviceCode

theorem Granting.issued (h : Granting env db clientId request r db') (hr : r = .ok (.issued c u)) :
    c = clientId ∧ ∃ client, db.getClientById clientId = some client ∧
      ((∃ code, Redeems env db clientId request client code ∧ code.userId = u) ∨ db.Holds u ∧ db.mayUse client u) := by
  have hid : ∀ {client : OAuth2Client}, db.getClientById clientId = some client → client.id = clientId :=
    fun h => by simpa using find?_some h
  cases h with
  | kept hne | reused hne | polled hne | unredeemed hne => exact absurd hr (hne c u)
  | code h hissue =>
    subst hr
    obtain ⟨rfl, rfl⟩ := issueUserTokens_returns hissue
    exact ⟨hid h.client_found, _, h.client_found, .inl ⟨_, h, rfl⟩⟩
  | refresh hclient _ hfound hmay =>
    obtain ⟨rfl, rfl⟩ := TokenAnswer.issued.inj (Except.ok.inj hr)
    obtain ⟨hmem, -, htype, -⟩ := Db.findRefreshToken_spec hfound
    exact ⟨hid hclient, _, hclient, .inr ⟨.inl ⟨_, hmem, htype, rfl⟩, hmay⟩⟩
  | orphaned => cases hr
  | service => cases hr
  | device hclient _ hfound hstatus huser hmay hissue =>
    subst hr
    obtain ⟨rfl, rfl⟩ := issueUserTokens_returns hissue
    exact ⟨hid hclient, _, hclient, .inr ⟨.inr ⟨_, (Db.findDeviceCode_spec hfound).1, hstatus, huser⟩, hmay⟩⟩

theorem active_of_getUserById (h : db.getUserById user.id = some user) (hblocked : ¬ user.Blocked) :
    db.Active user.id := by
  refine ⟨user, mem_of_find?_eq_some h, rfl, ?_⟩
  by_contra hinactive
  exact hblocked (.inl (by simpa using hinactive))

theorem getCurrentUser_active {after : Session}
    (h : (getCurrentUser session db).1 = .ok (some user, after)) :
    session.userId = some user.id ∧ db.Active user.id := by
  obtain ⟨found, kept, nextId, happly, -, -, huser⟩ := getCurrentUser_apply
  rw [happly] at h
  obtain ⟨rfl, -⟩ := Prod.mk.inj (Except.ok.inj h)
  obtain ⟨hid, hrow, hblocked, -⟩ := huser user rfl
  exact ⟨hid, active_of_getUserById hrow hblocked⟩

theorem Answering.issues {P : OAuth2Client → Prop}
    {r : Except Error (AuthorizeAnswer × Session)} (h : Answering env db session params P r db') :
    Issues mints records db db' := by
  have hdrawn : ∀ nextId, Issues mints records db { db with nextId } := fun _ => issues_of_issued rfl rfl rfl
  cases h with
  | kept => exact hdrawn _
  | @issued user _ _ client nextId _ huser hclient _ _ _ hmay =>
    have hauthorized : db.Authorized user.id params.clientId := by
      refine ⟨(getCurrentUser_active huser).2, fun client' hclient' => ?_⟩
      obtain rfl := Option.some.inj (hclient.symm.trans hclient')
      exact hmay
    exact (hdrawn nextId).trans (issues_createAuthorizationCode (hauthorized.of_directory (by exact rfl)))

theorem within_handleAuthorizeRequest {params : AuthorizeParams} {covered : Bool} :
    (handleAuthorizeRequest env session params covered).Within (Issues mints records) :=
  fun _ => Answering.issues handleAuthorizeRequest_cases

theorem within_authorizeGrant {stored : AuthorizeParams} {createdAt : Nat} :
    (authorizeGrant env session stored createdAt action).Within (Issues mints records) :=
  fun db => Answering.issues (authorizeGrant_cases session stored createdAt action db)

theorem within_startDeviceAuthorization {clientId : Id} {scope : Option Text} :
    (startDeviceAuthorization env clientId scope).Within (Issues mints records) := by
  have hauthenticate : (authenticateClient clientId).Within (Issues mints records) :=
    .orRaise fun _ => .require fun _ => within_pure _
  refine within_bind hauthenticate fun client => .require fun _ => ?_
  refine within_bind (within_write fun db => ?_) fun _ => within_iff_ensures.mpr fun db => ?_
  · refine { Issues.refl mints records db with devices := ?_ }
    exact fun d hd hstatus => .inl ⟨d, mem_of_mem_filter hd, hstatus, rfl⟩
  · exact .orRaise (Issues.refl _ _ db) fun created hcreated => issues_createDeviceCode hcreated

theorem within_deviceDecision {stash : DeviceVerification} :
    (deviceDecision session stash action).Within (Issues mints records) := by
  refine within_iff_ensures.mpr fun db => (deviceDecision_cases session stash action db).mono fun _ db' h => ?_
  obtain ⟨nextId, rfl | ⟨user, after, requestId, approved, huser, rfl⟩⟩ := h
  · exact issues_of_issued rfl rfl rfl
  · have hactive := (getCurrentUser_active huser).2
    have hdrawn : Issues mints records db { db with nextId } := issues_of_issued rfl rfl rfl
    exact hdrawn.trans (issues_decideDeviceCode (hactive.of_directory (by exact rfl)))

end Issues

inductive ServiceStep
  | authorize (session : Session) (params : AuthorizeParams) (covered : Bool)
  | authorizeGrant (session : Session) (stored : AuthorizeParams) (createdAt : Nat) (action : String)
  | startDeviceAuthorization (clientId : Id) (scope : Option Text)
  | deviceDecision (session : Session) (stash : DeviceVerification) (action : String)
  | token (clientId : Id) (request : GrantRequest)
  | lifecycle (c : LifecycleCall)
  | reactivateUser (user : RequestingUser) (userId : Id)
  | setOidcSettings (user : RequestingUser) (clientId : Id) (oidcEnabled availableToAll : Option Bool)
  | assignClientToGroup (user : RequestingUser) (clientId groupId : Id)
  | removeClientGroupAssignment (user : RequestingUser) (clientId groupId : Id)
  | endOidcSession (sid : Id)
  | wait (micros : Nat)

namespace ServiceStep

def exec (env : Env) (db : Db) : ServiceStep → Db
  | .authorize session params covered => (handleAuthorizeRequest env session params covered).exec db
  | .authorizeGrant session stored createdAt action =>
    (WeftId.authorizeGrant env session stored createdAt action).exec db
  | .startDeviceAuthorization clientId scope => (WeftId.startDeviceAuthorization env clientId scope).exec db
  | .deviceDecision session stash action => (WeftId.deviceDecision session stash action).exec db
  | .token clientId request => (tokenEndpoint env clientId request).exec db
  | .lifecycle c => c.exec env db
  | .reactivateUser user userId => (WeftId.reactivateUser user userId).exec db
  | .setOidcSettings user clientId oidcEnabled availableToAll =>
    (WeftId.setOidcSettings user clientId oidcEnabled availableToAll).exec db
  | .assignClientToGroup user clientId groupId => (WeftId.assignClientToGroup user clientId groupId).exec db
  | .removeClientGroupAssignment user clientId groupId =>
    (WeftId.removeClientGroupAssignment user clientId groupId).exec db
  | .endOidcSession sid => (WeftId.endOidcSession (some sid)).exec db
  | .wait micros => { db with now := db.now + micros }

end ServiceStep

section Other

variable {out moved : Id → Prop} {db : Db}

theorem within_reactivateUser {user : RequestingUser} {userId : Id} :
    (reactivateUser user userId).Within (Touches out moved) := by
  intro db
  rcases reactivateUser_spec.exec_or with hdb | ⟨-, hdb⟩
  · rw [hdb]
    exact Touches.refl out moved db
  · rw [hdb]
    refine (touches_reactivateUser db userId).trans ?_
    exact touches_updateUser (fun _ => rfl) (.inr fun _ => ⟨id, id⟩) (.inr fun _ => id)

theorem touches_wait (micros : Nat) : Touches out moved db { db with now := db.now + micros } :=
  { Touches.refl out moved db with
    now_le := Nat.le_add_right _ _
    keyed := fun h => ⟨h.nodup, h.fresh⟩
    shut := fun _ hactive hgone => absurd hactive hgone }

end Other

end WeftId
