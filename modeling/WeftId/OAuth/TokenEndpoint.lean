import WeftId.OAuth.Authorize
import WeftId.OAuth.CodeExchange

/-!
The token endpoint, one request at a time.  The refresh and the device grant check access again before they
issue anything; the authorization code grant issues on the strength of the code alone.
-/

namespace WeftId

open List Proc

inductive GrantRequest
  | authorizationCode (code redirectUri codeVerifier : Option Text)
  | refreshToken (refreshToken : Option Id)
  | clientCredentials
  | deviceCode (deviceCode : Option Text)
  | other (grantType : String)

inductive TokenAnswer
  | refused (error description : String)
  /-- An access and a refresh token for a user. -/
  | issued (clientId userId : Id)
  /-- An access token for the client's service user. -/
  | serviceToken (clientId serviceUserId : Id)
  deriving DecidableEq

namespace Db

def findRefreshToken (db : Db) (tokenId clientId : Id) : Option OAuth2Token :=
  db.oauth2Tokens.find? fun t => t.id = tokenId ∧ t.tokenType = .refresh ∧ t.clientId = clientId ∧ db.now < t.expiresAt

/-- A token after the rotation of `old`. -/
def reparent (db : Db) (old t : OAuth2Token) : OAuth2Token :=
  if t.parentTokenId = some old.id then { t with parentTokenId := some db.nextId } else t

/-- The new token keeps everything of the old one, its expiry included; access tokens move to the new parent. -/
def rotateRefreshToken (db : Db) (old : OAuth2Token) : Id × Db :=
  let tokens := (db.oauth2Tokens ++ [{ old with id := db.nextId, parentTokenId := none }]).map (db.reparent old)
  (db.nextId, { db with nextId := db.nextId + 1, oauth2Tokens := tokens }.deleteTokens (·.id = old.id))

def findDeviceCode (db : Db) (deviceCode : Text) (clientId : Id) : Option DeviceCode :=
  db.oauth2DeviceCodes.find? fun d => d.deviceCode = deviceCode ∧ d.clientId = clientId

def updateDeviceCode (db : Db) (requestId : Id) (f : DeviceCode → DeviceCode) : Db :=
  { db with oauth2DeviceCodes := db.oauth2DeviceCodes.map fun d => if d.id = requestId then f d else d }

/-- A poll that comes too soon, by more than a second of slack, makes the interval grow up to five minutes. -/
def tooSoon (db : Db) (request : DeviceCode) : Bool :=
  request.lastPolledAt.any fun polled => db.now < polled + (request.pollInterval - 1) * 1000000

def recordPoll (db : Db) (requestId : Id) : Db :=
  db.updateDeviceCode requestId fun d => { d with
    lastPolledAt := some db.now
    pollInterval := if db.tooSoon d then min (d.pollInterval + 5) 300 else d.pollInterval }

def redeemDeviceCode (db : Db) (requestId : Id) : Bool × Db :=
  if db.oauth2DeviceCodes.any fun d => d.id = requestId ∧ d.status = .approved ∧ db.now < d.expiresAt then
    (true, db.updateDeviceCode requestId fun d =>
      if d.status = .approved ∧ db.now < d.expiresAt then { d with status := .redeemed } else d)
  else (false, db)

theorem redeemDeviceCode_true {db : Db} {requestId : Id} (hkey : (db.oauth2DeviceCodes.map DeviceCode.id).Nodup)
    (h : (db.redeemDeviceCode requestId).1 = true) :
    (∃ d ∈ db.oauth2DeviceCodes, d.id = requestId ∧ d.status = .approved ∧ db.now < d.expiresAt) ∧
      ∀ d ∈ (db.redeemDeviceCode requestId).2.oauth2DeviceCodes, d.id = requestId → d.status = .redeemed := by
  unfold redeemDeviceCode at h ⊢
  split_ifs at h ⊢ with hany
  obtain ⟨d, hd, hrow⟩ := any_eq_true.mp hany
  obtain ⟨hid, happroved⟩ := of_decide_eq_true hrow
  refine ⟨⟨d, hd, hid, happroved⟩, fun d' hd' hid' => ?_⟩
  obtain ⟨d₀, hd₀, rfl⟩ := mem_map.mp hd'
  dsimp only at hid' ⊢
  have hsame : d₀.id = requestId := by
    split_ifs at hid' <;> exact hid'
  obtain rfl := inj_on_of_nodup_map hkey hd₀ hd (hsame.trans hid.symm)
  rw [if_pos hsame, if_pos happroved]

section Rotation

variable {db : Db} {old t : OAuth2Token}

theorem reparent_id : (db.reparent old t).id = t.id := by
  unfold reparent
  split_ifs <;> rfl

theorem reparent_tokenType : (db.reparent old t).tokenType = t.tokenType := by
  unfold reparent
  split_ifs <;> rfl

theorem reparent_owner : (db.reparent old t).userId = t.userId ∧ (db.reparent old t).clientId = t.clientId ∧
    (db.reparent old t).sid = t.sid := by
  unfold reparent
  split_ifs <;> exact ⟨rfl, rfl, rfl⟩

theorem reparent_of_parent_none (h : t.parentTokenId = none) : db.reparent old t = t := by
  simp [reparent, h]

theorem mem_rotateRefreshToken_cases (h : t ∈ (db.rotateRefreshToken old).2.oauth2Tokens) : t.id ≠ old.id ∧
    (t = { old with id := db.nextId, parentTokenId := none } ∨ ∃ t₀ ∈ db.oauth2Tokens, t = db.reparent old t₀) := by
  obtain ⟨hmem, hne⟩ := mem_deleteTokens h
  refine ⟨by simpa using hne, ?_⟩
  obtain ⟨t₀, ht₀, rfl⟩ := mem_map.mp hmem
  rcases mem_concat_iff.mp ht₀ with hold | rfl
  · exact .inr ⟨t₀, hold, rfl⟩
  · exact .inl (reparent_of_parent_none (by exact rfl))

end Rotation

end Db

inductive PollOutcome
  | authorizationPending
  | slowDown
  | expiredToken
  | accessDenied
  | invalidGrant
  | approved (request : DeviceCode)

def PollOutcome.refusal : PollOutcome → TokenAnswer
  | .authorizationPending => .refused "authorization_pending" "The user has not yet approved the request"
  | .slowDown => .refused "slow_down" "Polling too fast; wait longer between requests"
  | .expiredToken => .refused "expired_token" "The device code has expired"
  | .accessDenied => .refused "access_denied" "The user denied the request"
  | .invalidGrant | .approved _ => .refused "invalid_grant" "Invalid or expired device code"

variable (env : Env) {client : OAuth2Client} {db : Db}

def validateAndConsumeCode (request : TokenRequest) : Service (Option AuthorizationCode) := do
  let found ← read (·.findCode request)
  match found with
  | none => pure none
  | some code =>
    if ¬ code.accepts env request.codeVerifier then pure none
    else do
      let consumed ← if code.consumedAt.isSome then pure false else tx fun db => .ok (db.consumeCode code.id)
      if consumed then pure (some code)
      else do
        write (·.revokeGrantTokens code.id)
        pure none

def issueUserTokens (client : OAuth2Client) (userId : Id) (scope : Option Text) (grantId : Id) (sid : Option Id) :
    Service TokenAnswer := do
  let issueIdToken := client.oidcEnabled ∧ "openid".toList ∈ parseScope scope
  let refreshTokenId ← tx fun db => .ok (db.createRefreshToken env client.id userId scope (some grantId)
    (if issueIdToken then sid else none))
  tx fun db => (db.wait env.tokenPause).createAccessToken env client.id userId (some refreshTokenId) false scope
    (some grantId)
  match sid with
  | none => pure ()
  | some sid => whenever issueIdToken (write (·.upsertSessionClient sid client.id userId))
  pure (.issued client.id userId)

def authorizationCodeGrant (client : OAuth2Client) (code redirectUri codeVerifier : Option Text) :
    Service TokenAnswer :=
  if client.clientType ≠ .normal ∨ client.isPublic then
    pure (.refused "unauthorized_client" "Client is not authorized for this grant type")
  else
    match code.filter (· ≠ []), redirectUri.filter (· ≠ []) with
    | some code, some redirectUri => do
      let redeemed ← validateAndConsumeCode env { code, clientId := client.id, redirectUri, codeVerifier }
      match redeemed with
      | none => pure (.refused "invalid_grant" "Invalid or expired authorization code")
      | some redeemed => issueUserTokens env client redeemed.userId redeemed.scope redeemed.id redeemed.sid
    | _, _ => pure (.refused "invalid_request" "Missing required parameter: code or redirect_uri")

def refreshTokenGrant (client : OAuth2Client) (refreshToken : Option Id) : Service TokenAnswer :=
  match refreshToken with
  | none => pure (.refused "invalid_request" "Missing required parameter: refresh_token")
  | some tokenId => do
    let found ← read (·.findRefreshToken tokenId client.id)
    match found with
    | none => pure (.refused "invalid_grant" "Invalid or expired refresh token")
    | some token => do
      let mayUse ← read (·.mayUse client token.userId)
      if ¬ mayUse then pure (.refused "invalid_grant" "Access has been revoked")
      else do
        let newTokenId ← tx fun db => .ok (db.rotateRefreshToken token)
        tx fun db => (db.wait env.tokenPause).createAccessToken env client.id token.userId (some newTokenId) false
          token.scope token.grantId
        pure (.issued client.id token.userId)

def clientCredentialsGrant (client : OAuth2Client) : Service TokenAnswer :=
  if client.clientType ≠ .b2b then
    pure (.refused "unauthorized_client" "Client is not authorized for this grant type")
  else
    match client.serviceUserId with
    | none => pure (.refused "server_error" "Client configuration error: missing service user")
    | some serviceUserId => do
      tx (·.createAccessToken env client.id serviceUserId none true none none)
      pure (.serviceToken client.id serviceUserId)

def poll (client : OAuth2Client) (deviceCode : Text) : Service PollOutcome := do
  let found ← read (·.findDeviceCode deviceCode client.id)
  let now ← read (·.now)
  match found with
  | none => pure .invalidGrant
  | some request =>
    if request.status = .redeemed then pure .invalidGrant
    else if request.expiresAt ≤ now then pure .expiredToken
    else
      match request.status with
      | .denied => pure .accessDenied
      | .approved => pure (.approved request)
      | _ => do
        let slowDown ← read (·.tooSoon request)
        write (·.recordPoll request.id)
        pure (if slowDown then .slowDown else .authorizationPending)

def redeemDevice (client : OAuth2Client) (request : DeviceCode) : Service TokenAnswer :=
  match request.userId with
  -- an approval always names the user
  | none => raise (.exception "DatabaseError")
  | some userId => do
    let mayUse ← read (·.mayUse client userId)
    if ¬ mayUse then pure (.refused "access_denied" "The user does not have access")
    else do
      let redeemed ← tx fun db => .ok (db.redeemDeviceCode request.id)
      if ¬ redeemed then pure (PollOutcome.refusal .invalidGrant)
      else issueUserTokens env client userId request.scope request.id none

def deviceCodeGrant (client : OAuth2Client) (deviceCode : Option Text) : Service TokenAnswer :=
  if ¬ client.canUseDeviceGrant then
    pure (.refused "unauthorized_client" "Client is not authorized for this grant type")
  else
    match deviceCode.filter (· ≠ []) with
    | none => pure (.refused "invalid_request" "Missing required parameter: device_code")
    | some deviceCode => do
      let outcome ← poll client deviceCode
      match outcome with
      | .approved request => redeemDevice env client request
      | outcome => pure outcome.refusal

def tokenEndpoint (clientId : Id) (request : GrantRequest) : Service TokenAnswer := do
  let client ← authenticateClient clientId
  match request with
  | .authorizationCode code redirectUri codeVerifier => authorizationCodeGrant env client code redirectUri codeVerifier
  | .refreshToken refreshToken => refreshTokenGrant env client refreshToken
  | .clientCredentials => clientCredentialsGrant env client
  | .deviceCode deviceCode => deviceCodeGrant env client deviceCode
  | .other grantType => pure (.refused "unsupported_grant_type" ("Grant type '" ++ grantType ++ "' is not supported"))

/-- The session that the tokens of a grant are tied to. -/
def grantSession (client : OAuth2Client) (scope : Option Text) (sid : Option Id) : Option Id :=
  if client.oidcEnabled ∧ "openid".toList ∈ parseScope scope then sid else none

theorem issueUserTokens_cases {userId : Id} {scope : Option Text} {grantId : Id} {sid : Option Id} : ∃ db',
      ((db.createRefreshToken env client.id userId scope (some grantId) (grantSession client scope sid)).2.wait
        env.tokenPause).createAccessToken env client.id userId (some db.nextId) false scope (some grantId) =
          .ok ((), db') ∧
      issueUserTokens env client userId scope grantId sid db = (.ok (.issued client.id userId),
        (grantSession client scope sid).elim db' (db'.upsertSessionClient · client.id userId)) := by
  have hparent : ∃ t ∈ ((db.createRefreshToken env client.id userId scope (some grantId)
      (grantSession client scope sid)).2.wait env.tokenPause).oauth2Tokens, t.id = db.nextId :=
    ⟨_, mem_append_right _ (mem_singleton.mpr rfl), rfl⟩
  obtain ⟨db', hcreate⟩ := Db.createAccessToken_of_parent hparent
  refine ⟨db', hcreate, ?_⟩
  unfold issueUserTokens grantSession
  rw [bind_apply_of_ok (tx_apply_of_ok rfl), bind_apply_of_ok (tx_apply_of_ok hcreate)]
  cases sid with
  | none => rw [ite_self]; rfl
  | some sid =>
    by_cases hid : client.oidcEnabled ∧ "openid".toList ∈ parseScope scope
    · simp only [whenever, if_pos hid]
      rfl
    · simp only [whenever, if_neg hid]
      rfl

structure Redeems (db : Db) (clientId : Id) (request : GrantRequest) (client : OAuth2Client)
    (code : AuthorizationCode) : Prop where
  client_found : db.getClientById clientId = some client
  client_active : client.isActive
  client_normal : client.clientType = .normal
  client_confidential : client.isPublic = false
  presented : ∃ text redirectUri verifier, request = .authorizationCode (some text) (some redirectUri) verifier ∧
    text ≠ [] ∧ redirectUri ≠ [] ∧ db.findCode ⟨text, client.id, redirectUri, verifier⟩ = some code ∧
    code.accepts env verifier
  unconsumed : code.consumedAt = none

/-- What one request at the token endpoint can do. -/
inductive Granting (db : Db) (clientId : Id) (request : GrantRequest) : Except Error TokenAnswer → Db → Prop
  | kept {r : Except Error TokenAnswer} (hr : ∀ c u, r ≠ .ok (.issued c u)) : Granting db clientId request r db
  | reused {r : Except Error TokenAnswer} (hr : ∀ c u, r ≠ .ok (.issued c u)) {db' : Db} (codeId : Id)
    (h : db' = db ∨ db' = (db.consumeCode codeId).2) : Granting db clientId request r (db'.revokeGrantTokens codeId)
  | polled {r : Except Error TokenAnswer} (hr : ∀ c u, r ≠ .ok (.issued c u)) (requestId : Id) :
    Granting db clientId request r (db.recordPoll requestId)
  | code {client : OAuth2Client} {code : AuthorizationCode} (h : Redeems env db clientId request client code)
    {r : Except Error TokenAnswer} {db' : Db}
    (hissue : issueUserTokens env client code.userId code.scope code.id code.sid
      (db.consumeCode code.id).2 = (r, db')) :
    Granting db clientId request r db'
  | refresh {client : OAuth2Client} {token : OAuth2Token} (hclient : db.getClientById clientId = some client)
    (hrequest : request = .refreshToken (some token.id)) (hfound : db.findRefreshToken token.id client.id = some token)
    (hmay : db.mayUse client token.userId) {db' : Db}
    (hcreate : ((db.rotateRefreshToken token).2.wait env.tokenPause).createAccessToken env client.id token.userId
      (some db.nextId) false token.scope token.grantId = .ok ((), db')) :
    Granting db clientId request (.ok (.issued client.id token.userId)) db'
  | orphaned {client : OAuth2Client} {token : OAuth2Token}
      (hfound : db.findRefreshToken token.id client.id = some token)
    {e : DbError} (hcreate : ((db.rotateRefreshToken token).2.wait env.tokenPause).createAccessToken env client.id
      token.userId (some db.nextId) false token.scope token.grantId = .error e) :
    Granting db clientId request (.error (.database e)) (db.rotateRefreshToken token).2
  | service {client : OAuth2Client} {serviceUserId : Id} (hclient : db.getClientById clientId = some client)
    (htype : client.clientType = .b2b) {db' : Db}
    (hcreate : db.createAccessToken env client.id serviceUserId none true none none = .ok ((), db')) :
    Granting db clientId request (.ok (.serviceToken client.id serviceUserId)) db'
  | device {client : OAuth2Client} {deviceCode : Text} {device : DeviceCode} {userId : Id}
    (hclient : db.getClientById clientId = some client) (hrequest : request = .deviceCode (some deviceCode))
    (hfound : db.findDeviceCode deviceCode client.id = some device) (hstatus : device.status = .approved)
    (huser : device.userId = some userId) (hmay : db.mayUse client userId) {r : Except Error TokenAnswer} {db' : Db}
    (hissue : issueUserTokens env client userId device.scope device.id none
      (db.redeemDeviceCode device.id).2 = (r, db')) :
    Granting db clientId request r db'
  | unredeemed {r : Except Error TokenAnswer} (hr : ∀ c u, r ≠ .ok (.issued c u)) (requestId : Id) :
    Granting db clientId request r (db.redeemDeviceCode requestId).2

section Cases

variable {env} {deviceCode : Text}

theorem validateAndConsumeCode_cases {request : TokenRequest} :
    (validateAndConsumeCode env request).Ensures db fun r db' =>
      r = .ok none ∧ (db' = db ∨ ∃ codeId db₁, (db₁ = db ∨ db₁ = (db.consumeCode codeId).2) ∧
        db' = db₁.revokeGrantTokens codeId) ∨
      ∃ code, r = .ok (some code) ∧ db' = (db.consumeCode code.id).2 ∧ db.findCode request = some code ∧
        code.accepts env request.codeVerifier ∧ code.consumedAt = none := by
  refine .read ?_
  cases hfound : db.findCode request with
  | none => exact .inl ⟨rfl, .inl rfl⟩
  | some code =>
    dsimp only
    by_cases haccepts : code.accepts env request.codeVerifier
    · rw [if_neg (not_not.mpr haccepts)]
      cases hconsumed : code.consumedAt with
      | some at' => exact .inl ⟨rfl, .inr ⟨code.id, db, .inl rfl, rfl⟩⟩
      | none =>
        refine ensures_bind.mpr (ensures_tx.mpr ⟨fun consumed db' h => ?_, fun e h => by cases h⟩)
        obtain rfl := congrArg Prod.snd (Except.ok.inj h)
        cases consumed with
        | false => exact .inl ⟨rfl, .inr ⟨code.id, _, .inr rfl, rfl⟩⟩
        | true => exact .inr ⟨code, rfl, rfl, rfl, haccepts, hconsumed⟩
    · rw [if_pos haccepts]
      exact .inl ⟨rfl, .inl rfl⟩

theorem poll_cases : (poll client deviceCode).Ensures db fun r db' =>
      (∃ outcome, r = .ok outcome ∧ (∀ request, outcome ≠ .approved request) ∧
        (db' = db ∨ ∃ requestId, db' = db.recordPoll requestId)) ∨
      ∃ request, r = .ok (.approved request) ∧ db' = db ∧ db.findDeviceCode deviceCode client.id = some request ∧
        request.status = .approved := by
  refine .read (.read ?_)
  cases hfound : db.findDeviceCode deviceCode client.id with
  | none => exact .inl ⟨_, rfl, by simp, .inl rfl⟩
  | some request =>
    dsimp only
    by_cases hredeemed : request.status = .redeemed
    · rw [if_pos hredeemed]
      exact .inl ⟨_, rfl, by simp, .inl rfl⟩
    rw [if_neg hredeemed]
    by_cases hexpired : request.expiresAt ≤ db.now
    · rw [if_pos hexpired]
      exact .inl ⟨_, rfl, by simp, .inl rfl⟩
    rw [if_neg hexpired]
    cases hstatus : request.status with
    | denied => exact .inl ⟨_, rfl, by simp, .inl rfl⟩
    | approved => exact .inr ⟨request, rfl, rfl, rfl, hstatus⟩
    | pending => exact .inl ⟨_, rfl, by intro; split_ifs <;> simp, .inr ⟨request.id, rfl⟩⟩
    | redeemed => exact absurd hstatus hredeemed

variable {db : Db} {clientId : Id} {client : OAuth2Client} {request : GrantRequest}

theorem Redeems.found {code : AuthorizationCode} (h : Redeems env db clientId request client code) :
    code ∈ db.authorizationCodes ∧ code.clientId = client.id ∧ db.now < code.expiresAt := by
  obtain ⟨text, redirectUri, verifier, -, -, -, hfound, -⟩ := h.presented
  have hmatch := find?_some hfound
  simp only [decide_eq_true_eq] at hmatch
  exact ⟨mem_of_find?_eq_some hfound, hmatch.1, hmatch.2.2.2⟩

theorem Db.findRefreshToken_spec {tokenId : Id} {token : OAuth2Token}
    (h : db.findRefreshToken tokenId clientId = some token) : token ∈ db.oauth2Tokens ∧ token.id = tokenId ∧
      token.tokenType = .refresh ∧ token.clientId = clientId ∧ db.now < token.expiresAt := by
  have hmatch := find?_some h
  simp only [decide_eq_true_eq] at hmatch
  exact ⟨mem_of_find?_eq_some h, hmatch⟩

theorem Db.findDeviceCode_spec {device : DeviceCode} (h : db.findDeviceCode deviceCode clientId = some device) :
    device ∈ db.oauth2DeviceCodes ∧ device.clientId = clientId := by
  have hmatch := find?_some h
  simp only [decide_eq_true_eq] at hmatch
  exact ⟨mem_of_find?_eq_some h, hmatch.2⟩

theorem authorizationCodeGrant_cases {code redirectUri codeVerifier : Option Text}
    (hclient : db.getClientById clientId = some client) (hactive : client.isActive) :
    (authorizationCodeGrant env client code redirectUri codeVerifier).Ensures db
      (Granting env db clientId (.authorizationCode code redirectUri codeVerifier)) := by
  unfold authorizationCodeGrant
  by_cases htype : client.clientType ≠ .normal ∨ client.isPublic
  · rw [if_pos htype]
    exact .kept (by simp)
  rw [if_neg htype]
  push Not at htype
  cases htext : code.filter (· ≠ []) with
  | none => exact .kept (by simp)
  | some text =>
    cases hredirect : redirectUri.filter (· ≠ []) with
    | none => exact .kept (by simp)
    | some redirect =>
      obtain ⟨rfl, htext⟩ := Option.filter_eq_some_iff.mp htext
      obtain ⟨rfl, hredirect⟩ := Option.filter_eq_some_iff.mp hredirect
      refine validateAndConsumeCode_cases.bind (fun redeemed db' h => ?_) fun e db' h => ?_
      · obtain ⟨hr, rfl | ⟨codeId, db₁, hdb₁, rfl⟩⟩ | ⟨c, hr, rfl, hfound, haccepts, hconsumed⟩ := h
        · obtain rfl := Except.ok.inj hr
          exact .kept (by simp)
        · obtain rfl := Except.ok.inj hr
          exact .reused (by simp) codeId hdb₁
        · obtain rfl := Except.ok.inj hr
          exact .code { client_found := hclient, client_active := hactive, client_normal := htype.1
                        client_confidential := by simpa using htype.2
                        presented := ⟨text, redirect, codeVerifier, rfl, by simpa using htext, by simpa using hredirect,
                          hfound, haccepts⟩
                        unconsumed := hconsumed } rfl
      · rcases h with ⟨hr, -⟩ | ⟨_, hr, -⟩ <;> cases hr

theorem refreshTokenGrant_cases (hclient : db.getClientById clientId = some client) {refreshToken : Option Id} :
    (refreshTokenGrant env client refreshToken).Ensures db (Granting env db clientId (.refreshToken refreshToken)) := by
  cases refreshToken with
  | none => exact .kept fun _ _ h => by cases h
  | some tokenId =>
    refine .read ?_
    cases hfound : db.findRefreshToken tokenId client.id with
    | none => exact .kept (by simp)
    | some token =>
      obtain rfl := (Db.findRefreshToken_spec hfound).2.1
      refine .read ?_
      by_cases hmay : db.mayUse client token.userId
      · rw [if_neg (not_not.mpr hmay)]
        refine ensures_bind.mpr (ensures_tx.mpr ⟨fun newTokenId db₁ h => ?_, fun e h => by cases h⟩)
        obtain ⟨rfl, rfl⟩ := Prod.mk.inj (Except.ok.inj h)
        refine ensures_bind.mpr (ensures_tx.mpr ⟨fun _ db' hcreate => ?_, fun e hcreate => .orphaned hfound hcreate⟩)
        exact .refresh hclient rfl hfound hmay hcreate
      · rw [if_pos hmay]
        exact .kept (by simp)

theorem clientCredentialsGrant_cases (hclient : db.getClientById clientId = some client) :
    (clientCredentialsGrant env client).Ensures db (Granting env db clientId request) := by
  unfold clientCredentialsGrant
  split_ifs with htype
  · exact .kept (by simp)
  · cases client.serviceUserId with
    | none => exact .kept (by simp)
    | some =>
      refine ensures_bind.mpr (ensures_tx.mpr ⟨fun _ db' hcreate => ?_, fun e _ => .kept (by simp)⟩)
      exact .service hclient (not_not.mp htype) hcreate

theorem deviceCodeGrant_cases (hclient : db.getClientById clientId = some client) {deviceCode : Option Text} :
    (deviceCodeGrant env client deviceCode).Ensures db (Granting env db clientId (.deviceCode deviceCode)) := by
  unfold deviceCodeGrant
  split_ifs
  on_goal 2 => exact .kept (by simp)
  cases hcode : deviceCode.filter (· ≠ []) with
  | none => exact .kept (by simp)
  | some text =>
    obtain ⟨rfl, -⟩ := Option.filter_eq_some_iff.mp hcode
    refine poll_cases.bind (fun outcome db' h => ?_) fun e db' h => ?_
    · rcases h with ⟨_, hr, hne, hdb⟩ | ⟨request, hr, rfl, hfound, hstatus⟩
      · obtain rfl := Except.ok.inj hr
        have hrefused : ∀ c u, (.ok outcome.refusal : Except Error TokenAnswer) ≠ .ok (.issued c u) := by
          cases outcome <;> simp [PollOutcome.refusal]
        have hanswer : (pure outcome.refusal : Service TokenAnswer).Ensures db'
            (Granting env db clientId (.deviceCode (some text))) := by
          rcases hdb with rfl | ⟨requestId, rfl⟩
          · exact .kept hrefused
          · exact .polled hrefused requestId
        cases outcome with
        | approved request => exact absurd rfl (hne request)
        | _ => exact hanswer
      · obtain rfl := Except.ok.inj hr
        change (redeemDevice env client request).Ensures db' _
        unfold redeemDevice
        cases huser : request.userId with
        | none => exact .kept (by simp)
        | some userId =>
          refine .read ?_
          by_cases hmay : db'.mayUse client userId
          · rw [if_neg (not_not.mpr hmay)]
            refine ensures_bind.mpr (ensures_tx.mpr ⟨fun redeemed db₁ h => ?_, fun e h => by cases h⟩)
            obtain rfl := congrArg Prod.snd (Except.ok.inj h)
            cases redeemed with
            | false => exact .unredeemed (by simp [PollOutcome.refusal]) request.id
            | true => exact .device hclient rfl hfound hstatus huser hmay rfl
          · rw [if_pos hmay]
            exact .kept (by simp)
    · rcases h with ⟨_, hr, -⟩ | ⟨_, hr, -⟩ <;> cases hr

theorem tokenEndpoint_cases : (tokenEndpoint env clientId request).Ensures db (Granting env db clientId request) := by
  have hauthenticate : (authenticateClient clientId).Ensures db fun r db' => db' = db ∧ ∀ client, r = .ok client →
      db.getClientById clientId = some client ∧ client.isActive := by
    refine .orRaise ⟨rfl, by simp⟩ fun client hclient => .require ⟨rfl, by simp⟩ fun hactive =>
      ⟨rfl, fun client' h => ?_⟩
    obtain rfl := Except.ok.inj h
    exact ⟨hclient, hactive⟩
  refine hauthenticate.bind (fun client db' h => ?_) fun e db' h => ?_
  · obtain ⟨rfl, h⟩ := h
    obtain ⟨hclient, hactive⟩ := h client rfl
    cases request with
    | authorizationCode => exact authorizationCodeGrant_cases hclient hactive
    | refreshToken => exact refreshTokenGrant_cases hclient
    | clientCredentials => exact clientCredentialsGrant_cases hclient
    | deviceCode => exact deviceCodeGrant_cases hclient
    | other => exact .kept (by simp)
  · obtain ⟨rfl, -⟩ := h
    exact .kept (by simp)

end Cases

end WeftId
