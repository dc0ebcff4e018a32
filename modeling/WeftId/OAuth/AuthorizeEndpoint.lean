import WeftId.OAuth.Consent
import WeftId.OAuth.Redemption

/-!
The whole authorization endpoint: a request with plain parameters, one that was pushed before, or one with a
request object is verified step by step, and only then handled for the user.  The consent page keeps what was
verified in the session, for the decision.
-/

namespace WeftId

open List Proc Run Check

/-- The parameters of an authorization request; a client is presented as the row its `client_id` names.
Parameters that are only echoed or ignored are left out. -/
structure AuthorizeQuery where
  clientId : Option Id := none
  redirectUri : Option Text := none
  responseType : Option Text := none
  scope : Option Text := none
  codeChallenge : Option Text := none
  codeChallengeMethod : Option Text := none
  prompt : Option Text := none
  maxAge : Option Text := none
  idTokenHint : Option Text := none
  requestObject : Option Text := none
  requestUri : Option Text := none
  responseMode : Option Text := none

structure StoredRequest where
  id : Id
  params : AuthorizeParams
  createdAt : Nat

/-- `stored` holds every request that a consent page ever put into a session: the session is a cookie of the
browser, so any of them may come back. -/
structure AuthorizeServer extends ConsentStore where
  pushedRequests : List PushedRequest := []
  stored : List StoredRequest := []
  requirePushed : List Id := []

/-- The services behind request objects and token hints, as they answer one request: they read keys and fetch
documents, so another request may be answered otherwise. -/
structure RequestServices where
  resolveRequestObject : OAuth2Client → AuthorizeQuery → Except (String × String) AuthorizeQuery
  verifyIdTokenHint : OAuth2Client → Text → Option Text
  subjectMatches : OAuth2Client → Id → Text → Bool

inductive Refusal
  | answer (answer : AuthorizeAnswer)
  | crash (error : Error)

def requestUriPrefix : Text := "urn:ietf:params:oauth:request_uri:"

def AuthorizeQuery.isPushed (query : AuthorizeQuery) : Bool := query.requestUri.any (requestUriPrefix.isPrefixOf ·)

/-- The reference in the `request_uri` of a pushed request. -/
def AuthorizeQuery.reference (query : AuthorizeQuery) : Text := (query.requestUri.getD []).drop requestUriPrefix.length

def present (fields : List (Text × Option Text)) : List (Text × Text) :=
  fields.filterMap fun (name, value) => value.map (name, ·)

def promptValues (prompt : Option Text) : List Text := parseScope prompt

/-- `isdigit` accepts characters that `int` does not read, and `int` reads at most 4300 digits. -/
def parseMaxAge (env : Env) (raw : Option Text) : Except Refusal (Option Nat) :=
  match raw.map (·.strip) with
  | none => pure none
  | some text =>
    if text = [] ∨ ¬ text.all env.isDigit then pure none
    else if 4300 < text.length then .error (.crash (.exception "ValueError"))
    else
      match Numeral.parseInt env.digitValue text with
      | some n => pure (some n.toNat)
      | none => .error (.crash (.exception "ValueError"))

def maxAgeExceeded (db : Db) (session : Session) (maxAge : Nat) : Bool :=
  maxAge = 0 ∨ ¬ session.sessionStart.any fun start => db.time - start ≤ maxAge

def AuthorizeQuery.fields (query : AuthorizeQuery) (stripReauth : Bool) : List (Text × Option Text) :=
  let prompts := (promptValues query.prompt).filter fun p => p ≠ "login".toList ∧ p ≠ "select_account".toList
  let stripped := if prompts = [] then none else some (Text.join ' ' prompts)
  [("redirect_uri", query.redirectUri),
    ("response_type", query.responseType),
    ("scope", query.scope),
    ("code_challenge", query.codeChallenge),
    ("code_challenge_method", query.codeChallengeMethod),
    ("prompt", if stripReauth then stripped else query.prompt),
    ("max_age", if stripReauth then none else query.maxAge),
    ("id_token_hint", query.idTokenHint),
    ("request", query.requestObject),
    ("request_uri", query.requestUri),
    ("response_mode", query.responseMode)]

def AuthorizeQuery.asQuery (query : AuthorizeQuery) (stripReauth : Bool) : List (Text × Text) :=
  present (query.fields stripReauth)

def AuthorizeQuery.ofPushed (clientId : Option Id) (parameters : List (Text × Text)) : AuthorizeQuery where
  clientId
  redirectUri := parameters.lookup "redirect_uri".toList
  responseType := parameters.lookup "response_type".toList
  scope := parameters.lookup "scope".toList
  codeChallenge := parameters.lookup "code_challenge".toList
  codeChallengeMethod := parameters.lookup "code_challenge_method".toList
  prompt := parameters.lookup "prompt".toList
  maxAge := parameters.lookup "max_age".toList
  idTokenHint := parameters.lookup "id_token_hint".toList
  responseMode := parameters.lookup "response_mode".toList

variable {query : AuthorizeQuery}

namespace AuthorizeServer

variable (env : Env) (sha256 : Text → Text)

def findPushedRequest (s : AuthorizeServer) (clientId : Id) (reference : Text) : Option PushedRequest :=
  s.pushedRequests.find? fun r => r.referenceHash = sha256 reference ∧ r.clientId = clientId ∧ s.db.now < r.expiresAt

def consumePushedRequest (s : AuthorizeServer) (clientId : Id) (reference : Text) : AuthorizeServer :=
  { s with pushedRequests := s.pushedRequests.filter fun r =>
      ¬ (r.referenceHash = sha256 reference ∧ r.clientId = clientId ∧ s.db.now < r.expiresAt) }

def storePushedRequest (s : AuthorizeServer) (clientId : Id) (parameters : List (Text × Text)) (lifetime : Nat) :
    Except Error Unit × AuthorizeServer :=
  let kept := s.pushedRequests.filter (s.db.now ≤ ·.expiresAt)
  let referenceHash := sha256 (env.opaqueToken s.db.nextId)
  let db := { s.db with nextId := s.db.nextId + 1 }
  if kept.any (·.referenceHash = referenceHash) then
    (.error (.database (.uniqueViolation "uq_oauth2_pushed_authorization_requests_reference")),
      { s with db, pushedRequests := kept })
  else (.ok (), { s with
    db
    pushedRequests := kept ++ [{
      id := s.db.nextId
      clientId
      referenceHash
      parameters
      expiresAt := s.db.now + lifetime * 1000000 }] })

end AuthorizeServer

/-- The refusal goes to the `redirect_uri` of the query when it is registered. -/
def requestObjectRefused (client : OAuth2Client) (query : AuthorizeQuery) (code message title : String) : Refusal :=
  .answer (if query.redirectUri.any fun uri => uri ≠ [] ∧ uri ∈ client.redirectUris then .error code message
    else .errorPage title message)

def findAuthorizeClient (db : Db) (query : AuthorizeQuery) : Except Refusal OAuth2Client :=
  match query.clientId with
  | none => .error (.answer (.errorPage "Invalid client_id" "The client_id parameter is required."))
  | some clientId =>
    match db.getClientById clientId with
    | none => .error (.answer (.errorPage "Invalid client_id" "The client_id provided is not registered."))
    | some client => do
      ensure (client.clientType = .normal ∧ ¬ client.isPublic ∧ client.isActive)
        (.answer (.errorPage "Unauthorized client" "This client is not authorized for this flow."))
      pure client

def resolveRequest (sha256 : Text → Text) (services : RequestServices) (s : AuthorizeServer)
    (client : OAuth2Client) (query : AuthorizeQuery) :
    Except Refusal AuthorizeQuery :=
  if query.isPushed then
    if query.requestObject.isSome then
      .error (requestObjectRefused client query "invalid_request" "Send either request or request_uri, not both."
        "Invalid request")
    else
      match (s.findPushedRequest sha256 client.id query.reference).filter fun _ =>
          0 < query.reference.length ∧ query.reference.length ≤ 128 with
      | none => .error (requestObjectRefused client query "invalid_request_uri"
          "The request_uri is unknown, expired, or already used." "Invalid request")
      | some pushed => .ok (.ofPushed query.clientId pushed.parameters)
  else if client.id ∈ s.requirePushed then
    .error (requestObjectRefused client query "invalid_request" "This client must use pushed authorization requests."
      "Invalid request")
  else if query.requestObject.isSome ∨ query.requestUri.isSome then
    match services.resolveRequestObject client query with
    | .error (code, message) => .error (requestObjectRefused client query code message "Invalid request object")
    | .ok carried => .ok { carried with requestObject := none, requestUri := none }
  else .ok query

def afterResolution (sha256 : Text → Text) (s : AuthorizeServer) (client : OAuth2Client)
    (query : AuthorizeQuery) : AuthorizeServer :=
  if query.isPushed ∧ query.requestObject = none ∧ 0 < query.reference.length ∧ query.reference.length ≤ 128 then
    s.consumePushedRequest sha256 client.id query.reference
  else s

def parameterError (env : Env) (query : AuthorizeQuery) : Except Refusal Unit := do
  ensure (query.responseType.any (· ≠ []))
    (.answer (.error "invalid_request" "The response_type parameter is required."))
  ensure (query.responseType = some "code".toList)
    (.answer (.error "unsupported_response_type" "Only response_type=code is supported."))
  ensure (query.codeChallenge.any (· ≠ []) → query.codeChallengeMethod = some "S256".toList ∨
      query.codeChallengeMethod = some "plain".toList)
    (.answer (.error "invalid_request" "Invalid code_challenge_method. Must be S256 or plain."))
  ensure ("none".toList ∈ promptValues query.prompt → (promptValues query.prompt).all (· = "none".toList))
    (.answer (.error "invalid_request" "prompt=none cannot be combined with other prompt values."))
  let maxAge ← parseMaxAge env query.maxAge
  ensure (query.maxAge.isSome → maxAge.isSome)
    (.answer (.error "invalid_request" "max_age must be a non-negative integer."))

def verifyHint (services : RequestServices) (client : OAuth2Client) (idTokenHint : Option Text) :
    Except Refusal (Option Text) :=
  match idTokenHint with
  | none => pure none
  | some hint =>
    match services.verifyIdTokenHint client hint with
    | none => .error (.answer (.error "invalid_request" "The id_token_hint could not be verified for this client."))
    | some subject => pure (some subject)

def verifyRequest (env : Env) (services : RequestServices) (db : Db) (client : OAuth2Client) (session : Session)
    (query : AuthorizeQuery) : Except Refusal AuthorizeParams := do
  let redirectUri := query.redirectUri.getD []
  ensure (redirectUri ≠ [])
    (.answer (.errorPage "Invalid redirect_uri" "The redirect_uri parameter is required."))
  ensure (redirectUri ∈ client.redirectUris)
    (.answer (.errorPage "Invalid redirect_uri" "The redirect_uri does not match registered URIs."))
  ensure (Text.orElse query.responseMode "query".toList ∈ ["query".toList, "form_post".toList])
    (.answer (.error "invalid_request" "Unsupported response_mode. Use query or form_post."))
  parameterError env query
  let maxAge ← parseMaxAge env query.maxAge
  let hint ← verifyHint services client query.idTokenHint
  let prompts := promptValues query.prompt
  pure {
    clientId := client.id
    redirectUri
    codeChallenge := query.codeChallenge
    codeChallengeMethod := query.codeChallengeMethod
    scope := query.scope
    promptNone := "none" ∈ prompts
    promptConsent := "consent" ∈ prompts
    reauthenticate := "login".toList ∈ prompts ∨ "select_account".toList ∈ prompts ∨
      maxAge.any (maxAgeExceeded db session ·) ∨
      hint.any fun subject => session.userId.any fun userId => ¬ services.subjectMatches client userId subject }

/-- A `max_age` of digits only is one that `int` reads. -/
def ReadableAge (env : Env) (raw : Text) : Prop :=
  raw.strip ≠ [] → raw.strip.all env.isDigit →
    raw.strip.length ≤ 4300 ∧ (Numeral.parseInt env.digitValue raw.strip).isSome
  deriving Decidable

theorem parseMaxAge_crash_iff {env : Env} {raw : Text} :
    (∃ e, parseMaxAge env (some raw) = .error (.crash e)) ↔ ¬ ReadableAge env raw := by
  unfold parseMaxAge ReadableAge
  dsimp only [Option.map_some]
  by_cases hskip : raw.strip = [] ∨ ¬ raw.strip.all env.isDigit
  · rw [if_pos hskip]
    refine iff_of_false (fun ⟨_, h⟩ => by cases h) (not_not_intro fun hne hall => ?_)
    exact absurd hskip (by simp [hne, hall])
  · rw [if_neg hskip]
    push Not at hskip
    by_cases hlong : 4300 < raw.strip.length
    · rw [if_pos hlong]
      exact iff_of_true ⟨_, rfl⟩ fun h => absurd (h hskip.1 hskip.2).1 (not_le.mpr hlong)
    · rw [if_neg hlong]
      cases Numeral.parseInt env.digitValue raw.strip with
      | none => exact iff_of_true ⟨_, rfl⟩ fun h => by simpa using (h hskip.1 hskip.2).2
      | some n => exact iff_of_false (fun ⟨_, h⟩ => by cases h) (not_not_intro fun _ _ => ⟨not_lt.mp hlong, rfl⟩)

theorem parameterError_crash {env : Env} {e : Error}
    (h : parameterError env query = .error (.crash e)) : parseMaxAge env query.maxAge = .error (.crash e) := by
  simp only [parameterError, ensure, bind, Except.bind] at h
  cases hparse : parseMaxAge env query.maxAge with
  | error =>
    simp only [hparse] at h
    split_ifs at h <;> cases h
    rfl
  | ok maxAge =>
    simp only [hparse] at h
    split_ifs at h <;> cases h

/-- Which verifiers and which values of `max_age` are answered; a code is kept when its verifier is wrong. -/
theorem untrusted_inputs_rejected_iff (env : Env) :
    (∀ verifier challenge method, (∃ accepted, verifyPkceChallenge env verifier challenge method = .ok accepted) ↔
      (method = some "S256".toList → verifier.all (·.toNat < 128))) ∧
    (∀ raw, (∀ query : AuthorizeQuery, query.maxAge = some raw → ∀ e, parameterError env query ≠ .error (.crash e)) ↔
      ReadableAge env raw) ∧
    ∀ db request code challenge verifier, db.findCode request = some code → code.codeChallenge = some challenge →
      challenge ≠ [] → request.codeVerifier = some verifier →
      verifyPkceChallenge env verifier challenge code.codeChallengeMethod ≠ .ok true →
        (validateAndConsumeCode env request).exec db = db := by
  refine ⟨fun verifier challenge method => ?_, fun raw => ?_, ?_⟩
  · unfold verifyPkceChallenge
    by_cases hmethod : method = some "S256".toList
    · by_cases hascii : verifier.all (·.toNat < 128) <;> simp [hmethod, hascii]
    · refine iff_of_true ?_ fun h => absurd h hmethod
      rw [if_neg hmethod]
      split <;> exact ⟨_, rfl⟩
  · rw [← not_iff_not, ← parseMaxAge_crash_iff]
    push Not
    constructor
    · rintro ⟨query, hraw, e, h⟩
      exact ⟨e, hraw ▸ parameterError_crash h⟩
    · rintro ⟨e, h⟩
      refine ⟨{ responseType := some "code".toList, maxAge := some raw }, rfl, e, ?_⟩
      simp [parameterError, ensure, promptValues, parseScope, bind, Except.bind, h]
  · intro db request code challenge verifier hfound hchallenge hne hverifier hwrong
    have hrefused : ¬ code.accepts env request.codeVerifier := by
      cases challenge with
      | nil => exact absurd rfl hne
      | cons c cs =>
        cases verifier <;> simp [AuthorizationCode.accepts, hchallenge, hverifier, hwrong]
    unfold validateAndConsumeCode exec
    rw [read_bind_apply, hfound]
    simp only [hrefused]
    rfl

theorem untrusted_inputs_raise :
    let env := { Env.ascii with isDigit := fun c => Text.isAsciiDigit c ∨ c = '²' }
    verifyPkceChallenge env "é" "challenge" (some "S256") =
        .error (.exception "UnicodeEncodeError") ∧
      parameterError env { responseType := some "code".toList, maxAge := some "²".toList } =
        .error (.crash (.exception "ValueError")) :=
  ⟨by decide +kernel, rfl⟩

variable (env : Env) (sha256 : Text → Text) {client : OAuth2Client}

namespace AuthorizeServer

def storeForResume (s : AuthorizeServer) (client : OAuth2Client) (query : AuthorizeQuery) (pushed stripReauth : Bool)
    (answer : AuthorizeAnswer) : Except Error AuthorizeAnswer × AuthorizeServer :=
  if pushed then
    let (stored, s) := s.storePushedRequest env sha256 client.id (query.asQuery stripReauth) 600
    (stored.map fun _ => answer, s)
  else (.ok answer, s)

def keep (s : AuthorizeServer) (client : OAuth2Client) (query : AuthorizeQuery) (pushed : Bool)
    (params : AuthorizeParams)
    (answer : AuthorizeAnswer) : Except Error AuthorizeAnswer × AuthorizeServer :=
  match answer with
  | .consentPage => (.ok .consentPage, { s with
      db := { s.db with nextId := s.db.nextId + 1 }
      stored := s.stored ++ [{ id := s.db.nextId, params, createdAt := s.db.time }] })
  | .login => s.storeForResume env sha256 client query pushed false .login
  | .reauthenticate => s.storeForResume env sha256 client query pushed true .reauthenticate
  | answer => (.ok answer, s)

def handle (s : AuthorizeServer) (session : Session) (client : OAuth2Client) (query : AuthorizeQuery) (pushed : Bool)
    (params : AuthorizeParams) : Except Error AuthorizeAnswer × AuthorizeServer :=
  let covered := session.userId.any fun userId => s.consentCovers params.clientId userId (parseScope params.scope)
  match WeftId.handleAuthorizeRequest env session params covered s.db with
  | (.ok (answer, _), db) => keep env sha256 { s with db } client query pushed params answer
  | (.error e, db) => (.error e, { s with db })

def refuse (s : AuthorizeServer) : Refusal → Except Error AuthorizeAnswer × AuthorizeServer
  | .answer answer => (.ok answer, s)
  | .crash error => (.error error, s)

def authorize (s : AuthorizeServer) (services : RequestServices) (session : Session) (query : AuthorizeQuery) :
    Except Error AuthorizeAnswer × AuthorizeServer :=
  match findAuthorizeClient s.db query with
  | .error refusal => s.refuse refusal
  | .ok client =>
    let after := afterResolution sha256 s client query
    match resolveRequest sha256 services s client query with
    | .error refusal => after.refuse refusal
    | .ok resolved =>
      match verifyRequest env services s.db client session resolved with
      | .error refusal => after.refuse refusal
      | .ok params => handle env sha256 after session client resolved query.isPushed params

def authorizeGrant (s : AuthorizeServer) (session : Session) (requestId : Id) (action : String) : AuthorizeServer :=
  match s.stored.find? (·.id = requestId) with
  | none => s
  | some request => { s with toConsentStore :=
      s.toConsentStore.authorizeGrant env session request.params request.createdAt action }

end AuthorizeServer

/-- The columns of a client that some statement updates; the type and whether it is public are only set where a
client is inserted. -/
def OAuth2Client.updated (client columns : OAuth2Client) : OAuth2Client :=
  { columns with
    id := client.id
    clientType := client.clientType
    serviceUserId := client.serviceUserId
    isPublic := client.isPublic }

/-- Whatever other requests do to users, groups, grants, tokens and sessions: the clients are not theirs. -/
structure OtherRequest where
  exec : ConsentStore → ConsentStore
  clients : ∀ s, (exec s).db.oauth2Clients = s.db.oauth2Clients
  nextId : ∀ s, s.db.nextId ≤ (exec s).db.nextId

inductive AuthorizeStep
  | authorize (services : RequestServices) (session : Session) (query : AuthorizeQuery)
  | authorizeGrant (session : Session) (requestId : Id) (action : String)
  | push (clientId : Id) (parameters : List (Text × Text))
  | createClient (columns : OAuth2Client)
  | updateClient (clientId : Id) (columns : OAuth2Client)
  | deleteClient (clientId : Id)
  | setRequirePushed (clientIds : List Id)
  | other (request : OtherRequest)

namespace AuthorizeStep

def exec (s : AuthorizeServer) : AuthorizeStep → AuthorizeServer
  | .authorize services session query => (s.authorize env sha256 services session query).2
  | .authorizeGrant session requestId action => s.authorizeGrant env session requestId action
  | .push clientId parameters => (s.storePushedRequest env sha256 clientId parameters 60).2
  | .createClient columns => { s with db := { s.db with
      nextId := s.db.nextId + 1
      oauth2Clients := s.db.oauth2Clients ++ [{ columns with id := s.db.nextId }] } }
  | .updateClient clientId columns => { s with db := { s.db with
      oauth2Clients := s.db.oauth2Clients.map fun c => if c.id = clientId then c.updated columns else c } }
  | .deleteClient clientId => { s with
      db := { s.db with
        oauth2Clients := s.db.oauth2Clients.filter (·.id ≠ clientId)
        authorizationCodes := s.db.authorizationCodes.filter (·.clientId ≠ clientId)
        oauth2Tokens := s.db.oauth2Tokens.filter (·.clientId ≠ clientId)
        oauth2DeviceCodes := s.db.oauth2DeviceCodes.filter (·.clientId ≠ clientId)
        oidcSessionClients := s.db.oidcSessionClients.filter (·.clientId ≠ clientId)
        clientGroupAssignments := s.db.clientGroupAssignments.filter (·.oauth2ClientId ≠ clientId) }
      grants := s.grants.filter (·.clientId ≠ clientId)
      pushedRequests := s.pushedRequests.filter (·.clientId ≠ clientId) }
  | .setRequirePushed clientIds => { s with requirePushed := clientIds }
  | .other request => { s with toConsentStore := request.exec s.toConsentStore }

def session? : AuthorizeStep → Option Session
  | .authorize _ session _ => some session
  | .authorizeGrant session _ _ => some session
  | _ => none

/-- The consent that a code rests on: remembered before the request, or just given and stored. -/
def Consented (s : AuthorizeServer) (step : AuthorizeStep) (code : AuthorizationCode) : Prop :=
  match step with
  | .authorize _ _ _ => s.consentCovers code.clientId code.userId (parseScope code.scope)
  | .authorizeGrant _ _ action =>
    action = "allow" ∧ (step.exec env sha256 s).consentCovers code.clientId code.userId (parseScope code.scope)
  | _ => False

end AuthorizeStep

def Db.SignedIn (db : Db) (session : Session) (userId : Id) : Prop :=
  ∃ user after, (getCurrentUser session db).1 = .ok (some user, after) ∧ user.id = userId

structure Db.MayIssue (db : Db) (session : Session) (clientId : Id) (redirectUri : Text) (userId : Id)
    (client : OAuth2Client) : Prop where
  found : db.getClientById clientId = some client
  normal : client.clientType = .normal
  active : client.isActive
  redirect : redirectUri ∈ client.redirectUris
  signedIn : db.SignedIn session userId
  access : client.oidcEnabled → db.userCanAccessClient userId client.id

section Checks

variable {env : Env} {db : Db} {session : Session} {userId nextId : Id}

theorem Db.SignedIn.userId_eq (h : db.SignedIn session userId) : session.userId = some userId := by
  obtain ⟨user, after, hfound, rfl⟩ := h
  obtain ⟨user', after', nextId, happly, -, -, huser⟩ := getCurrentUser_apply
  rw [happly] at hfound
  obtain ⟨rfl, -⟩ := Prod.mk.inj (Except.ok.inj hfound)
  exact (huser user rfl).1

theorem Db.signedIn_iff : db.SignedIn session userId ↔ session.userId = some userId ∧
    ¬ (db.sessionTimedOut session.sessionStart ∨ session.sid.any db.isSessionRevoked) ∧
    ∃ user, db.getUserById userId = some user ∧ ¬ user.Blocked := by
  have hid : ∀ {id user}, db.getUserById id = some user → user.id = id := fun h => by
    simpa using find?_some h
  unfold Db.SignedIn getCurrentUser
  cases session.userId with
  | none => simp
  | some id =>
    dsimp only
    rw [read_bind_apply, read_bind_apply]
    by_cases hended : db.sessionTimedOut session.sessionStart ∨ session.sid.any db.isSessionRevoked
    · simp [hended]
    · obtain ⟨kept, nextId, hensure, -, -⟩ := ensureSessionId_apply
      rw [if_neg hended, bind_apply_of_ok hensure]
      change (∃ user after, ((if ∃ u ∈ db.getUserById id, u.Blocked then pure (none, {})
        else pure (db.getUserById id, kept) : Service (Option User × Session)) { db with nextId }).1 =
          .ok (some user, after) ∧ user.id = userId) ↔ _
      cases hrow : db.getUserById id with
      | none =>
        simp only [Option.mem_def, reduceCtorEq, false_and, exists_false, if_false, pure_apply, Except.ok.injEq,
          Prod.mk.injEq, Option.some.injEq, false_iff]
        rintro ⟨rfl, -, user, huser, -⟩
        rw [hrow] at huser
        cases huser
      | some row =>
        have hrowId : row.id = id := hid hrow
        by_cases hblocked : row.Blocked
        · simp only [Option.mem_def, Option.some.injEq, exists_eq_left', hblocked, if_true, pure_apply, Except.ok.injEq,
            Prod.mk.injEq, reduceCtorEq, false_and, exists_false, false_iff]
          rintro ⟨rfl, -, user, huser, hopen⟩
          rw [hrow] at huser
          exact hopen (Option.some.inj huser ▸ hblocked)
        · simp only [Option.mem_def, Option.some.injEq, exists_eq_left', hblocked, if_false, pure_apply,
            Except.ok.injEq, Prod.mk.injEq]
          constructor
          · rintro ⟨user, after, ⟨rfl, -⟩, rfl⟩
            exact ⟨hrowId.symm, hended, row, hrowId ▸ hrow, hblocked⟩
          · rintro ⟨rfl, -, -⟩
            exact ⟨row, kept, ⟨rfl, rfl⟩, hrowId⟩

theorem Db.SignedIn.of_nextId (h : Db.SignedIn { db with nextId } session userId) : db.SignedIn session userId := by
  have hsigned := signedIn_iff.mp h
  rw [signedIn_iff]
  exact hsigned

theorem Db.MayIssue.of_nextId {clientId : Id} {redirectUri : Text}
    (h : Db.MayIssue { db with nextId } session clientId redirectUri userId client) :
    db.MayIssue session clientId redirectUri userId client :=
  ⟨h.found, h.normal, h.active, h.redirect, h.signedIn.of_nextId, h.access⟩

/-- A page leaves the clients alone, and the codes it adds are issued for its request, to a user for whom everything
is checked. -/
structure Db.IssuesChecked (session : Session) (params : AuthorizeParams) (P : OAuth2Client → Prop) (db db' : Db) :
    Prop where
  clients : db'.oauth2Clients = db.oauth2Clients
  nextId : db.nextId ≤ db'.nextId
  codes : ∀ code ∈ db'.authorizationCodes, code ∉ db.authorizationCodes →
    ∃ client, db.MayIssue session code.clientId code.redirectUri code.userId client ∧ P client ∧
      code.clientId = params.clientId ∧ code.scope = params.scope

section Pages

variable {params : AuthorizeParams} {P : OAuth2Client → Prop} {db' : Db}

theorem Db.issuesChecked_draw (hle : db.nextId ≤ nextId) : db.IssuesChecked session params P { db with nextId } :=
  ⟨rfl, hle, fun _ hcode hnew => absurd hcode hnew⟩

theorem Db.IssuesChecked.draw (h : db.IssuesChecked session params P db') (hle : db'.nextId ≤ nextId) :
    db.IssuesChecked session params P { db' with nextId } :=
  ⟨h.clients, le_trans h.nextId hle, h.codes⟩

theorem Answering.issuesChecked {Q : OAuth2Client → Prop} {r : Except Error (AuthorizeAnswer × Session)}
    (h : Answering env db session params Q r db')
    (hP : ∀ client, Q client → (∃ code after, r = .ok (.code code, after)) → P client) :
    db.IssuesChecked session params P db' := by
  cases h with
  | kept _ hle => exact Db.issuesChecked_draw hle
  | @issued user after _ client _ code huser hclient hnormal hactive hredirect hmay hQ hle =>
    refine ⟨rfl, Nat.le_succ_of_le hle, fun issued hmem hnew => ?_⟩
    rcases mem_concat_iff.mp hmem with hold | rfl
    · exact absurd (mem_of_mem_filter hold) hnew
    · have haccess : client.oidcEnabled → db.userCanAccessClient user.id client.id := fun hoidc =>
        (of_decide_eq_true hmay).resolve_left (not_not.mpr hoidc)
      exact ⟨client, ⟨hclient, hnormal, hactive, hredirect, ⟨user, after, huser, rfl⟩, haccess⟩, hP _ hQ ⟨code, _, rfl⟩,
        rfl, rfl⟩

end Pages

theorem findAuthorizeClient_eq_ok
    (h : findAuthorizeClient db query = .ok client) : db.getClientById client.id = some client ∧ ¬ client.isPublic := by
  unfold findAuthorizeClient at h
  split at h
  · cases h
  split at h
  · cases h
  · rename_i clientId _ _ found hfound
    simp only [bind_eq_ok, ensure_eq_ok, pure_eq_ok] at h
    obtain ⟨_, hchecked, rfl⟩ := h
    have hid : found.id = clientId := by simpa using find?_some hfound
    exact ⟨by rw [hid, hfound], hchecked.2.1⟩

end Checks

theorem ConsentStore.authorizeGrant_issuesChecked (env : Env) (s : ConsentStore) (session : Session)
    (stored : AuthorizeParams) (createdAt : Nat) (action : String) :
    s.db.IssuesChecked session stored (fun _ => action = "allow" ∧ ∀ userId, session.userId = some userId →
        (s.authorizeGrant env session stored createdAt action).consentCovers stored.clientId userId
          (parseScope stored.scope)) (s.authorizeGrant env session stored createdAt action).db := by
  have hissues : ∀ s : ConsentStore, s.db.IssuesChecked session stored (fun _ => action = "allow" ∧ ∃ code after,
      (WeftId.authorizeGrant env session stored createdAt action s.db).1 = .ok (.code code, after))
      ((WeftId.authorizeGrant env session stored createdAt action).exec s.db) := fun s =>
    Answering.issuesChecked (WeftId.authorizeGrant_cases session stored createdAt action s.db) fun _ => .intro
  obtain heq | ⟨heq, hno⟩ | ⟨userId, s', -, hrecord, huser, heq⟩ :=
    authorizeGrant_cases env s session stored createdAt action
  · rw [heq]
    exact Db.issuesChecked_draw (le_refl _)
  · have hpage := hissues s
    rw [heq]
    refine ⟨hpage.clients, hpage.nextId, fun code hcode hnew => ?_⟩
    obtain ⟨client, hmay, ⟨-, hanswer⟩, -⟩ := hpage.codes code hcode hnew
    rcases hno with hnone | hother
    · cases hnone.symm.trans hmay.signedIn.userId_eq
    · exact absurd hanswer hother
  · obtain ⟨⟨nextId, hdb⟩, -⟩ := recordConsent_spec hrecord
    have hle := recordConsent_nextId_le hrecord
    have hpage := hissues s'
    have hcovers := consentCovers_of_recordConsent hrecord
    rw [heq]
    rw [hdb] at hpage hle ⊢
    refine ⟨hpage.clients, le_trans hle hpage.nextId, fun code hcode hnew => ?_⟩
    obtain ⟨client, hmay, ⟨hallow, -⟩, hclient, hscope⟩ := hpage.codes code hcode hnew
    refine ⟨client, hmay.of_nextId, ⟨hallow, fun userId' huser' => ?_⟩, hclient, hscope⟩
    obtain rfl := Option.some.inj (huser.symm.trans huser')
    exact hcovers

namespace AuthorizeServer

variable {env : Env} {sha256 : Text → Text} {s s' : AuthorizeServer}

/-- Every request stored for a decision names a client that some row had, and whose row is not a public one. -/
structure Sound (s : AuthorizeServer) : Prop where
  clients : ∀ client ∈ s.db.oauth2Clients, client.id < s.db.nextId
  known : ∀ r ∈ s.stored, r.params.clientId < s.db.nextId
  confidential : ∀ r ∈ s.stored, ∀ client, s.db.getClientById r.params.clientId = some client → ¬ client.isPublic

theorem Sound.of_clients (h : s.Sound) (hclients : s'.db.oauth2Clients = s.db.oauth2Clients)
    (hnext : s.db.nextId ≤ s'.db.nextId) (hstored : ∀ r ∈ s'.stored, r ∈ s.stored ∨
      ∃ client, s.db.getClientById r.params.clientId = some client ∧ ¬ client.isPublic) : s'.Sound := by
  have hfind : ∀ clientId, s'.db.getClientById clientId = s.db.getClientById clientId := by
    intro clientId
    unfold Db.getClientById
    rw [hclients]
  refine ⟨fun client hclient => ?_, fun r hr => ?_, fun r hr client hclient => ?_⟩
  · exact lt_of_lt_of_le (h.clients client (hclients ▸ hclient)) hnext
  · rcases hstored r hr with hr | ⟨client, hclient, -⟩
    · exact lt_of_lt_of_le (h.known r hr) hnext
    · have hid : client.id = r.params.clientId := by simpa using find?_some hclient
      rw [← hid]
      exact lt_of_lt_of_le (h.clients client (mem_of_find?_eq_some hclient)) hnext
  · rw [hfind] at hclient
    rcases hstored r hr with hr | ⟨client', hclient', hpublic⟩
    · exact h.confidential r hr client hclient
    · obtain rfl := Option.some.inj (hclient'.symm.trans hclient)
      exact hpublic

theorem storePushedRequest_frame (env : Env) (sha256 : Text → Text) (s : AuthorizeServer) (clientId : Id)
    (parameters : List (Text × Text)) (lifetime : Nat) :
    (s.storePushedRequest env sha256 clientId parameters lifetime).2.db = { s.db with nextId := s.db.nextId + 1 } ∧
      (s.storePushedRequest env sha256 clientId parameters lifetime).2.stored = s.stored := by
  unfold storePushedRequest
  dsimp only
  split
  · exact ⟨rfl, rfl⟩
  · exact ⟨rfl, rfl⟩

theorem handle_spec (env : Env) (sha256 : Text → Text) (s : AuthorizeServer) (session : Session)
    (client : OAuth2Client) (query : AuthorizeQuery)
    (pushed : Bool) (params : AuthorizeParams) : s.db.IssuesChecked session params (fun client => ¬ client.isPublic ∧
        session.userId.any fun userId => s.consentCovers params.clientId userId (parseScope params.scope))
      (handle env sha256 s session client query pushed params).2.db ∧
    ∀ r ∈ (handle env sha256 s session client query pushed params).2.stored, r ∈ s.stored ∨ r.params = params := by
  have hpage : (handleAuthorizeRequest env session params (session.userId.any fun userId =>
      s.consentCovers params.clientId userId (parseScope params.scope))).Ensures s.db fun _ db' =>
        s.db.IssuesChecked session params _ db' :=
    handleAuthorizeRequest_cases.mono fun _ _ h => h.issuesChecked fun _ hQ _ => hQ
  unfold Ensures at hpage
  unfold handle
  dsimp only
  split
  · rename_i answer after db heq
    rw [heq] at hpage
    have hdrawn := hpage.draw (Nat.le_succ db.nextId)
    cases answer with
    | consentPage =>
      refine ⟨hdrawn, fun r hr => ?_⟩
      rcases mem_concat_iff.mp hr with hr | rfl
      · exact .inl hr
      · exact .inr rfl
    | login | reauthenticate =>
      cases pushed with
      | false => exact ⟨hpage, fun r hr => .inl hr⟩
      | true =>
        simp only [keep, storeForResume, if_true, storePushedRequest_frame]
        exact ⟨hdrawn, fun r hr => .inl hr⟩
    | _ => exact ⟨hpage, fun r hr => .inl hr⟩
  · rename_i e db heq
    rw [heq] at hpage
    exact ⟨hpage, fun r hr => .inl hr⟩

theorem refuse_snd (s : AuthorizeServer) (refusal : Refusal) : (s.refuse refusal).2 = s := by
  cases refusal <;> rfl

theorem authorize_cases (env : Env) (sha256 : Text → Text) (s : AuthorizeServer) (services : RequestServices)
    (session : Session)
    (query : AuthorizeQuery) : ∃ before : AuthorizeServer, before.toConsentStore = s.toConsentStore ∧
      before.stored = s.stored ∧ ((s.authorize env sha256 services session query).2 = before ∨
        ∃ client resolved params, s.db.getClientById client.id = some client ∧ ¬ client.isPublic ∧
          params.clientId = client.id ∧ (s.authorize env sha256 services session query).2 =
            (handle env sha256 before session client resolved query.isPushed params).2) := by
  unfold authorize
  split
  · rw [refuse_snd]
    exact ⟨s, rfl, rfl, .inl rfl⟩
  rename_i client hfound
  obtain ⟨hclient, hpublic⟩ := findAuthorizeClient_eq_ok hfound
  refine ⟨afterResolution sha256 s client query, ?_, ?_, ?_⟩
  · unfold afterResolution
    split <;> rfl
  · unfold afterResolution
    split <;> rfl
  split
  · exact .inl (refuse_snd _ _)
  split
  · exact .inl (refuse_snd _ _)
  · rename_i resolved _ _ params hverified
    simp only [verifyRequest, bind_eq_ok, pure_eq_ok] at hverified
    obtain ⟨_, _, _, _, _, _, _, _, _, _, _, _, rfl⟩ := hverified
    exact .inr ⟨client, resolved, _, hclient, hpublic, rfl, rfl⟩

theorem authorizeGrant_cases (env : Env) (s : AuthorizeServer) (session : Session) (requestId : Id) (action : String) :
    s.authorizeGrant env session requestId action = s ∨ ∃ request ∈ s.stored,
      s.authorizeGrant env session requestId action = { s with
        toConsentStore := s.toConsentStore.authorizeGrant env session request.params request.createdAt action } := by
  unfold authorizeGrant
  cases hfound : s.stored.find? (·.id = requestId) with
  | none => exact .inl rfl
  | some request => exact .inr ⟨request, mem_of_find?_eq_some hfound, rfl⟩

end AuthorizeServer

namespace AuthorizeStep

variable {env : Env} {sha256 : Text → Text} {s : AuthorizeServer}

theorem getClientById_of_delete {clientId otherId : Id}
    (h : ((deleteClient otherId).exec env sha256 s).db.getClientById clientId = some client) :
    s.db.getClientById clientId = some client := by
  have hmem := mem_of_find?_eq_some h
  have hother := of_decide_eq_true (mem_filter.mp hmem).2
  have hid : client.id = clientId := by simpa using find?_some h
  simp only [exec, Db.getClientById, find?_filter] at h
  rw [← h, Db.getClientById]
  congr 1
  funext c
  by_cases hc : c.id = clientId
  · simp [hc, ← hid, hother]
  · simp [hc]

theorem sound_exec (h : s.Sound) (step : AuthorizeStep) : (step.exec env sha256 s).Sound := by
  cases step with
  | authorize services session query =>
    obtain ⟨before, hconsent, hstored, heq | ⟨client, resolved, params, hclient, hpublic, hid, heq⟩⟩ :=
      s.authorize_cases env sha256 services session query
    · change (s.authorize env sha256 services session query).2.Sound
      rw [heq]
      exact h.of_clients (by rw [hconsent]) (by rw [hconsent]) fun r hr => .inl (hstored ▸ hr)
    · obtain ⟨hpage, hkept⟩ := before.handle_spec env sha256 session client resolved query.isPushed params
      change (s.authorize env sha256 services session query).2.Sound
      rw [heq]
      rw [hconsent] at hpage
      refine h.of_clients hpage.clients hpage.nextId fun r hr => ?_
      rcases hkept r hr with hr | hr
      · exact .inl (hstored ▸ hr)
      · rw [hr, hid]
        exact .inr ⟨client, hclient, hpublic⟩
  | authorizeGrant session requestId action =>
    change (s.authorizeGrant env session requestId action).Sound
    obtain heq | ⟨request, -, heq⟩ := s.authorizeGrant_cases env session requestId action
    · exact heq.symm ▸ h
    · have hpage := s.toConsentStore.authorizeGrant_issuesChecked env session request.params request.createdAt action
      rw [heq]
      exact h.of_clients hpage.clients hpage.nextId fun r hr => .inl hr
  | push clientId parameters =>
    obtain ⟨hdb, hstored⟩ := s.storePushedRequest_frame env sha256 clientId parameters 60
    change (s.storePushedRequest env sha256 clientId parameters 60).2.Sound
    exact h.of_clients (by rw [hdb]) (by rw [hdb]; exact Nat.le_succ _) fun r hr => .inl (hstored ▸ hr)
  | createClient =>
    -- the new row has an identifier that no stored request names
    refine ⟨fun client hclient => ?_, fun r hr => Nat.lt_succ_of_lt (h.known r hr), fun r hr client hclient => ?_⟩
    · rcases List.mem_concat_iff.mp hclient with hclient | rfl
      · exact Nat.lt_succ_of_lt (h.clients client hclient)
      · exact Nat.lt_succ_self _
    · have hother : ¬ s.db.nextId = r.params.clientId := fun heq => Nat.lt_irrefl _ (heq ▸ h.known r hr)
      refine h.confidential r hr client ?_
      simpa [exec, Db.getClientById, hother] using hclient
  | updateClient clientId columns =>
    have hid : ∀ c : OAuth2Client, (if c.id = clientId then c.updated columns else c).id = c.id ∧
        (if c.id = clientId then c.updated columns else c).isPublic = c.isPublic := by
      intro c
      split
      · exact ⟨rfl, rfl⟩
      · exact ⟨rfl, rfl⟩
    refine ⟨fun client hclient => ?_, h.known, fun r hr client hclient => ?_⟩
    · obtain ⟨c, hc, rfl⟩ := List.mem_map.mp hclient
      rw [(hid c).1]
      exact h.clients c hc
    · have hfind : (s.db.getClientById r.params.clientId).map (fun c =>
          if c.id = clientId then c.updated columns else c) = some client := by
        rw [← hclient]
        simp only [exec, Db.getClientById, find?_map, Function.comp_def, (hid _).1]
      obtain ⟨c, hc, rfl⟩ := Option.map_eq_some_iff.mp hfind
      rw [(hid c).2]
      exact h.confidential r hr c hc
  | deleteClient =>
    refine ⟨fun client hclient => h.clients client (mem_of_mem_filter hclient), h.known, fun r hr client hclient => ?_⟩
    exact h.confidential r hr client (getClientById_of_delete hclient)
  | setRequirePushed => exact h.of_clients rfl (le_refl _) fun r hr => .inl hr
  | other request =>
    exact h.of_clients (request.clients s.toConsentStore) (request.nextId s.toConsentStore) fun r hr => .inl hr

theorem checked_exec (h : s.Sound) {step : AuthorizeStep} {session : Session} (hsession : step.session? = some session)
    {code : AuthorizationCode} (hcode : code ∈ (step.exec env sha256 s).db.authorizationCodes)
    (hnew : code ∉ s.db.authorizationCodes) :
    ∃ client, s.db.MayIssue session code.clientId code.redirectUri code.userId client ∧ ¬ client.isPublic ∧
      step.Consented env sha256 s code := by
  cases step with
  | authorize services session' query =>
    obtain rfl := Option.some.inj hsession
    change code ∈ (s.authorize env sha256 services session' query).2.db.authorizationCodes at hcode
    obtain ⟨before, hconsent, -, heq | ⟨client, resolved, params, -, -, -, heq⟩⟩ :=
      s.authorize_cases env sha256 services session' query
    · rw [heq, hconsent] at hcode
      exact absurd hcode hnew
    · have hpage := (before.handle_spec env sha256 session' client resolved query.isPushed params).1
      rw [heq] at hcode
      rw [hconsent] at hpage
      obtain ⟨client, hmay, ⟨hpublic, hcovered⟩, hclient, hscope⟩ := hpage.codes code hcode hnew
      rw [hmay.signedIn.userId_eq, ← hclient, ← hscope] at hcovered
      exact ⟨client, hmay, hpublic, hcovered⟩
  | authorizeGrant session' requestId action =>
    obtain rfl := Option.some.inj hsession
    change code ∈ (s.authorizeGrant env session' requestId action).db.authorizationCodes at hcode
    change ∃ client, _ ∧ _ ∧ action = "allow" ∧
      (s.authorizeGrant env session' requestId action).consentCovers code.clientId code.userId (parseScope code.scope)
    obtain heq | ⟨request, hrequest, heq⟩ := s.authorizeGrant_cases env session' requestId action
    · rw [heq] at hcode
      exact absurd hcode hnew
    · have hpage := s.toConsentStore.authorizeGrant_issuesChecked env session' request.params request.createdAt action
      rw [heq] at hcode ⊢
      obtain ⟨client, hmay, ⟨hallow, hcovers⟩, hclient, hscope⟩ := hpage.codes code hcode hnew
      -- the decision does not look at `is_public`: the page that stored the request did
      have hpublic := h.confidential request hrequest client (hclient ▸ hmay.found)
      refine ⟨client, hmay, hpublic, hallow, ?_⟩
      rw [hclient, hscope]
      exact hcovers code.userId hmay.signedIn.userId_eq
  | _ => cases hsession

/-- Whatever clients and other requests do, a code that an authorization request or a decision adds is for an active,
confidential application and one of its redirect URIs, for the signed-in user, who has access and whose consent covers
the scopes. -/
theorem codes_issued_when_checked (env : Env) (sha256 : Text → Text) (s : AuthorizeServer) (hstored : s.stored = [])
    (hclients : ∀ client ∈ s.db.oauth2Clients, client.id < s.db.nextId) (steps : List AuthorizeStep) :
    Along (exec env sha256) (fun s step => ∀ session, step.session? = some session →
      ∀ code ∈ (step.exec env sha256 s).db.authorizationCodes, code ∉ s.db.authorizationCodes →
        ∃ client, s.db.MayIssue session code.clientId code.redirectUri code.userId client ∧ ¬ client.isPublic ∧
          step.Consented env sha256 s code) s steps := by
  have hstart : s.Sound := ⟨hclients, by simp [hstored], by simp [hstored]⟩
  refine along_of_invariant (P := fun _ _ => True) (fun s step h _ => sound_exec h step)
    (fun s step h _ session hsession code hcode hnew => checked_exec h hsession hcode hnew) hstart
    fun _ _ _ _ => trivial

def authorizeTenant : AuthorizeServer where
  db := {
    nextId := 10
    users := [{ id := 2 }]
    oauth2Clients := [{ id := 5, redirectUris := ["cb"], oidcEnabled := true, availableToAll := true }] }

def authorizeScope : AuthorizeQuery where
  clientId := some 5
  redirectUri := some "cb".toList
  responseType := some "code".toList
  scope := some "openid".toList

def noServices : RequestServices where
  resolveRequestObject _ _ := .error ("invalid_request_object", "The request object is not valid.")
  verifyIdTokenHint _ _ := none
  subjectMatches _ _ _ := false

/-- The user allows the request on the consent page, and the next one is answered without the page. -/
theorem codes_issued_when_checked_twice :
    let session : Session := { userId := some 2, sid := some 1 }
    let steps : List AuthorizeStep := [.authorize noServices session authorizeScope,
      .authorizeGrant session 10 "allow", .authorize noServices session authorizeScope]
    (run (exec Env.ascii id) authorizeTenant steps).db.authorizationCodes.length = 2 ∧
    Along (exec Env.ascii id) (fun s step => ∀ session, step.session? = some session →
      ∀ code ∈ (step.exec Env.ascii id s).db.authorizationCodes, code ∉ s.db.authorizationCodes →
        ∃ client, s.db.MayIssue session code.clientId code.redirectUri code.userId client ∧ ¬ client.isPublic ∧
          step.Consented Env.ascii id s code) authorizeTenant steps :=
  ⟨by decide +kernel, codes_issued_when_checked Env.ascii id authorizeTenant rfl (by decide) _⟩

end AuthorizeStep

end WeftId
