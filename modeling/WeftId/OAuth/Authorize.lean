import WeftId.Auth.Session
import WeftId.OAuth.Clients

/-!
How a signed-in user authorizes a client: an authorization code for a redirect, or the approval of a device
request.  Both ask for an active user and, at clients with OIDC enabled, for access.
-/

namespace WeftId

open Proc

/-- An authorization request once its parameters are verified; `reauthenticate` is set when the prompt, the
maximum age or the token hint asks for a new sign-in. -/
structure AuthorizeParams where
  clientId : Id
  redirectUri : Text
  codeChallenge : Option Text := none
  codeChallengeMethod : Option Text := none
  scope : Option Text := none
  promptNone : Bool := false
  promptConsent : Bool := false
  reauthenticate : Bool := false

inductive AuthorizeAnswer
  | errorPage (title message : String)
  /-- An error response to the client. -/
  | error (error description : String)
  | login
  | reauthenticate
  | consentPage
  | code (code : Text)

namespace Db

def cleanupExpiredCodes (db : Db) : Db :=
  { db with authorizationCodes := db.authorizationCodes.filter (db.now < ·.expiresAt) }

def createAuthorizationCode (db : Db) (env : Env) (params : AuthorizeParams) (userId : Id) (sid : Option Id) :
    Text × Db :=
  let code := env.opaqueToken db.nextId
  (code, { db.cleanupExpiredCodes with
    nextId := db.nextId + 1
    authorizationCodes := db.cleanupExpiredCodes.authorizationCodes ++ [{
      id := db.nextId
      code
      clientId := params.clientId
      userId
      redirectUri := params.redirectUri
      codeChallenge := params.codeChallenge
      codeChallengeMethod := params.codeChallengeMethod
      expiresAt := db.now + env.authorizationCodeExpiry * 1000000
      scope := params.scope
      sid }] })

def mayUse (db : Db) (client : OAuth2Client) (userId : Id) : Bool :=
  ¬ client.oidcEnabled ∨ db.userCanAccessClient userId client.id

def cleanupExpiredDeviceCodes (db : Db) : Db :=
  { db with oauth2DeviceCodes := db.oauth2DeviceCodes.filter (db.now < ·.expiresAt + 3600 * 1000000) }

def createDeviceCode (db : Db) (env : Env) (clientId : Id) (scope : Option Text) : Option Db :=
  let draws := (List.range 5).map fun k => env.userCode (db.nextId + k)
  (draws.find? fun userCode => ¬ db.oauth2DeviceCodes.any (·.userCode = userCode)).map fun userCode =>
    { db with
      nextId := db.nextId + 5
      oauth2DeviceCodes := db.oauth2DeviceCodes ++ [{
        id := db.nextId
        clientId
        deviceCode := env.opaqueToken db.nextId
        userCode
        scope
        expiresAt := db.now + 600 * 1000000 }] }

def getPendingByUserCode (db : Db) (userCode : Text) : Option DeviceCode :=
  db.oauth2DeviceCodes.find? fun d => d.userCode = userCode ∧ d.status = .pending ∧ db.now < d.expiresAt

def decideDeviceCode (db : Db) (requestId : Id) (approved : Bool) (userId : Id) : Bool × Db :=
  let undecided := fun d : DeviceCode => d.id = requestId ∧ d.status = .pending ∧ db.now < d.expiresAt
  let decided := fun d : DeviceCode =>
    if undecided d then { d with status := if approved then .approved else .denied, userId := some userId } else d
  if db.oauth2DeviceCodes.any (undecided ·) then
    (true, { db with oauth2DeviceCodes := db.oauth2DeviceCodes.map decided })
  else (false, db)

end Db

def OAuth2Client.canUseDeviceGrant (client : OAuth2Client) : Bool :=
  client.clientType = .normal ∧ client.isActive ∧ client.deviceGrantEnabled

variable (env : Env)

def issueCode (params : AuthorizeParams) (user : User) (session : Session) : Service (AuthorizeAnswer × Session) := do
  let session ← ensureSessionId session
  let code ← tx fun db => .ok (db.createAuthorizationCode env params user.id session.sid)
  pure (.code code, session)

/-- The authorization endpoint; `covered` says that a remembered consent covers the requested scopes. -/
def handleAuthorizeRequest (session : Session) (params : AuthorizeParams) (covered : Bool) :
    Service (AuthorizeAnswer × Session) := do
  let (user, session) ← getCurrentUser session
  let client ← read (·.getClientById params.clientId)
  match client with
  | none => pure (.errorPage "Invalid client_id" "The client_id provided is not registered.", session)
  | some client =>
    if client.clientType ≠ .normal ∨ client.isPublic ∨ ¬ client.isActive then
      pure (.errorPage "Unauthorized client" "This client is not authorized for this flow.", session)
    else if params.redirectUri ∉ client.redirectUris then
      pure (.errorPage "Invalid redirect_uri" "The redirect_uri does not match registered URIs.", session)
    else
      match user with
      | none => pure (if params.promptNone then .error "login_required" "The user is not authenticated."
          else .login, session)
      | some user => do
        let mayUse ← read (·.mayUse client user.id)
        if params.reauthenticate then
          pure (if params.promptNone then .error "login_required" "The user must authenticate again."
            else .reauthenticate, session)
        else if ¬ mayUse then
          pure (if params.promptNone then .error "access_denied" "The user does not have access."
            else .errorPage "Access denied"
              "You do not have access to this application. Contact your administrator to request access.", session)
        else if params.promptNone ∧ ¬ covered then
          pure (.error "consent_required" "The user has not consented to this client and scope.", session)
        else if covered ∧ ¬ params.promptConsent then issueCode env params user session
        else pure (.consentPage, session)

def authorizeGrant (session : Session) (stored : AuthorizeParams) (createdAt : Nat) (action : String) :
    Service (AuthorizeAnswer × Session) := do
  let (user, session) ← getCurrentUser session
  let expired ← read fun db => decide (db.time - createdAt > 600)
  let client ← read (·.getClientById stored.clientId)
  match user with
  | none => pure (.login, session)
  | some user =>
    if expired then pure (.errorPage "Request expired" "Authorization request has expired. Please start over.", session)
    else
      match client with
      | none => pure (.error "unauthorized_client" "This client is not authorized.", session)
      | some client =>
        if client.clientType ≠ .normal ∨ ¬ client.isActive then
          pure (.error "unauthorized_client" "This client is not authorized.", session)
        else if stored.redirectUri ∉ client.redirectUris then
          pure (.errorPage "Invalid redirect_uri" "The redirect_uri does not match registered URIs.", session)
        else if action = "deny" then pure (.error "access_denied" "The user denied the request.", session)
        else if action = "allow" then do
          let mayUse ← read (·.mayUse client user.id)
          if ¬ mayUse then pure (.error "access_denied" "The user does not have access.", session)
          else issueCode env stored user session
        else pure (.error "invalid_request" "The action must be allow or deny.", session)

def startDeviceAuthorization (clientId : Id) (scope : Option Text) : Service Unit := do
  let client ← authenticateClient clientId
  require client.canUseDeviceGrant
    (.forbidden "Client is not authorized for the device authorization grant" "unauthorized_client")
  write (·.cleanupExpiredDeviceCodes)
  let created ← orRaise (·.createDeviceCode env clientId scope) (.exception "RuntimeError")
  write fun _ => created

structure DeviceVerification where
  id : Id
  userCode : Text
  userId : Id
  createdAt : Nat

def Db.findPendingRequest (db : Db) (userCode : Text) : Option (DeviceCode × OAuth2Client) := do
  let request ← db.getPendingByUserCode userCode
  let client ← db.getClientById request.clientId
  if client.canUseDeviceGrant then some (request, client) else none

inductive DeviceOutcome
  | login
  | expired
  | denied
  | noAccess
  | approved

def deviceDecision (session : Session) (stash : DeviceVerification) (action : String) : Service DeviceOutcome := do
  let (user, _) ← getCurrentUser session
  let stale ← read fun db => decide (db.time - stash.createdAt > 600)
  let pending ← read (·.findPendingRequest stash.userCode)
  match user with
  | none => pure .login
  | some user =>
    if stash.userId ≠ user.id ∨ stale then pure .expired
    else
      match pending with
      | none => pure .expired
      | some (request, client) =>
        if request.id ≠ stash.id then pure .expired
        else if action = "deny" then do
          let decided ← tx fun db => .ok (db.decideDeviceCode request.id false user.id)
          pure (if decided then .denied else .expired)
        else if action ≠ "allow" then pure .expired
        else do
          let mayUse ← read (·.mayUse client user.id)
          if ¬ mayUse then pure .noAccess
          else do
            let decided ← tx fun db => .ok (db.decideDeviceCode request.id true user.id)
            pure (if decided then .approved else .expired)

/-- What an authorization page can do: draw identifiers, or issue a code to the user of the session. -/
inductive Answering (db : Db) (session : Session) (params : AuthorizeParams) (P : OAuth2Client → Prop) :
    Except Error (AuthorizeAnswer × Session) → Db → Prop
  | kept {r : Except Error (AuthorizeAnswer × Session)} (hr : ∀ code after, r ≠ .ok (.code code, after)) {nextId : Id}
    (hle : db.nextId ≤ nextId) : Answering db session params P r { db with nextId }
  | issued {user : User} {after kept : Session} {client : OAuth2Client} {nextId : Id} {code : Text}
    (huser : (getCurrentUser session db).1 = .ok (some user, after))
    (hclient : db.getClientById params.clientId = some client) (hnormal : client.clientType = .normal)
    (hactive : client.isActive) (hredirect : params.redirectUri ∈ client.redirectUris)
    (hmay : db.mayUse client user.id) (hP : P client) (hle : db.nextId ≤ nextId) :
    Answering db session params P (.ok (.code code, kept))
      (Db.createAuthorizationCode { db with nextId } env params user.id kept.sid).2

section Cases

variable {env} {session : Session} {db : Db} {params : AuthorizeParams}

theorem ensures_getCurrentUser_bind {α : Type} {f : Option User × Session → Service α} {Q : Except Error α → Db → Prop}
    (h : ∀ user after nextId, db.nextId ≤ nextId → (getCurrentUser session db).1 = .ok (user, after) →
      (f (user, after)).Ensures { db with nextId } Q) : (getCurrentUser session >>= f).Ensures db Q := by
  obtain ⟨user, after, nextId, happly, hle, -⟩ := getCurrentUser_apply
  have hf := h user after nextId hle (by rw [happly])
  unfold Ensures
  rwa [bind_apply_of_ok happly]

theorem ensures_issueCode {user : User} {after : Session} {nextId : Id}
    {Q : Except Error (AuthorizeAnswer × Session) → Db → Prop} (h : ∀ kept code nextId', nextId ≤ nextId' →
      Q (.ok (.code code, kept))
        (Db.createAuthorizationCode { db with nextId := nextId' } env params user.id kept.sid).2) :
    (issueCode env params user after).Ensures { db with nextId } Q := by
  obtain ⟨kept, nextId', hensure, hle, -⟩ := ensureSessionId_apply
  unfold issueCode Ensures
  rw [bind_apply_of_ok hensure]
  exact h kept _ nextId' hle

theorem handleAuthorizeRequest_cases {covered : Bool} : (handleAuthorizeRequest env session params covered).Ensures db
      (Answering env db session params fun client => ¬ client.isPublic ∧ covered) := by
  refine ensures_getCurrentUser_bind fun user after nextId hle huser => ?_
  refine .read ?_
  cases hclient : Db.getClientById { db with nextId } params.clientId with
  | none => exact .kept (by simp) hle
  | some client =>
    dsimp only
    split
    · exact .kept (by simp) hle
    rename_i htype
    split
    · exact .kept (by simp) hle
    rename_i hredirect
    cases user with
    | none => exact .kept (by intros; dsimp only [pure_apply]; split_ifs <;> simp) hle
    | some user =>
      refine .read ?_
      split
      · exact .kept (by intros; dsimp only [pure_apply]; split_ifs <;> simp) hle
      split
      · exact .kept (by intros; dsimp only [pure_apply]; split_ifs <;> simp) hle
      rename_i hmay
      split
      · exact .kept (by simp) hle
      split
      · rename_i hskip
        simp only [not_or, not_not] at htype
        exact ensures_issueCode fun kept code nextId' hle' => .issued huser hclient htype.1 htype.2.2
          (not_not.mp hredirect) (not_not.mp hmay) ⟨htype.2.1, hskip.1⟩ (hle.trans hle')
      · exact .kept (by simp) hle

theorem authorizeGrant_cases (session : Session) (stored : AuthorizeParams) (createdAt : Nat)
    (action : String) (db : Db) :
    (authorizeGrant env session stored createdAt action).Ensures db
      (Answering env db session stored fun _ => action = "allow") := by
  refine ensures_getCurrentUser_bind fun user after nextId hle huser => ?_
  refine .read (.read ?_)
  cases user with
  | none => exact .kept (by simp) hle
  | some user =>
    dsimp only
    split
    · exact .kept (by simp) hle
    cases hclient : Db.getClientById { db with nextId } stored.clientId with
    | none => exact .kept (by simp) hle
    | some client =>
      dsimp only
      split
      · exact .kept (by simp) hle
      rename_i htype
      split
      · exact .kept (by simp) hle
      rename_i hredirect
      split
      · exact .kept (by simp) hle
      split
      · rename_i hallow
        refine .read ?_
        split
        · exact .kept (by simp) hle
        rename_i hmay
        simp only [not_or, not_not] at htype
        exact ensures_issueCode fun kept code nextId' hle' => .issued huser hclient htype.1 htype.2
          (not_not.mp hredirect) (not_not.mp hmay) hallow (hle.trans hle')
      · exact .kept (by simp) hle

theorem deviceDecision_cases (session : Session) (stash : DeviceVerification) (action : String) (db : Db) :
    (deviceDecision session stash action).Ensures db fun _ db' => ∃ nextId, db' = { db with nextId } ∨
      ∃ user after requestId approved, (getCurrentUser session db).1 = .ok (some user, after) ∧
        db' = (Db.decideDeviceCode { db with nextId } requestId approved user.id).2 := by
  refine ensures_getCurrentUser_bind fun user after nextId hle huser => ?_
  refine .read (.read ⟨nextId, ?_⟩)
  cases user with
  | none => exact .inl rfl
  | some user =>
    dsimp only
    split
    · exact .inl rfl
    cases Db.findPendingRequest { db with nextId } stash.userCode with
    | none => exact .inl rfl
    | some found =>
      dsimp only
      split
      · exact .inl rfl
      split
      · exact .inr ⟨user, after, found.1.id, false, huser, rfl⟩
      split
      · exact .inl rfl
      rw [read_bind_apply]
      split
      · exact .inl rfl
      · exact .inr ⟨user, after, found.1.id, true, huser, rfl⟩

end Cases

end WeftId
