import WeftId.Env

/-!
The token tables of the OAuth2 provider: access and refresh tokens, approved device requests and the
clients that received an ID token in a session.
-/

namespace WeftId

def parseScope (scope : Option Text) : List Text :=
  match scope with
  | none => []
  | some scope => Text.splitWords scope.length scope

namespace Db

variable {db db' : Db} {env : Env} {clientId userId : Id} {scope : Option Text} {grantId : Option Id}

def getClientById (db : Db) (clientId : Id) : Option OAuth2Client := db.oauth2Clients.find? (·.id = clientId)

theorem getClientById_of_clients (h : db'.oauth2Clients = db.oauth2Clients) :
    db'.getClientById clientId = db.getClientById clientId := by rw [getClientById, h, getClientById]

def deleteTokens (db : Db) (p : OAuth2Token → Bool) : Db :=
  { db with oauth2Tokens := db.oauth2Tokens.filter fun t =>
      ¬ (p t ∨ db.oauth2Tokens.any fun parent => t.parentTokenId = some parent.id ∧ p parent) }

/-- Device requests that the user approved and the device has not redeemed go with the tokens. -/
def revokeAllUserTokens (db : Db) (userId : Id) : Db :=
  { db.deleteTokens (·.userId = userId) with
    oauth2DeviceCodes := db.oauth2DeviceCodes.filter fun d => ¬ (d.userId = some userId ∧ d.status = .approved) }

def revokeAllClientTokens (db : Db) (clientId : Id) : Db := db.deleteTokens (·.clientId = clientId)

def revokeGrantTokens (db : Db) (grantId : Id) : Db := db.deleteTokens (·.grantId = some grantId)

def revokeSessionRefreshTokens (db : Db) (sid : Id) : Db :=
  db.deleteTokens fun t => t.tokenType = .refresh ∧ t.sid = some sid

def createRefreshToken (db : Db) (env : Env) (clientId userId : Id) (scope : Option Text) (grantId sid : Option Id) :
    Id × Db :=
  (db.nextId, { db with
    nextId := db.nextId + 1
    oauth2Tokens := db.oauth2Tokens ++ [{
      id := db.nextId
      tokenType := .refresh
      clientId, userId, scope, grantId, sid
      expiresAt := db.now + env.refreshTokenExpiry * 1000000 }] })

def createAccessToken (db : Db) (env : Env) (clientId userId : Id) (parentTokenId : Option Id)
    (isClientCredentials : Bool) (scope : Option Text) (grantId : Option Id) : Except DbError (Unit × Db) :=
  if ∃ parent, parentTokenId = some parent ∧ ¬ db.oauth2Tokens.any (·.id = parent) then
    .error (.foreignKeyViolation "oauth2_tokens_parent_token_id_fkey")
  else .ok ((), { db with
    nextId := db.nextId + 1
    oauth2Tokens := db.oauth2Tokens ++ [{
      id := db.nextId
      tokenType := .access
      clientId, userId, parentTokenId, scope, grantId
      expiresAt := db.now +
        (if isClientCredentials then env.clientCredentialsTokenExpiry else env.accessTokenExpiry) * 1000000 }] })

def consumeUserSessionClients (db : Db) (userId : Id) : Db :=
  { db with oidcSessionClients := db.oidcSessionClients.filter (·.userId ≠ userId) }

def consumeSessionClients (db : Db) (sid : Id) : Db :=
  { db with oidcSessionClients := db.oidcSessionClients.filter (·.sid ≠ sid) }

def upsertSessionClient (db : Db) (sid clientId userId : Id) : Db :=
  { db with oidcSessionClients :=
      KeyedRows.store (fun r => (r.sid, r.clientId)) ⟨sid, clientId, userId⟩ db.oidcSessionClients }

theorem mem_deleteTokens {p : OAuth2Token → Bool} {t : OAuth2Token}
    (h : t ∈ (db.deleteTokens p).oauth2Tokens) : t ∈ db.oauth2Tokens ∧ p t = false := by
  obtain ⟨hmem, hp⟩ := List.mem_filter.mp h
  simp only [not_or, Bool.not_eq_true, decide_eq_true_eq] at hp
  exact ⟨hmem, hp.1⟩

theorem createAccessToken_eq_ok {parentTokenId : Option Id}
    {isClientCredentials : Bool}
    (h : db.createAccessToken env clientId userId parentTokenId isClientCredentials scope grantId = .ok ((), db')) :
    (∀ parent ∈ parentTokenId, ∃ t ∈ db.oauth2Tokens, t.id = parent) ∧ db' = { db with
      nextId := db.nextId + 1
      oauth2Tokens := db.oauth2Tokens ++ [{
        id := db.nextId
        tokenType := .access
        clientId, userId, parentTokenId, scope, grantId
        expiresAt := db.now +
          (if isClientCredentials then env.clientCredentialsTokenExpiry else env.accessTokenExpiry) * 1000000 }] } := by
  unfold createAccessToken at h
  split at h
  · cases h
  · rename_i hparent
    refine ⟨fun parent hsome => ?_, (Except.ok_snd h).symm⟩
    by_contra hnone
    exact hparent ⟨parent, hsome, by simpa using hnone⟩

theorem createAccessToken_of_parent
    {parent : Id} (h : ∃ t ∈ db.oauth2Tokens, t.id = parent) :
    ∃ db', db.createAccessToken env clientId userId (some parent) false scope grantId = .ok ((), db') := by
  refine ⟨_, if_neg ?_⟩
  rintro ⟨p, hp, hnone⟩
  obtain rfl : parent = p := Option.some.inj hp
  obtain ⟨t, ht, hid⟩ := h
  exact hnone (List.any_eq_true.mpr ⟨t, ht, decide_eq_true hid⟩)

end Db

end WeftId
