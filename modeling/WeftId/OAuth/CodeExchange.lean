import WeftId.Users.Password
import WeftId.Lib.Run

/-!
Concurrent token requests for authorization codes.  Each database statement of a request is one step:
the code is looked up, marked consumed, and the winner then creates the refresh token and the access
token in transactions of their own, while a request that finds the code already used deletes the tokens
of the grant.
-/

namespace WeftId

open List Run

structure TokenRequest where
  code : Text
  clientId : Id
  redirectUri : Text
  codeVerifier : Option Text := none

def verifyPkceChallenge (env : Env) (codeVerifier codeChallenge : Text) (method : Option Text) : Except Error Bool :=
  if method = some "plain".toList then .ok (codeVerifier = codeChallenge)
  else if method = some "S256".toList then
    if codeVerifier.all (·.toNat < 128) then .ok (env.pkceChallenge codeVerifier = codeChallenge)
    else .error (.exception "UnicodeEncodeError")
  else .ok false

/-- A check that raises ends the request like one that fails, before the code is consumed. -/
def AuthorizationCode.accepts (env : Env) (code : AuthorizationCode) (codeVerifier : Option Text) : Bool :=
  match code.codeChallenge, codeVerifier with
  | none, _ | some [], _ => true
  | some (_ :: _), none | some (_ :: _), some [] => false
  | some challenge, some verifier => verifyPkceChallenge env verifier challenge code.codeChallengeMethod = .ok true

namespace Db

def findCode (db : Db) (request : TokenRequest) : Option AuthorizationCode :=
  db.authorizationCodes.find? fun c => c.clientId = request.clientId ∧ c.redirectUri = request.redirectUri ∧
    c.code = request.code ∧ db.now < c.expiresAt

def consumeCode (db : Db) (codeId : Id) : Bool × Db :=
  if db.authorizationCodes.any fun c => c.id = codeId ∧ c.consumedAt = none then
    (true, { db with authorizationCodes := db.authorizationCodes.map fun c =>
      if c.id = codeId ∧ c.consumedAt = none then { c with consumedAt := some db.now } else c })
  else (false, db)

/-- An ID token is issued to OIDC clients that were granted `openid`. -/
def issuesIdToken (db : Db) (clientId : Id) (scope : Option Text) : Bool :=
  (db.getClientById clientId).any (·.oidcEnabled) ∧ "openid".toList ∈ parseScope scope

/-- The refresh token of a redeemed code; only with an ID token is it tied to the session. -/
def issueRefreshToken (db : Db) (env : Env) (code : AuthorizationCode) : Id × Db :=
  db.createRefreshToken env code.clientId code.userId code.scope (some code.id)
    (if db.issuesIdToken code.clientId code.scope then code.sid else none)

def issueAccessToken (db : Db) (env : Env) (code : AuthorizationCode) (parentTokenId : Id) :
    Except DbError (Unit × Db) :=
  db.createAccessToken env code.clientId code.userId (some parentTokenId) false code.scope (some code.id)

end Db

inductive Phase
  | received
  | validated (code : AuthorizationCode)
  | consumed (code : AuthorizationCode)
  | reused (code : AuthorizationCode)
  | refreshIssued (code : AuthorizationCode) (refreshTokenId : Id)
  | finished (granted : Bool)
  deriving DecidableEq

/-- The store and the token requests in flight; request `i` presents `requests i`. -/
structure Exchange where
  db : Db
  requests : Nat → TokenRequest
  phases : Nat → Phase := fun _ => .received

inductive ExchangeEvent
  | advance (request : Nat)
  | wait (micros : Nat)

namespace Exchange

variable (env : Env)

def statement (db : Db) (request : TokenRequest) : Phase → Phase × Db
  | .received =>
    match db.findCode request with
    | none => (.finished false, db)
    | some code => if code.accepts env request.codeVerifier then (.validated code, db) else (.finished false, db)
  | .validated code =>
    if code.consumedAt.isSome then (.reused code, db)
    else
      match db.consumeCode code.id with
      | (true, db) => (.consumed code, db)
      | (false, db) => (.reused code, db)
  | .consumed code =>
    let (refreshTokenId, db) := db.issueRefreshToken env code
    (.refreshIssued code refreshTokenId, db)
  | .reused code => (.finished false, db.revokeGrantTokens code.id)
  | .refreshIssued code refreshTokenId =>
    match db.issueAccessToken env code refreshTokenId with
    | .ok ((), db) => (.finished true, db)
    | .error _ => (.finished false, db)
  | .finished granted => (.finished granted, db)

def step (x : Exchange) : ExchangeEvent → Exchange
  | .advance i =>
    let (phase, db) := statement env x.db (x.requests i) (x.phases i)
    { x with db, phases := Function.update x.phases i phase }
  | .wait micros => { x with db := { x.db with now := x.db.now + micros } }

variable {env} {phase : Phase} {db : Db}

theorem statement_cases {env : Env} {request : TokenRequest} :
    (∃ phase' db', statement env db request phase = (phase', db') ∧ db'.oauth2Tokens = db.oauth2Tokens ∧
      db'.nextId = db.nextId ∧ (∀ code, phase ≠ .consumed code ∧ phase ≠ .reused code) ∧
      ∀ code tokenId, phase' ≠ .refreshIssued code tokenId) ∨ (∃ code, phase = .consumed code ∧
      statement env db request phase = (.refreshIssued code db.nextId, (db.issueRefreshToken env code).2)) ∨
    (∃ code tokenId db', phase = .refreshIssued code tokenId ∧ db.issueAccessToken env code tokenId = .ok ((), db') ∧
      statement env db request phase = (.finished true, db')) ∨ ∃ code, phase = .reused code ∧
      statement env db request phase = (.finished false, db.revokeGrantTokens code.id) := by
  cases phase with
  | received =>
    left
    rw [statement]
    cases db.findCode request with
    | none => exact ⟨_, _, rfl, rfl, rfl, by simp, by simp⟩
    | some code =>
      by_cases haccepts : code.accepts env request.codeVerifier = true
      · exact ⟨_, _, if_pos haccepts, rfl, rfl, by simp, by simp⟩
      · exact ⟨_, _, if_neg haccepts, rfl, rfl, by simp, by simp⟩
  | validated code =>
    left
    rw [statement]
    by_cases hconsumed : code.consumedAt.isSome = true
    · exact ⟨_, _, if_pos hconsumed, rfl, rfl, by simp, by simp⟩
    · rw [Db.consumeCode]
      split_ifs
      · exact ⟨_, _, rfl, rfl, rfl, by simp, by simp⟩
      · exact ⟨_, _, rfl, rfl, rfl, by simp, by simp⟩
  | consumed code => exact .inr (.inl ⟨code, rfl, rfl⟩)
  | reused code => exact .inr (.inr (.inr ⟨code, rfl, rfl⟩))
  | refreshIssued code tokenId =>
    cases haccess : db.issueAccessToken env code tokenId with
    | ok result => exact .inr (.inr (.inl ⟨code, tokenId, result.2, rfl, haccess, by rw [statement, haccess]⟩))
    | error e => exact .inl ⟨_, _, by rw [statement, haccess], rfl, rfl, by simp, by simp⟩
  | finished => exact .inl ⟨_, _, rfl, rfl, rfl, by simp, by simp⟩

/-- Token ids are below the counter, and the token id a request waits with names a token of its grant. -/
structure Tracked (x : Exchange) : Prop where
  id_lt : ∀ t ∈ x.db.oauth2Tokens, t.id < x.db.nextId
  issued_lt : ∀ i code tokenId, x.phases i = .refreshIssued code tokenId → tokenId < x.db.nextId
  issued_grant : ∀ i code tokenId, x.phases i = .refreshIssued code tokenId →
    ∀ t ∈ x.db.oauth2Tokens, t.id = tokenId → t.grantId = some code.id

def IssuesRefreshToken (grantId : Id) (x : Exchange) (event : ExchangeEvent) : Prop :=
  ∃ i code, event = .advance i ∧ x.phases i = .consumed code ∧ code.id = grantId

def RevokesGrant (grantId : Id) (x : Exchange) (event : ExchangeEvent) : Prop :=
  ∃ i code, event = .advance i ∧ x.phases i = .reused code ∧ code.id = grantId

/-- No token of the grant is stored, and no request is left that could still add one to a stored token. -/
structure Cleared (grantId : Id) (x : Exchange) : Prop where
  no_token : ∀ t ∈ x.db.oauth2Tokens, t.grantId ≠ some grantId
  no_parent : ∀ i code tokenId, x.phases i = .refreshIssued code tokenId → code.id = grantId →
    ∀ t ∈ x.db.oauth2Tokens, t.id ≠ tokenId

variable {x x' : Exchange} {grantId : Id} {event : ExchangeEvent} {code : AuthorizationCode}

theorem step_advance {i : Nat} (h : statement env x.db (x.requests i) (x.phases i) = (phase, db)) :
    x.step env (.advance i) = { x with db, phases := Function.update x.phases i phase } := by
  rw [step, h]

theorem refreshIssued_of_update {phases : Nat → Phase} {i j : Nat}
    {tokenId : Id} (h : Function.update phases i phase j = .refreshIssued code tokenId) :
    phase = .refreshIssued code tokenId ∨ phases j = .refreshIssued code tokenId := by
  by_cases hj : j = i
  · rw [hj, Function.update_self] at h
    exact .inl h
  · rw [Function.update_of_ne hj] at h
    exact .inr h

theorem issueAccessToken_eq_ok {db' : Db} {parentTokenId : Id}
    (h : db.issueAccessToken env code parentTokenId = .ok ((), db')) :
    (∃ t ∈ db.oauth2Tokens, t.id = parentTokenId) ∧ db'.nextId = db.nextId + 1 ∧ db'.now = db.now ∧
      ∃ t, db'.oauth2Tokens = db.oauth2Tokens ++ [t] ∧ t.id = db.nextId ∧ t.grantId = some code.id := by
  obtain ⟨hparent, rfl⟩ := Db.createAccessToken_eq_ok h
  exact ⟨hparent parentTokenId rfl, rfl, rfl, _, rfl, rfl, rfl⟩

theorem Tracked.of_step (h : x.Tracked) (hnext : x.db.nextId ≤ x'.db.nextId)
    (htokens : ∀ t ∈ x'.db.oauth2Tokens, t ∈ x.db.oauth2Tokens ∨ t.id = x.db.nextId ∧ x.db.nextId < x'.db.nextId)
    (hphases : ∀ i code tokenId, x'.phases i = .refreshIssued code tokenId →
      x.phases i = .refreshIssued code tokenId ∨ tokenId = x.db.nextId ∧ x.db.nextId < x'.db.nextId ∧
        ∀ t ∈ x'.db.oauth2Tokens, t.id = x.db.nextId → t.grantId = some code.id) : x'.Tracked := by
  refine ⟨fun t ht => ?_, fun i code tokenId hi => ?_, fun i code tokenId hi t ht htid => ?_⟩
  · rcases htokens t ht with hold | ⟨hid, hlt⟩
    · exact lt_of_lt_of_le (h.id_lt t hold) hnext
    · rw [hid]
      exact hlt
  · rcases hphases i code tokenId hi with hold | ⟨rfl, hlt, -⟩
    · exact lt_of_lt_of_le (h.issued_lt i code tokenId hold) hnext
    · exact hlt
  · rcases hphases i code tokenId hi with hold | ⟨rfl, -, hgrant⟩
    · rcases htokens t ht with htold | ⟨hid, -⟩
      · exact h.issued_grant i code tokenId hold t htold htid
      · have hlt := h.issued_lt i code tokenId hold
        rw [← htid, hid] at hlt
        exact absurd hlt (lt_irrefl _)
    · exact hgrant t ht htid

theorem Tracked.step (h : x.Tracked) (event : ExchangeEvent) : (x.step env event).Tracked := by
  cases event with
  | wait micros => exact ⟨h.id_lt, h.issued_lt, h.issued_grant⟩
  | advance i =>
    have hkept : ∀ {phase : Phase} {j code tokenId}, (∀ code tokenId, phase ≠ .refreshIssued code tokenId) →
        Function.update x.phases i phase j = .refreshIssued code tokenId → x.phases j = .refreshIssued code tokenId :=
      fun hne hj => (refreshIssued_of_update hj).resolve_left (hne _ _)
    rcases statement_cases with
      ⟨phase, db, hst, htokens, hnext, -, hne⟩ | ⟨code, -, hst⟩ | ⟨code, tokenId, db, -, haccess, hst⟩ | ⟨code, -, hst⟩
    · rw [step_advance hst]
      refine h.of_step (le_of_eq hnext.symm) (fun t ht => .inl ?_) fun j code tokenId hj => .inl (hkept hne hj)
      rw [← htokens]
      exact ht
    · rw [step_advance hst]
      have hlt : x.db.nextId < (x.db.issueRefreshToken env code).2.nextId := Nat.lt_succ_self _
      refine h.of_step (le_of_lt hlt) (fun t ht => ?_) fun j code' tokenId hj => ?_
      · rcases mem_concat_iff.mp ht with ht | rfl
        · exact .inl ht
        · exact .inr ⟨rfl, hlt⟩
      · rcases refreshIssued_of_update hj with hnew | hold
        · obtain ⟨rfl, rfl⟩ := Phase.refreshIssued.inj hnew
          refine .inr ⟨rfl, hlt, fun t ht htid => ?_⟩
          rcases mem_append.mp ht with ht | ht
          · have hold := h.id_lt t ht
            rw [htid] at hold
            exact absurd hold (lt_irrefl _)
          · rw [mem_singleton.mp ht]
        · exact .inl hold
    · rw [step_advance hst]
      obtain ⟨-, hnext, -, t, htokens, htid, -⟩ := issueAccessToken_eq_ok haccess
      have hlt : x.db.nextId < db.nextId := by
        rw [hnext]
        exact Nat.lt_succ_self _
      refine h.of_step (le_of_lt hlt) (fun t' ht' => ?_) fun j code tokenId hj => .inl (hkept (by simp) hj)
      rw [htokens] at ht'
      rcases mem_concat_iff.mp ht' with hold | rfl
      · exact .inl hold
      · exact .inr ⟨htid, hlt⟩
    · rw [step_advance hst]
      refine h.of_step (le_refl _) (fun t ht => .inl (Db.mem_deleteTokens ht).1) fun j code tokenId hj => .inl ?_
      exact hkept (by simp) hj

theorem Cleared.of_step (h : Cleared grantId x) (htokens : ∀ t ∈ x'.db.oauth2Tokens, t ∈ x.db.oauth2Tokens ∨
      t.grantId ≠ some grantId ∧ ∀ i code tokenId, x'.phases i = .refreshIssued code tokenId → code.id = grantId →
        t.id ≠ tokenId) (hphases : ∀ i code tokenId, x'.phases i = .refreshIssued code tokenId → code.id = grantId →
      x.phases i = .refreshIssued code tokenId) : Cleared grantId x' := by
  refine ⟨fun t ht => ?_, fun i code tokenId hi hcode t ht => ?_⟩
  · rcases htokens t ht with hold | ⟨hgrant, -⟩
    · exact h.no_token t hold
    · exact hgrant
  · rcases htokens t ht with hold | ⟨-, hid⟩
    · exact h.no_parent i code tokenId (hphases i code tokenId hi hcode) hcode t hold
    · exact hid i code tokenId hi hcode

theorem Cleared.step (htracked : x.Tracked) (h : Cleared grantId x)
    (hevent : ¬ IssuesRefreshToken grantId x event) : Cleared grantId (x.step env event) := by
  cases event with
  | wait micros => exact ⟨h.no_token, h.no_parent⟩
  | advance i =>
    have hlt : ∀ {j code tokenId}, x.phases j = .refreshIssued code tokenId → x.db.nextId ≠ tokenId :=
      fun hj hid => lt_irrefl _ (hid ▸ htracked.issued_lt _ _ _ hj)
    rcases statement_cases with
      ⟨phase, db, hst, htokens, -, -, hne⟩ | ⟨code, hphase, hst⟩ | ⟨code, tokenId, db, hphase, haccess, hst⟩ |
        ⟨code, -, hst⟩
    · rw [step_advance hst]
      refine h.of_step (fun t ht => .inl ?_) fun j code tokenId hj _ =>
        (refreshIssued_of_update hj).resolve_left (hne code tokenId)
      rw [← htokens]
      exact ht
    · have hcode : code.id ≠ grantId := fun hid => hevent ⟨i, code, rfl, hphase, hid⟩
      rw [step_advance hst]
      have hold : ∀ j code' tokenId, Function.update x.phases i (.refreshIssued code x.db.nextId) j =
          .refreshIssued code' tokenId → code'.id = grantId → x.phases j = .refreshIssued code' tokenId := by
        intro j code' tokenId hj hid
        rcases refreshIssued_of_update hj with hnew | hold
        · obtain ⟨rfl, -⟩ := Phase.refreshIssued.inj hnew
          exact absurd hid hcode
        · exact hold
      refine h.of_step (fun t ht => ?_) hold
      rcases mem_concat_iff.mp ht with ht | rfl
      · exact .inl ht
      · exact .inr ⟨fun hgrant => hcode (Option.some.inj hgrant), fun j code' tokenId hj hid =>
          hlt (hold j code' tokenId hj hid)⟩
    · obtain ⟨⟨parent, hparent, hid⟩, -, -, t, htokens, htid, hgrant⟩ := issueAccessToken_eq_ok haccess
      have hcode : code.id ≠ grantId := fun hcode => h.no_parent i code tokenId hphase hcode parent hparent hid
      rw [step_advance hst]
      have hold : ∀ j code' tokenId', Function.update x.phases i (.finished true) j = .refreshIssued code' tokenId' →
          code'.id = grantId → x.phases j = .refreshIssued code' tokenId' := fun j code' tokenId' hj _ =>
        (refreshIssued_of_update hj).resolve_left (by simp)
      refine h.of_step (fun t' ht' => ?_) hold
      rw [htokens] at ht'
      rcases mem_concat_iff.mp ht' with ht' | rfl
      · exact .inl ht'
      · rw [hgrant, htid]
        exact .inr ⟨fun hgrant => hcode (Option.some.inj hgrant), fun j code' tokenId' hj hid =>
          hlt (hold j code' tokenId' hj hid)⟩
    · rw [step_advance hst]
      refine h.of_step (fun t ht => .inl (Db.mem_deleteTokens ht).1) fun j code tokenId hj _ => ?_
      exact (refreshIssued_of_update hj).resolve_left (by simp)

theorem cleared_of_revokesGrant (h : x.Tracked) (hevent : RevokesGrant grantId x event) :
    Cleared grantId (x.step env event) := by
  obtain ⟨i, code, rfl, hphase, rfl⟩ := hevent
  have hst : statement env x.db (x.requests i) (x.phases i) = (.finished false, x.db.revokeGrantTokens code.id) := by
    rw [hphase]
    rfl
  have hkept : ∀ t ∈ (x.db.revokeGrantTokens code.id).oauth2Tokens,
      t ∈ x.db.oauth2Tokens ∧ t.grantId ≠ some code.id := by
    intro t ht
    obtain ⟨hmem, hgrant⟩ := Db.mem_deleteTokens ht
    exact ⟨hmem, of_decide_eq_false hgrant⟩
  rw [step_advance hst]
  refine ⟨fun t ht => (hkept t ht).2, fun j code' tokenId hj hcode t ht htid => ?_⟩
  have hold := (refreshIssued_of_update hj).resolve_left (by simp)
  have hgrant := h.issued_grant j code' tokenId hold t (hkept t ht).1 htid
  rw [hcode] at hgrant
  exact (hkept t ht).2 hgrant

def HasRefreshToken (grantId : Id) (x : Exchange) : Prop :=
  ∃ t ∈ x.db.oauth2Tokens, t.tokenType = .refresh ∧ t.grantId = some grantId ∧ t.parentTokenId = none

theorem hasRefreshToken_of_issues (hevent : IssuesRefreshToken grantId x event) :
    HasRefreshToken grantId (x.step env event) := by
  obtain ⟨i, code, rfl, hphase, rfl⟩ := hevent
  have hst : statement env x.db (x.requests i) (x.phases i) =
      (.refreshIssued code x.db.nextId, (x.db.issueRefreshToken env code).2) := by
    rw [hphase]
    rfl
  rw [step_advance hst]
  exact ⟨_, mem_append_right _ mem_cons_self, rfl, rfl, rfl⟩

theorem HasRefreshToken.step (h : HasRefreshToken grantId x)
    (hevent : ¬ RevokesGrant grantId x event) : HasRefreshToken grantId (x.step env event) := by
  obtain ⟨t, ht, htype, hgrant, hparent⟩ := h
  cases event with
  | wait micros => exact ⟨t, ht, htype, hgrant, hparent⟩
  | advance i =>
    rcases statement_cases with
      ⟨phase, db, hst, htokens, -⟩ | ⟨code, -, hst⟩ | ⟨code, tokenId, db, -, haccess, hst⟩ | ⟨code, hphase, hst⟩
    · rw [step_advance hst]
      exact ⟨t, by rw [htokens]; exact ht, htype, hgrant, hparent⟩
    · rw [step_advance hst]
      exact ⟨t, mem_append_left _ ht, htype, hgrant, hparent⟩
    · obtain ⟨-, -, -, t', htokens, -⟩ := issueAccessToken_eq_ok haccess
      rw [step_advance hst]
      exact ⟨t, by rw [htokens]; exact mem_append_left _ ht, htype, hgrant, hparent⟩
    · have hcode : ¬ grantId = code.id := fun hid => hevent ⟨i, code, rfl, hphase, hid.symm⟩
      rw [step_advance hst]
      refine ⟨t, mem_filter.mpr ⟨ht, ?_⟩, htype, hgrant, hparent⟩
      simp [hgrant, hparent, hcode]

def Live (grantId : Id) (x : Exchange) : Prop :=
  ∃ t ∈ x.db.oauth2Tokens, t.grantId = some grantId ∧ x.db.now < t.expiresAt

def Settled (x : Exchange) : Prop := ∀ i, x.phases i = .received ∨ ∃ granted, x.phases i = .finished granted

/-- For any interleaving of any token requests: a grant is not live at the end if every refresh token
created for it is followed by a revocation of a request that found the code used; otherwise a refresh
token of the grant is left. -/
theorem grant_revoked_of_followedBy (env : Env) (db : Db) (requests : Nat → TokenRequest) (grantId : Id)
    (hids : ∀ t ∈ db.oauth2Tokens, t.id < db.nextId) (hnone : ∀ t ∈ db.oauth2Tokens, t.grantId ≠ some grantId)
    (events : List ExchangeEvent) :
    (FollowedBy (step env) (IssuesRefreshToken grantId) (RevokesGrant grantId) { db, requests } events →
      ¬ Live grantId (run (step env) { db, requests } events)) ∧
    (¬ FollowedBy (step env) (IssuesRefreshToken grantId) (RevokesGrant grantId) { db, requests } events →
      HasRefreshToken grantId (run (step env) { db, requests } events)) := by
  constructor
  · intro hfollowed
    have htracked : Tracked { db, requests } := ⟨hids, by simp, by simp⟩
    have hcleared : Cleared grantId { db, requests } := ⟨hnone, by simp⟩
    have hend := restored_of_followedBy (I := Tracked) (fun x event h => h.step event)
      (fun x event h hc hissue => hc.step h hissue) (fun x event h hrevoke => cleared_of_revokesGrant h hrevoke)
      htracked (.inl hcleared) hfollowed
    rintro ⟨t, ht, hgrant, -⟩
    exact hend.no_token t ht hgrant
  · intro hopen
    simp only [FollowedBy, not_forall] at hopen
    obtain ⟨before, event, after, rfl, hissue, hmeets⟩ := hopen
    rw [not_meets_iff] at hmeets
    rw [← singleton_append, ← append_assoc, run_append]
    refine invariant_of_along (fun x event h hrevoke => h.step hrevoke) ?_ hmeets
    rw [run_append]
    exact hasRefreshToken_of_issues hissue

def issuedCode : Db where
  nextId := 10
  users := [{ id := 2 }]
  authorizationCodes := [{
    id := 7, code := "code", clientId := 1, userId := 2, redirectUri := "https://app"
    expiresAt := 600000000 }]

def presentCode : Nat → TokenRequest := fun _ =>
  { code := "code", clientId := 1, redirectUri := "https://app" }

/-- Request 1 revokes after request 0 consumed the code and before request 0 creates its tokens. -/
def revokeFirst : List ExchangeEvent :=
  [.advance 0, .advance 1, .advance 0, .advance 1, .advance 1, .advance 0, .advance 0]

/-- The code was presented twice and both requests are over, yet the grant is live. -/
theorem reused_code_leaves_grant_live :
    let x := run (step Env.ascii) { db := issuedCode, requests := presentCode } revokeFirst
    Settled x ∧ x.phases 0 = .finished true ∧ x.phases 1 = .finished false ∧ Live 7 x := by
  intro x
  refine ⟨?_, by decide, by decide, ?_⟩
  · intro i
    match i with
    | 0 => exact .inr ⟨true, by decide⟩
    | 1 => exact .inr ⟨false, by decide⟩
    | i + 2 => exact .inl rfl
  · exact ⟨_, mem_cons_self, rfl, by decide⟩

/-- When request 1 presents the code after request 0 got its tokens, the grant is revoked. -/
theorem late_reuse_revokes_grant : ¬ Live 7 (run (step Env.ascii) { db := issuedCode, requests := presentCode }
      ([.advance 0, .advance 0, .advance 0, .advance 0, .advance 1, .advance 1] ++ [.advance 1])) := by
  refine (grant_revoked_of_followedBy Env.ascii issuedCode presentCode 7 (by decide) (by decide) _).1 ?_
  refine followedBy_of_last ⟨1, _, rfl, rfl, rfl⟩ ?_
  rintro ⟨i, code, hi, hphase, -⟩
  obtain rfl := ExchangeEvent.advance.inj hi
  cases hphase

end Exchange

end WeftId
