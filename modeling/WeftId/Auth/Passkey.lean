import WeftId.Auth.Mfa
import WeftId.Lib.Contest

/-!
Signing in with a passkey.  The challenge of a ceremony lives in the browser's cookie, so the server cannot
tell a replayed cookie from a current one.  What stands against a second use of an assertion is the sign
count: it is read with the credential, checked by the passkey library and written back by a later statement.
-/

namespace WeftId

open List Proc Run

namespace Db

def listCredentials (db : Db) (userId : Id) : List WebauthnCredential :=
  (db.webauthnCredentials.filter (·.userId = userId)).reverse

def updateAuthState (db : Db) (id userId : Id) (signCount : Nat) (backupState : Bool) : Db :=
  { db with webauthnCredentials := db.webauthnCredentials.map fun c =>
      if c.id = id ∧ c.userId = userId then { c with signCount, backupState } else c }

def deleteCredential (db : Db) (id userId : Id) : Db :=
  { db with webauthnCredentials := db.webauthnCredentials.filter fun c => ¬ (c.id = id ∧ c.userId = userId) }

end Db

variable (env : Env)

def resolveEligibleUser (db : Db) (email : Text) : Option User := do
  let user ← db.getUserByEmailWithStatus env (env.lower email)
  if user.samlIdpId.isSome ∨ user.isInactivated ∨ db.countCredentials user.id = 0 then none else some user

def beginAuthentication (session : Session) (email : Text) : Service (Option (List (String × Text) × Session)) := do
  let user ← read (resolveEligibleUser env · (env.lower (Text.strip email)))
  match user with
  | none => pure none
  | some user => do
    let credentials ← read (·.listCredentials user.id)
    if credentials = [] then pure none
    else do
      let challenge ← draw env.authenticationChallenge
      let time ← read (·.time)
      pure (some (("challenge", challenge) :: credentials.map fun c => ("allow", c.credentialId), { session with
        webauthnLoginChallenge := some challenge
        webauthnLoginChallengeAt := some time
        pendingPasskeyUserId := some user.id }))

def Session.clearLoginSession (session : Session) : Session :=
  { session with webauthnLoginChallenge := none, webauthnLoginChallengeAt := none, pendingPasskeyUserId := none }

structure AuthenticationPayload where
  /-- The credential that signed, unless what the browser sent is not base64url. -/
  rawId : Option Text
  response : Text

/-- How far a `complete_authentication` request has come. -/
inductive PasskeyStage
  | received
  | verified (credentialUuid userId : Id) (verified : VerifiedAuthentication)
  | regressed (credentialUuid userId : Id)
  | counted (userId : Id)
  | eligible (userId : Id)
  | refused (error : Error)
  | signedIn
  deriving DecidableEq

/-- A request with the session its browser sees: what it presents, and what it gets back in the end. -/
structure PasskeyRequest where
  session : Session
  stage : PasskeyStage := .received

namespace PasskeyRequest

def refuse (request : PasskeyRequest) (message code : String) : PasskeyRequest :=
  { session := request.session.clearLoginSession, stage := .refused (.validation message code) }

def verify (db : Db) (payload : AuthenticationPayload) (request : PasskeyRequest) : PasskeyRequest :=
  match request.session.pendingPasskeyUserId, request.session.webauthnLoginChallenge,
    request.session.webauthnLoginChallengeAt with
  | none, _, _ | _, none, _ | _, some [], _ | _, _, none | _, _, some 0 =>
    request.refuse "No passkey sign-in in progress" "no_challenge"
  | some pendingUserId, some challenge, some challengeAt =>
    if 300 < db.time - challengeAt then
      request.refuse "Passkey sign-in expired. Please start over." "expired_challenge"
    else
      match payload.rawId with
      | none => request.refuse "Unknown credential" "unknown_credential"
      | some rawId =>
        match (db.listCredentials pendingUserId).find? (·.credentialId = rawId) with
        | none => request.refuse "Unknown credential" "unknown_credential"
        | some stored =>
          -- a synced credential may keep its count at zero, so the check is waived for it
          let effectiveCurrent := if stored.backupEligible then 0 else stored.signCount
          match env.verifyAuthentication payload.response challenge stored.publicKey effectiveCurrent with
          | .error .signCountRegression =>
            { session := request.session.clearLoginSession, stage := .regressed stored.id pendingUserId }
          | .error .invalid => request.refuse "Passkey sign-in failed" "bad_signature"
          | .ok verified => { request with stage := .verified stored.id pendingUserId verified }

def act (payload : AuthenticationPayload) (db : Db) (request : PasskeyRequest) : Db × PasskeyRequest :=
  match request.stage with
  | .received => (db, request.verify env db payload)
  | .regressed credentialUuid userId =>
    (db.deleteCredential credentialUuid userId, request.refuse "Passkey sign-in failed" "clone_suspected")
  | .verified credentialUuid userId verified =>
    (db.updateAuthState credentialUuid userId verified.newSignCount verified.credentialBackedUp,
      { request with stage := .counted userId })
  | .counted userId =>
    match db.getUserById userId with
    | none => (db, request.refuse "Passkey sign-in failed" "eligibility_revoked")
    | some user =>
      if user.isInactivated ∨ user.samlIdpId.isSome then
        (db, request.refuse "Passkey sign-in failed" "eligibility_revoked")
      else (db, { request with stage := .eligible userId })
  | .eligible userId =>
    match completeAuthenticatedLogin request.session.clearLoginSession userId [] [] db with
    | (.ok (_, session), db) => (db, { session, stage := .signedIn })
    | (.error e, db) => (db, { request with stage := .refused e })
  | .refused _ | .signedIn => (db, request)

def Checks (request : PasskeyRequest) : Prop := request.stage = .received
  deriving Decidable

def Holding (request : PasskeyRequest) : Prop :=
  match request.stage with
  | .verified _ _ _ => True
  | _ => False

def Past (request : PasskeyRequest) : Prop :=
  match request.stage with
  | .verified _ _ _ | .counted _ | .eligible _ | .signedIn => True
  | _ => False

def SignedIn (request : PasskeyRequest) : Prop := request.stage = .signedIn
  deriving Decidable

instance (request : PasskeyRequest) : Decidable request.Holding := by
  unfold Holding
  split <;> infer_instance

end PasskeyRequest

/-- The passkey library returns the count of the assertion, and accepts it only above the count it is given
or when both are zero. -/
def Env.ChecksSignCount : Prop :=
  ∀ response challenge publicKey current verified,
    env.verifyAuthentication response challenge publicKey current = .ok verified →
      verified.newSignCount = env.assertionSignCount response ∧
        (current < env.assertionSignCount response ∨ current = 0 ∧ env.assertionSignCount response = 0)

namespace AuthenticationPayload

variable (payload : AuthenticationPayload)

/-- The assertion counts up and its credential is not a synced one. -/
def Counts (db : Db) (_ : PasskeyRequest) : Prop :=
  env.assertionSignCount payload.response ≠ 0 ∧
    ∀ c ∈ db.webauthnCredentials, some c.credentialId = payload.rawId → c.backupEligible = false
  deriving Decidable

def Spent (db : Db) : Prop :=
  ∀ c ∈ db.webauthnCredentials, some c.credentialId = payload.rawId →
    env.assertionSignCount payload.response ≤ c.signCount

/-- What a request may rely on: credential ids are unique, and the row it has verified is the only one of
the credential. -/
structure Relies (db : Db) (request : PasskeyRequest) : Prop where
  unique : (db.webauthnCredentials.map (·.credentialId)).Nodup
  verified : ∀ id userId v, request.stage = .verified id userId v →
    v.newSignCount = env.assertionSignCount payload.response ∧
      ∀ c ∈ db.webauthnCredentials, some c.credentialId = payload.rawId → c.id = id ∧ c.userId = userId

variable {env payload} {db : Db} {request other : PasskeyRequest} {v : VerifiedAuthentication}

theorem act_credentials (db : Db) (request : PasskeyRequest) :
    (request.act env payload db).1.webauthnCredentials = db.webauthnCredentials ∨
    (∃ id userId v, request.stage = .verified id userId v ∧
      (request.act env payload db).1 = db.updateAuthState id userId v.newSignCount v.credentialBackedUp) ∨
    ∃ id userId, (request.act env payload db).1 = db.deleteCredential id userId := by
  unfold PasskeyRequest.act
  cases hstage : request.stage with
  | received => exact .inl rfl
  | verified id userId v => exact .inr (.inl ⟨id, userId, v, rfl, rfl⟩)
  | regressed id userId => exact .inr (.inr ⟨id, userId, rfl⟩)
  | counted userId =>
    left
    dsimp only
    split
    · rfl
    · split_ifs
      · rfl
      · rfl
  | _ => exact .inl rfl

theorem row_before (h : payload.Relies env db request) {c : WebauthnCredential}
    (hc : c ∈ (request.act env payload db).1.webauthnCredentials) :
    ∃ d ∈ db.webauthnCredentials, d.credentialId = c.credentialId ∧ d.id = c.id ∧ d.userId = c.userId ∧
      (d.signCount = c.signCount ∨ c.signCount = env.assertionSignCount payload.response) := by
  rcases act_credentials db request with heq | ⟨id, userId, v, hstage, heq⟩ | ⟨id, userId, heq⟩
  · rw [heq] at hc
    exact ⟨c, hc, rfl, rfl, rfl, .inl rfl⟩
  · rw [heq] at hc
    obtain ⟨d, hd, rfl⟩ := mem_map.mp hc
    refine ⟨d, hd, ?_⟩
    by_cases hrow : d.id = id ∧ d.userId = userId
    · rw [if_pos hrow]
      exact ⟨rfl, rfl, rfl, .inr (h.verified id userId v hstage).1⟩
    · rw [if_neg hrow]
      exact ⟨rfl, rfl, rfl, .inl rfl⟩
  · rw [heq] at hc
    exact ⟨c, mem_of_mem_filter hc, rfl, rfl, rfl, .inl rfl⟩

theorem unique_act (h : (db.webauthnCredentials.map (·.credentialId)).Nodup) :
    ((request.act env payload db).1.webauthnCredentials.map (·.credentialId)).Nodup := by
  rcases @act_credentials env payload db request with heq | ⟨id, userId, v, -, heq⟩ | ⟨id, userId, heq⟩
  · rwa [heq]
  · have hids : (db.updateAuthState id userId v.newSignCount v.credentialBackedUp).webauthnCredentials.map
        (·.credentialId) = db.webauthnCredentials.map (·.credentialId) := by
      unfold Db.updateAuthState
      rw [map_map]
      refine map_congr_left fun c _ => ?_
      dsimp only [Function.comp_apply]
      split_ifs
      · rfl
      · rfl
    rwa [heq, hids]
  · rw [heq]
    exact h.sublist (filter_sublist.map _)

theorem Relies.act_other (h : payload.Relies env db request) (ho : payload.Relies env db other) :
    payload.Relies env (request.act env payload db).1 other := by
  refine ⟨unique_act h.unique, fun id userId v hstage => ?_⟩
  obtain ⟨hcount, hrow⟩ := ho.verified id userId v hstage
  refine ⟨hcount, fun c hc hraw => ?_⟩
  obtain ⟨d, hd, hcred, hid, huser, -⟩ := row_before h hc
  rw [← hid, ← huser]
  exact hrow d hd (by rw [hcred, hraw])

theorem verify_verified {id userId : Id} (h : (request.verify env db payload).stage = .verified id userId v) :
    ∃ stored ∈ db.webauthnCredentials, some stored.credentialId = payload.rawId ∧ stored.id = id ∧
      stored.userId = userId ∧ ∃ challenge, env.verifyAuthentication payload.response challenge stored.publicKey
        (if stored.backupEligible then 0 else stored.signCount) = .ok v := by
  unfold PasskeyRequest.verify at h
  split at h
  any_goals cases h
  rename_i pendingUserId challenge challengeAt _ _ _ _ _
  split_ifs at h
  · cases h
  cases hraw : payload.rawId with
  | none =>
    rw [hraw] at h
    cases h
  | some rawId =>
    simp only [hraw] at h
    cases hfind : (db.listCredentials pendingUserId).find? (·.credentialId = rawId) with
    | none =>
      rw [hfind] at h
      cases h
    | some stored =>
      simp only [hfind] at h
      have hmem : stored ∈ db.webauthnCredentials ∧ stored.userId = pendingUserId := by
        simpa [Db.listCredentials] using mem_of_find?_eq_some hfind
      have hcred : stored.credentialId = rawId := by simpa using find?_some hfind
      split at h
      · cases h
      · cases h
      · rename_i hverified
        cases h
        exact ⟨stored, hmem.1, by rw [hcred], rfl, hmem.2, challenge, hverified⟩

theorem verify_stage : ¬ (request.verify env db payload).Past ∨
      ∃ id userId v, (request.verify env db payload).stage = .verified id userId v := by
  unfold PasskeyRequest.verify
  split
  any_goals exact .inl id
  split_ifs
  · exact .inl id
  split
  · exact .inl id
  · split
    · exact .inl id
    · dsimp only
      split
      · exact .inl id
      · exact .inl id
      · exact .inr ⟨_, _, _, rfl⟩

theorem act_past (h : request.Past) : (∃ error, (request.act env payload db).2.stage = .refused error) ∨
    (∃ userId, (request.act env payload db).2.stage = .counted userId ∧ request.Holding) ∨
    (∃ userId, (request.act env payload db).2.stage = .eligible userId) ∨
    (request.act env payload db).2.stage = .signedIn := by
  unfold PasskeyRequest.Past at h
  unfold PasskeyRequest.act
  cases hstage : request.stage with
  | verified id userId v => exact .inr (.inl ⟨userId, rfl, by simp [PasskeyRequest.Holding, hstage]⟩)
  | counted userId =>
    dsimp only
    split
    · exact .inl ⟨_, rfl⟩
    · split_ifs
      · exact .inl ⟨_, rfl⟩
      · exact .inr (.inr (.inl ⟨userId, rfl⟩))
  | eligible userId => exact .inr (.inr (.inr rfl))
  | signedIn => exact .inr (.inr (.inr hstage))
  | _ => simp [hstage] at h

theorem act_of_not_past (db : Db) (h : ¬ request.Past) (hpast : (request.act env payload db).2.Past) :
    request.Checks ∧ (request.act env payload db).2 = request.verify env db payload := by
  unfold PasskeyRequest.Past at h
  unfold PasskeyRequest.act at hpast ⊢
  cases hstage : request.stage with
  | received => exact ⟨hstage, rfl⟩
  | regressed => simp [hstage, PasskeyRequest.Past, PasskeyRequest.refuse] at hpast
  | refused error => simp [hstage, PasskeyRequest.Past] at hpast
  | _ => simp [hstage] at h

theorem holding_iff : request.Holding ↔ ∃ id userId v, request.stage = .verified id userId v := by
  unfold PasskeyRequest.Holding
  cases request.stage <;> simp

theorem past_of_holding (h : request.Holding) : request.Past := by
  obtain ⟨id, userId, v, hstage⟩ := holding_iff.mp h
  simp [PasskeyRequest.Past, hstage]

theorem not_holding_act (h : request.Past) : ¬ (request.act env payload db).2.Holding := by
  rw [holding_iff]
  rintro ⟨id, userId, v, hstage⟩
  rcases act_past h with ⟨error, h'⟩ | ⟨_, h', -⟩ | ⟨_, h'⟩ | h' <;>
  · rw [hstage] at h'
    cases h'

theorem not_spent_of_verified (hverifier : env.ChecksSignCount) (hcounts : payload.Counts env db request)
    {id userId : Id} (h : (request.verify env db payload).stage = .verified id userId v) : ¬ payload.Spent env db := by
  intro hspent
  obtain ⟨stored, hmem, hraw, -, -, challenge, hverified⟩ := verify_verified h
  have hcount := (hverifier _ _ _ _ _ hverified).2
  rw [hcounts.2 stored hmem hraw] at hcount
  have hle := hspent stored hmem hraw
  have hpos := hcounts.1
  simp only [Bool.false_eq_true, ↓reduceIte] at hcount
  omega

theorem spent_act (h : payload.Relies env db request) (hspent : payload.Spent env db) :
    payload.Spent env (request.act env payload db).1 := by
  intro c hc hraw
  obtain ⟨d, hd, hcred, -, -, hcount⟩ := row_before h hc
  rcases hcount with hcount | hcount
  · rw [← hcount]
    exact hspent d hd (by rw [hcred, hraw])
  · exact hcount.ge

theorem spent_of_holding (h : payload.Relies env db request) (hholding : request.Holding) :
    payload.Spent env (request.act env payload db).1 := by
  obtain ⟨id, userId, v, hstage⟩ := holding_iff.mp hholding
  obtain ⟨hcount, hrow⟩ := h.verified id userId v hstage
  have hact : (request.act env payload db).1 =
      db.updateAuthState id userId v.newSignCount v.credentialBackedUp := by
    simp only [PasskeyRequest.act, hstage]
  rw [hact]
  intro c hc hraw
  obtain ⟨d, hd, rfl⟩ := mem_map.mp hc
  -- the row that was verified is the only one of the credential, so it is the one written
  have hwritten : d.id = id ∧ d.userId = userId := by
    refine hrow d hd ?_
    rw [← hraw]
    split_ifs
    · rfl
    · rfl
  rw [if_pos hwritten]
  exact hcount.ge

theorem Relies.act (hverifier : env.ChecksSignCount) (h : payload.Relies env db request) :
    payload.Relies env (request.act env payload db).1 (request.act env payload db).2 := by
  refine ⟨unique_act h.unique, fun id userId v hstage => ?_⟩
  by_cases hpast : request.Past
  · exact absurd (holding_iff.mpr ⟨id, userId, v, hstage⟩) (not_holding_act hpast)
  · have hpast' := past_of_holding (holding_iff.mpr ⟨id, userId, v, hstage⟩)
    obtain ⟨hreceived, hverify⟩ := act_of_not_past db hpast hpast'
    rw [hverify] at hstage
    obtain ⟨stored, hmem, hraw, rfl, rfl, challenge, hverified⟩ := verify_verified hstage
    refine ⟨(hverifier _ _ _ _ _ hverified).1, fun c hc hraw' => ?_⟩
    have hdb : (request.act env payload db).1 = db := by
      rw [PasskeyRequest.Checks] at hreceived
      simp only [PasskeyRequest.act, hreceived]
    rw [hdb] at hc
    have hsame : c = stored :=
      inj_on_of_nodup_map h.unique hc hmem (Option.some.inj (hraw'.trans hraw.symm))
    rw [hsame]
    exact ⟨rfl, rfl⟩

theorem singleUse (hverifier : env.ChecksSignCount) (payload : AuthenticationPayload) :
    Contest.SingleUse (fun db request => PasskeyRequest.act env payload db request) Db.wait
      (payload.Relies env) (payload.Counts env) (fun _ => PasskeyRequest.Checks) PasskeyRequest.Past
      PasskeyRequest.Holding (payload.Spent env) where
  keeps _ _ h := h.act hverifier
  keeps_others _ _ _ h ho := h.act_other ho
  keeps_other _ _ _ h := ⟨h.unique, h.verified⟩
  check db request _ hpast hpast' := by
    obtain ⟨hreceived, hverify⟩ := act_of_not_past db hpast hpast'
    rw [hverify] at hpast' ⊢
    obtain ⟨id, userId, v, hstage⟩ := verify_stage.resolve_left (not_not_intro hpast')
    exact ⟨hreceived, holding_iff.mpr ⟨id, userId, v, hstage⟩,
      fun hcounts => not_spent_of_verified hverifier hcounts hstage⟩
  use _ _ h hholding _ _ := spent_of_holding h hholding
  stays _ _ h hspent := spent_act h hspent
  stays_other _ _ hspent := hspent

end AuthenticationPayload

namespace PasskeyRequest

open AuthenticationPayload

abbrev passkeyStep (payload : AuthenticationPayload) :
    Contest Db PasskeyRequest → ContestEvent Nat → Contest Db PasskeyRequest :=
  Contest.step (act env payload) Db.wait

/-- However the requests that present one assertion interleave, and whatever session cookies they come with,
at most one signs in, provided that each request that reads the credential finds it a counting one and reads
it while no other request stands between the check of the sign count and its update. -/
theorem assertion_signs_in_at_most_once {env : Env} (hverifier : env.ChecksSignCount) (payload : AuthenticationPayload)
    (x : Contest Db PasskeyRequest) (hunique : (x.store.webauthnCredentials.map (·.credentialId)).Nodup)
    (hstart : ∀ request ∈ x.stages, request.stage = .received) (events : List (ContestEvent Nat))
    (halone : Along (passkeyStep env payload) (Contest.ChecksAlone (payload.Counts env) (fun _ => Checks) Holding) x
      events) : AtMostOnce (passkeyStep env payload) (Contest.Enters (act env payload) SignedIn) x events := by
  have hnot : ∀ request ∈ x.stages, ¬ request.Past := by
    intro request hmem
    simp [Past, hstart request hmem]
  refine (singleUse hverifier payload).atMostOnce ?_ ?_ ?_ ?_ halone
  · intro request h
    simp only [Past, show request.stage = .signedIn from h]
  · intro db request h
    rw [SignedIn] at h ⊢
    simp [act, h]
  · intro db request _ h
    by_contra hpast
    have hpast' : (request.act env payload db).2.Past := by
      simp only [Past, show (request.act env payload db).2.stage = .signedIn from h]
    obtain ⟨-, hverify⟩ := act_of_not_past db hpast hpast'
    rw [hverify] at hpast' h
    obtain ⟨id, userId, v, hstage⟩ := verify_stage.resolve_left (not_not_intro hpast')
    rw [SignedIn, hstage] at h
    cases h
  · refine Contest.exclusive_of_start (fun request hmem => ⟨hunique, fun id userId v hstage => ?_⟩) hnot
    rw [hstart request hmem] at hstage
    cases hstage

def passkeyDb (backupEligible : Bool) : Db where
  now := 1000000
  nextId := 10
  users := [{ id := 1 }]
  userEmails := [{ id := 2, userId := 1, email := "ann@x.io", isPrimary := true, verifiedAt := some 0 }]
  webauthnCredentials := [{
    id := 3
    userId := 1
    credentialId := "cred"
    publicKey := "key"
    name := "phone"
    backupEligible }]

/-- The session that `beginAuthentication` leaves in the browser, and the assertion made for its challenge. -/
def ceremonySession : Session where
  webauthnLoginChallenge := some "10".toList
  webauthnLoginChallengeAt := some 1
  pendingPasskeyUserId := some 1

def ceremonyPayload : AuthenticationPayload where
  rawId := some "cred".toList
  response := "10key"

def twoRequests (backupEligible : Bool) : Contest Db PasskeyRequest where
  store := (beginAuthentication Env.ascii {} "ann@x.io").exec (passkeyDb backupEligible)
  stages := [{ session := ceremonySession }, { session := ceremonySession }]

theorem ascii_checksSignCount : Env.ascii.ChecksSignCount := by
  intro response challenge publicKey current verified h
  simp only [Env.ascii] at h ⊢
  split_ifs at h with hsigned hcount
  cases h
  refine ⟨rfl, ?_⟩
  omega

/-- A synced credential: the first request signs in, and the same cookie and assertion then sign in again.
A counting credential: both requests read the count before either writes it. -/
theorem assertion_signs_in_twice :
    (∀ synced, (beginAuthentication Env.ascii {} "ann@x.io" (passkeyDb synced)).1 =
      .ok (some ([("challenge", "10"), ("allow", "cred")], ceremonySession))) ∧
    ¬ AtMostOnce (passkeyStep Env.ascii ceremonyPayload) (Contest.Enters (act Env.ascii ceremonyPayload) SignedIn)
      (twoRequests true) ([0, 0, 0, 0, 1, 1, 1, 1].map .advance) ∧
    ¬ AtMostOnce (passkeyStep Env.ascii ceremonyPayload) (Contest.Enters (act Env.ascii ceremonyPayload) SignedIn)
      (twoRequests false) ([0, 1, 0, 1, 0, 1, 0, 1].map .advance) := by
  refine ⟨fun synced => by cases synced <;> rfl, fun h => ?_, fun h => ?_⟩
  · refine h ([0, 0, 0].map .advance) (.advance 0) ([1, 1, 1].map .advance) (.advance 1) [] rfl ?_ ?_
    · decide +kernel
    · decide +kernel
  · refine h ([0, 1, 0, 1, 0, 1].map .advance) (.advance 0) [] (.advance 1) [] rfl ?_ ?_
    · decide +kernel
    · decide +kernel

theorem counted_assertion_signs_in_once :
    AtMostOnce (passkeyStep Env.ascii ceremonyPayload) (Contest.Enters (act Env.ascii ceremonyPayload) SignedIn)
      (twoRequests false) ([0, 0, 0, 0, 1, 1].map .advance) :=
  assertion_signs_in_at_most_once ascii_checksSignCount ceremonyPayload (twoRequests false) (by decide +kernel)
    (by decide +kernel) _ (by decide +kernel)

end PasskeyRequest

end WeftId
