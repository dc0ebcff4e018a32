import WeftId.Db
import WeftId.Lib.Check
import WeftId.Lib.Run

/-!
Clients that authenticate with signed assertions.  An assertion is verified against the keys of the client it
names, and its `jti` is kept until it can no longer be verified, so that it is accepted only once.  Clock
readings are in microseconds.
-/

namespace WeftId

open Proc Run Check

namespace ClientAssertion

def leeway : Nat := 60 * 1000000

def maxAssertionLifetime : Nat := 3600 * 1000000

def maxJtiLength : Nat := 255

def signingAlgValuesSupported : List Text := ["RS256", "PS256", "ES256"].map String.toList

def algKeyType (alg : Text) : Option Text :=
  if alg = "RS256" ∨ alg = "PS256" then some "RSA"
  else if alg = "ES256" then some "EC"
  else none

inductive ClientAuthMethod
  | clientSecret
  | privateKeyJwt
  deriving DecidableEq

structure Jwk where
  kty : Text
  kid : Option Text := none
  use : Option Text := none
  alg : Option Text := none
  material : Text := []
  deriving DecidableEq

/-- The columns of a client that its authentication reads; `id` is the row, `clientId` what the client calls
itself. -/
structure KeyClient where
  id : Id
  clientId : Text
  isActive : Bool := true
  clientAuthMethod : ClientAuthMethod := .clientSecret
  tokenEndpointAuthSigningAlg : Option Text := none
  jwks : Option (List Jwk) := none
  jwksUri : Option Text := none
  deriving DecidableEq

structure JwtHeader where
  alg : Option Text := none
  kid : Option Text := none

/-- The claims of an assertion; a claim that is not a text is `none`. -/
structure JwtClaims where
  iss : Option Text := none
  sub : Option Text := none
  jti : Option Text := none
  exp : Nat

inductive JwtError
  | invalidSignature
  | other (name : String)

structure JwtLibrary where
  getUnverifiedHeader : Text → Option JwtHeader
  decodeUnverified : Text → Option JwtClaims
  /-- Whether a key can be built for an algorithm. -/
  buildsKey (key : Jwk) (alg : Text) : Bool
  decode (assertion : Text) (key : Jwk) (alg clientId : Text) (audiences : List Text) (now : Nat) :
    Except JwtError JwtClaims

/-- No assertion is verified once its `exp` is at least the leeway ago. -/
def JwtLibrary.RejectsExpired (lib : JwtLibrary) : Prop :=
  ∀ assertion key alg clientId audiences now claims,
    lib.decode assertion key alg clientId audiences now = .ok claims → now < claims.exp + leeway

inductive Rejected
  | notJwt
  | issAndSub
  | clientIdMismatch
  | notPrivateKeyJwt
  | deactivated
  | algNotAllowed
  | noKeys
  | fetch (reason : String)
  | invalid (name : String)
  | noKeyVerifies
  | jti
  | expTooFar
  | alreadyUsed
  deriving DecidableEq

/-- One presentation of an assertion at an endpoint: what the request carries, the clients as they stand, what
the key set published by the client yields without and with a refetch, and the readings of the clock when the
assertion is verified and when it is recorded. -/
structure Presentation where
  assertion : Text
  clientId : Option Text := none
  audiences : List Text := []
  clients : List KeyClient
  publishedKeys : Bool → Except String (Option (List Jwk)) := fun _ => .error "not published"
  verifiedAt : Nat
  recordedAt : Nat

/-- The keys of the client; `none` when a refetch has nothing new to try. -/
def clientJwks (p : Presentation) (client : KeyClient) (refresh : Bool) : Except Rejected (Option (List Jwk)) :=
  match client.jwks, client.jwksUri with
  | some keys, _ => .ok (if refresh then none else some keys)
  | none, none | none, some [] => .error .noKeys
  | none, some _ => (p.publishedKeys refresh).mapError .fetch

def candidateKeys (lib : JwtLibrary) (keys : List Jwk) (header : JwtHeader) (alg : Text) : List Jwk :=
  keys.filter fun key =>
    (header.kid = none ∨ key.kid = header.kid) ∧ some key.kty = algKeyType alg ∧
      (key.use = none ∨ key.use = some "sig".toList) ∧ (key.alg = none ∨ key.alg = some alg) ∧ lib.buildsKey key alg

/-- The first candidate that verifies the token; a key with another signature is passed over. -/
def firstVerified (decode : Jwk → Except JwtError JwtClaims) : List Jwk → Except Rejected (Option JwtClaims)
  | [] => .ok none
  | key :: keys =>
    match decode key with
    | .ok claims => .ok (some claims)
    | .error .invalidSignature => firstVerified decode keys
    | .error (.other name) => .error (.invalid name)

/-- The client may have rotated its keys, so they are fetched once more when none verifies the token. -/
def verifyWithKeys (lib : JwtLibrary) (p : Presentation) (client : KeyClient) (header : JwtHeader) (alg : Text)
    (decode : Jwk → Except JwtError JwtClaims) : Except Rejected JwtClaims := do
  let attempt := fun keys : Option (List Jwk) =>
    firstVerified decode (candidateKeys lib (keys.getD []) header alg)
  match ← attempt (← clientJwks p client false) with
  | some claims => pure claims
  | none =>
    match ← attempt (← clientJwks p client true) with
    | some claims => pure claims
    | none => .error .noKeyVerifies

def assertingClient (lib : JwtLibrary) (p : Presentation) : Except Rejected (KeyClient × JwtHeader) := do
  match lib.getUnverifiedHeader p.assertion, lib.decodeUnverified p.assertion with
  | some header, some unverified =>
    match unverified.iss with
    | none | some [] => .error .issAndSub
    | some iss =>
      ensure (unverified.sub = some iss) .issAndSub
      ensure (p.clientId = none ∨ p.clientId = some iss) .clientIdMismatch
      match p.clients.find? (·.clientId = iss) with
      | none => .error .notPrivateKeyJwt
      | some client =>
        ensure (client.clientAuthMethod = .privateKeyJwt) .notPrivateKeyJwt
        ensure client.isActive .deactivated
        pure (client, header)
  | _, _ => .error .notJwt

/-- Everything that is checked before the `jti` is recorded. -/
def verifyAssertion (lib : JwtLibrary) (p : Presentation) : Except Rejected (KeyClient × Text × Nat) := do
  let (client, header) ← assertingClient lib p
  let allowed := match client.tokenEndpointAuthSigningAlg with
    | none | some [] => signingAlgValuesSupported
    | some alg => [alg]
  match header.alg with
  | none => .error .algNotAllowed
  | some alg =>
    ensure (alg ∈ allowed) .algNotAllowed
    let claims ← verifyWithKeys lib p client header alg fun key =>
      lib.decode p.assertion key alg client.clientId p.audiences p.verifiedAt
    match claims.jti with
    | none | some [] => .error .jti
    | some jti =>
      ensure (jti.length ≤ maxJtiLength) .jti
      ensure (claims.exp ≤ p.verifiedAt + maxAssertionLifetime + leeway) .expTooFar
      pure (client, jti, claims.exp)

/-- A row of `oauth2_client_assertion_jtis`. -/
structure JtiRow where
  clientId : Id
  jti : Text
  expiresAt : Nat

def sweepExpired (rows : List JtiRow) (now : Nat) : List JtiRow := rows.filter fun row => ¬ row.expiresAt < now

/-- Whether the `jti` was new; expired rows are swept first. -/
def recordClientAssertionJti (now : Nat) (clientId : Id) (jti : Text) (expiresAt : Nat) (rows : List JtiRow) :
    Bool × List JtiRow :=
  let rows := sweepExpired rows now
  if rows.any fun row => row.clientId = clientId ∧ row.jti = jti then (false, rows)
  else (true, rows ++ [⟨clientId, jti, expiresAt⟩])

def checkAssertion (lib : JwtLibrary) (p : Presentation) : Proc (List JtiRow) Rejected KeyClient := do
  let (client, jti, exp) ← lookup fun _ => verifyAssertion lib p
  let fresh ← fun rows =>
    let (fresh, rows) := recordClientAssertionJti p.recordedAt client.id jti (exp + leeway) rows
    (.ok fresh, rows)
  require fresh .alreadyUsed
  pure client

inductive AssertionEvent
  | present (p : Presentation)
  | sweep (now : Nat)

def AssertionEvent.time : AssertionEvent → Nat
  | present p => p.recordedAt
  | sweep now => now

/-- The recorded rows of one tenant, with the presentations accepted so far, the last one first. -/
structure ReplayStore where
  rows : List JtiRow := []
  clock : Nat := 0
  accepted : List Presentation := []

def ReplayStore.step (lib : JwtLibrary) (s : ReplayStore) : AssertionEvent → ReplayStore
  | .sweep now => { s with rows := sweepExpired s.rows now, clock := now }
  | .present p =>
    let (result, rows) := checkAssertion lib p s.rows
    { rows
      clock := p.recordedAt
      accepted := match result with
        | .ok _ => p :: s.accepted
        | .error _ => s.accepted }

def Presentation.Names (lib : JwtLibrary) (p : Presentation) (clientId : Id) (jti : Text) (exp : Nat) : Prop :=
  ∃ client, verifyAssertion lib p = .ok (client, jti, exp) ∧ client.id = clientId

section Verification

variable {lib : JwtLibrary} {p : Presentation} {client : KeyClient} {jti : Text} {exp : Nat}
  {decode : Jwk → Except JwtError JwtClaims} {claims : JwtClaims}

theorem firstVerified_eq_some {keys : List Jwk}
    (h : firstVerified decode keys = .ok (some claims)) : ∃ key, decode key = .ok claims := by
  induction keys with
  | nil => simp [firstVerified] at h
  | cons key keys ih =>
    cases hkey : decode key with
    | ok found =>
      simp only [firstVerified, hkey, Except.ok.injEq, Option.some.injEq] at h
      exact ⟨key, by rw [hkey, h]⟩
    | error e =>
      cases e with
      | invalidSignature =>
        simp only [firstVerified, hkey] at h
        exact ih h
      | other name => simp [firstVerified, hkey] at h

theorem verifyWithKeys_eq_ok {header : JwtHeader} {alg : Text}
    (h : verifyWithKeys lib p client header alg decode = .ok claims) : ∃ key, decode key = .ok claims := by
  simp only [verifyWithKeys, bind_eq_ok] at h
  obtain ⟨keys, -, first, hfirst, h⟩ := h
  cases first with
  | some found =>
    obtain rfl : found = claims := by simpa using h
    exact firstVerified_eq_some hfirst
  | none =>
    simp only [bind_eq_ok] at h
    obtain ⟨keys, -, second, hsecond, h⟩ := h
    cases second with
    | some found =>
      obtain rfl : found = claims := by simpa using h
      exact firstVerified_eq_some hsecond
    | none => simp at h

theorem verifiedAt_lt (hlib : lib.RejectsExpired) (h : verifyAssertion lib p = .ok (client, jti, exp)) :
    p.verifiedAt < exp + leeway := by
  simp only [verifyAssertion, bind_eq_ok] at h
  obtain ⟨⟨client', header⟩, -, h⟩ := h
  cases halg : header.alg with
  | none => simp [halg] at h
  | some alg =>
    simp only [halg, bind_eq_ok] at h
    obtain ⟨_, -, claims, hclaims, h⟩ := h
    obtain ⟨key, hkey⟩ := verifyWithKeys_eq_ok hclaims
    have hlive := hlib _ _ _ _ _ _ _ hkey
    split at h
    · simp at h
    · simp at h
    · simp only [bind_eq_ok] at h
      obtain ⟨_, -, _, -, -, -, rfl⟩ := h
      exact hlive

theorem Presentation.Names.unique {clientId clientId' : Id} {jti' : Text} {exp' : Nat}
    (h : p.Names lib clientId jti exp) (h' : p.Names lib clientId' jti' exp') :
    clientId = clientId' ∧ jti = jti' ∧ exp = exp' := by
  obtain ⟨client, hverify, rfl⟩ := h
  obtain ⟨client', hverify', rfl⟩ := h'
  rw [hverify] at hverify'
  obtain ⟨rfl, rfl, rfl⟩ := hverify'
  simp

end Verification

section Runs

variable {lib : JwtLibrary} {s : ReplayStore} {p : Presentation} {event : AssertionEvent}

/-- From the clock on, every accepted assertion has its row until it can no longer be verified. -/
def ReplayStore.Remembers (lib : JwtLibrary) (s : ReplayStore) : Prop :=
  ∀ p ∈ s.accepted, ∀ clientId jti exp, p.Names lib clientId jti exp → s.clock ≤ exp + leeway →
    ∃ row ∈ s.rows, row.clientId = clientId ∧ row.jti = jti ∧ row.expiresAt = exp + leeway

/-- A presentation with the client and the identifier of an earlier one is accepted only when the earlier
assertion could no longer be verified. -/
def ReplayStore.AtMostOnce (lib : JwtLibrary) (s : ReplayStore) : Prop :=
  s.accepted.Pairwise fun later earlier => ∀ clientId jti exp exp',
    earlier.Names lib clientId jti exp → later.Names lib clientId jti exp' → exp + leeway < later.recordedAt

theorem checkAssertion_of_ok {client : KeyClient} {jti : Text} {exp : Nat}
    (h : verifyAssertion lib p = .ok (client, jti, exp)) (rows : List JtiRow) :
    let swept := sweepExpired rows p.recordedAt
    (∃ row ∈ swept, row.clientId = client.id ∧ row.jti = jti) ∧
        checkAssertion lib p rows = (.error .alreadyUsed, swept) ∨
      (∀ row ∈ swept, row.clientId = client.id → row.jti ≠ jti) ∧
        checkAssertion lib p rows = (.ok client, swept ++ [⟨client.id, jti, exp + leeway⟩]) := by
  intro swept
  by_cases hused : ∃ row ∈ swept, row.clientId = client.id ∧ row.jti = jti
  · simp [checkAssertion, lookup, Bind.bind, h, recordClientAssertionJti, swept, hused, require]
  · refine .inr ⟨fun row hrow hclient hjti => hused ⟨row, hrow, hclient, hjti⟩, ?_⟩
    simp [checkAssertion, lookup, Bind.bind, h, recordClientAssertionJti, swept, hused, require]

theorem step_of_error {reason : Rejected} (h : verifyAssertion lib p = .error reason) :
    s.step lib (.present p) = { s with clock := p.recordedAt } := by
  simp [ReplayStore.step, checkAssertion, lookup, Bind.bind, h]

theorem remembers_sweep (hs : s.Remembers lib) {now : Nat} (hclock : s.clock ≤ now) :
    ({ s with rows := sweepExpired s.rows now, clock := now } : ReplayStore).Remembers lib := by
  intro p hp clientId jti exp hnames hle
  obtain ⟨row, hrow, hclient, hjti, hexp⟩ := hs p hp clientId jti exp hnames (Nat.le_trans hclock hle)
  refine ⟨row, ?_, hclient, hjti, hexp⟩
  simpa [sweepExpired, hrow, hexp] using hle

theorem remembers_step (hs : s.Remembers lib) (hclock : s.clock ≤ event.time) : (s.step lib event).Remembers lib := by
  cases event with
  | sweep now => exact remembers_sweep hs hclock
  | present p =>
    have hswept := remembers_sweep hs hclock
    cases hverify : verifyAssertion lib p with
    | error reason =>
      rw [step_of_error hverify]
      intro q hq clientId jti exp hnames hle
      exact hs q hq clientId jti exp hnames (Nat.le_trans hclock hle)
    | ok found =>
      obtain ⟨client, jti, exp⟩ := found
      rcases checkAssertion_of_ok hverify s.rows with ⟨-, heq⟩ | ⟨-, heq⟩
      · simp only [ReplayStore.step, heq]
        exact hswept
      · simp only [ReplayStore.step, heq]
        intro q hq clientId' jti' exp' hnames hle
        rcases List.mem_cons.mp hq with rfl | hq
        · obtain ⟨rfl, rfl, rfl⟩ := Presentation.Names.unique ⟨client, hverify, rfl⟩ hnames
          exact ⟨⟨client.id, jti, exp + leeway⟩, by simp, rfl, rfl, rfl⟩
        · obtain ⟨row, hrow, hrest⟩ := hswept q hq clientId' jti' exp' hnames hle
          exact ⟨row, List.mem_append_left _ hrow, hrest⟩

theorem atMostOnce_step (hs : s.Remembers lib) (honce : s.AtMostOnce lib)
    (hclock : s.clock ≤ event.time) : (s.step lib event).AtMostOnce lib := by
  cases event with
  | sweep now => exact honce
  | present p =>
    cases hverify : verifyAssertion lib p with
    | error reason =>
      rw [step_of_error hverify]
      exact honce
    | ok found =>
      obtain ⟨client, jti, exp⟩ := found
      rcases checkAssertion_of_ok hverify s.rows with ⟨-, heq⟩ | ⟨hfree, heq⟩
      · simp only [ReplayStore.step, heq]
        exact honce
      · simp only [ReplayStore.step, heq]
        refine List.pairwise_cons.mpr ⟨fun q hq clientId jti' exp' exp'' hq' hp => ?_, honce⟩
        obtain ⟨rfl, rfl, rfl⟩ := Presentation.Names.unique ⟨client, hverify, rfl⟩ hp
        -- an identifier that is free was not accepted, or its assertion is over
        by_contra hlive
        have hle : p.recordedAt ≤ exp' + leeway := by omega
        obtain ⟨row, hrow, hclient, hjti, hexp⟩ := remembers_sweep hs hclock q hq client.id jti exp' hq' hle
        exact hfree row hrow hclient hjti

/-- In every sequence of presentations and sweeps at non-decreasing times, from any recorded rows: of two
accepted presentations with one client and one identifier, the later is recorded after the leeway of the
earlier.  Unless the clock moves on while it is checked, it presents another assertion, which expires later. -/
theorem accepted_assertions_expire_in_order (hlib : lib.RejectsExpired) (rows : List JtiRow) (l : List AssertionEvent)
    (horder : l.Pairwise fun a b => a.time ≤ b.time) :
    (run (ReplayStore.step lib) { rows } l).accepted.Pairwise fun later earlier => ∀ clientId jti exp exp',
      earlier.Names lib clientId jti exp → later.Names lib clientId jti exp' →
        exp + leeway < later.recordedAt ∧ (later.recordedAt = later.verifiedAt → exp < exp') := by
  have hclock : Along (ReplayStore.step lib) (fun s event => s.clock ≤ event.time) { rows } l :=
    along_of_sorted (fun s event => by cases event <;> rfl) horder fun event _ => Nat.zero_le _
  have hinv : (run (ReplayStore.step lib) { rows } l).Remembers lib ∧
      (run (ReplayStore.step lib) { rows } l).AtMostOnce lib := by
    apply invariant_of_along (I := fun s : ReplayStore => s.Remembers lib ∧ s.AtMostOnce lib)
    · intro s event hs htime
      exact ⟨remembers_step hs.1 htime, atMostOnce_step hs.1 hs.2 htime⟩
    · exact ⟨fun _ hmem => absurd hmem List.not_mem_nil, List.Pairwise.nil⟩
    · exact hclock
  apply hinv.2.imp
  intro later earlier honce clientId jti exp exp' hearlier hlater
  have hover := honce clientId jti exp exp' hearlier hlater
  refine ⟨hover, fun hinstant => ?_⟩
  obtain ⟨client, hverify, -⟩ := hlater
  have hlive := verifiedAt_lt hlib hverify
  omega

/-- A library for concrete runs: every assertion is signed by every key, carries one identifier and expires
when its text says. -/
def transparentLibrary : JwtLibrary where
  getUnverifiedHeader := fun _ => some { alg := some "RS256".toList }
  decodeUnverified := fun assertion => some (claimsOf assertion)
  buildsKey := fun _ _ => true
  decode := fun assertion _ _ _ _ now =>
    if now < (claimsOf assertion).exp + leeway then .ok (claimsOf assertion)
    else .error (.other "ExpiredSignatureError")
where
  claimsOf (assertion : Text) : JwtClaims :=
    { iss := some "app".toList, sub := some "app".toList, jti := some "j".toList, exp := assertion.length * 300000000 }

theorem transparentLibrary_rejectsExpired : transparentLibrary.RejectsExpired := by
  intro assertion key alg clientId audiences now claims h
  simp only [transparentLibrary] at h
  split at h
  · rename_i hlive
    obtain rfl := Except.ok.inj h
    exact hlive
  · cases h

def signingClient : KeyClient where
  id := 7
  clientId := "app"
  clientAuthMethod := .privateKeyJwt
  jwks := some [{ kty := "RSA" }]

def presentAt (assertion : Text) (now : Nat) : Presentation :=
  { assertion, clients := [signingClient], verifiedAt := now, recordedAt := now }

theorem verifyAssertion_first :
    verifyAssertion transparentLibrary (presentAt "a" 10000000) = .ok (signingClient, "j", 300000000) := by
  decide +kernel

theorem verifyAssertion_second : verifyAssertion transparentLibrary (presentAt "aa" 400000000) =
      .ok (signingClient, "j", 600000000) := by
  decide +kernel

/-- Once the first assertion and the leeway are over, another assertion with its identifier is accepted. -/
theorem identifier_accepted_again :
    let first := presentAt "a" 10000000
    let second := presentAt "aa" 400000000
    transparentLibrary.RejectsExpired ∧ first.recordedAt ≤ second.recordedAt ∧
      first.Names transparentLibrary 7 "j" 300000000 ∧ second.Names transparentLibrary 7 "j" 600000000 ∧
      (run (ReplayStore.step transparentLibrary) {} [.present first, .present second]).accepted = [second, first] := by
  intro first second
  refine ⟨transparentLibrary_rejectsExpired, by decide, ⟨signingClient, verifyAssertion_first, rfl⟩,
    ⟨signingClient, verifyAssertion_second, rfl⟩, ?_⟩
  have hstep : ReplayStore.step transparentLibrary {} (.present first) =
      { rows := [⟨7, "j", 300000000 + leeway⟩], clock := 10000000, accepted := [first] } := by
    rcases checkAssertion_of_ok verifyAssertion_first [] with ⟨⟨row, hrow, -⟩, -⟩ | ⟨-, heq⟩
    · simp [sweepExpired] at hrow
    · simp only [first]
      rfl
  rw [run_cons, run_cons, run_nil, hstep]
  rcases checkAssertion_of_ok verifyAssertion_second [⟨7, "j", 300000000 + leeway⟩]
    with ⟨⟨row, hrow, -⟩, -⟩ | ⟨-, heq⟩
  · simp [sweepExpired, presentAt, leeway] at hrow
  · simp only [ReplayStore.step, second, heq]

theorem accepted_assertions_expire_in_order_two :
    let first := presentAt "a" 10000000
    let second := presentAt "aa" 400000000
    (run (ReplayStore.step transparentLibrary) {} [.present first, .present second]).accepted.Pairwise
      fun later earlier => ∀ clientId jti exp exp',
        earlier.Names transparentLibrary clientId jti exp → later.Names transparentLibrary clientId jti exp' →
          exp + leeway < later.recordedAt ∧ (later.recordedAt = later.verifiedAt → exp < exp') :=
  accepted_assertions_expire_in_order transparentLibrary_rejectsExpired [] _ (by decide)

end Runs

end ClientAssertion
end WeftId
