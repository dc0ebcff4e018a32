import WeftId.Keys.Rotation

/-!
ID tokens and the keys published to verify them.  A token lives for an hour, a rotation keeps the old key for
at least an hour and is refused while one is still kept, and a cleanup drops only what is past its grace period.
-/

namespace WeftId

open List Run

def microsPerSecond : Nat := 1000000

def idTokenExpiry : Nat := microsPerHour

structure IdTokenRequest where
  issuer : Text
  clientId : Text
  userId : Text
  nonce : Option Text := none
  authTime : Option Nat := none
  sid : Option Text := none
  subject : Option Text := none

structure IdToken where
  kid : Text
  signedWith : Text
  iss : Text
  sub : Text
  aud : Text
  iat : Nat
  exp : Nat
  authTime : Nat
  nonce : Option Text
  sid : Option Text
  deriving DecidableEq

structure Jwk where
  kid : Text
  publicKeyPem : Text

namespace KeyStore

/-- `generate` makes the key that is provisioned if there is none. -/
def getOrProvision (s : KeyStore SigningKey) (generate : Nat → SigningKey) : KeyStore SigningKey × KeySlot SigningKey :=
  match s.row with
  | some row => (s, row)
  | none => ({ s with row := some { current := generate s.now } }, { current := generate s.now })

def issueIdToken (s : KeyStore SigningKey) (generate : Nat → SigningKey) (pause : Nat) (request : IdTokenRequest) :
    KeyStore SigningKey × IdToken :=
  let issuedAt := s.now / microsPerSecond
  let expiresAt := (s.now + idTokenExpiry) / microsPerSecond
  let (s, row) := (s.other (.wait pause)).getOrProvision generate
  (s, {
    kid := row.current.kid
    signedWith := row.current.privateKeyPemEnc
    iss := request.issuer
    sub := request.subject.getD request.userId
    aud := request.clientId
    iat := issuedAt
    exp := expiresAt
    authTime := (request.authTime.map (· / microsPerSecond)).getD issuedAt
    nonce := request.nonce.filter (· ≠ [])
    sid := request.sid.filter (· ≠ []) })

def publicJwk (key : SigningKey) : Jwk := { kid := key.kid, publicKeyPem := key.publicKeyPem }

def getJwks (s : KeyStore SigningKey) (generate : Nat → SigningKey) : KeyStore SigningKey × List Jwk :=
  let (s, row) := s.getOrProvision generate
  (s, publicJwk row.current ::
    match row.previous with
    | some previous =>
      if previous.publicKeyPem ≠ [] ∧ previous.kid ≠ [] ∧ row.InGrace s.now then [publicJwk previous] else []
    | none => [])

def cleanupSweep (s : KeyStore SigningKey) : KeyStore SigningKey :=
  if ∃ row ∈ s.row, ∃ e ∈ row.graceEndsAt, e < s.now then s.other .cleanup else s

def forceCleanupPreviousSigningKey (s : KeyStore SigningKey) (user : RequestingUser) : KeyStore SigningKey :=
  match superAdminRefusal user with
  | some _ => s
  | none => s.other .cleanup

variable {s : KeyStore SigningKey} {generate : Nat → SigningKey} {k : SigningKey} {e : Nat}
  {slot : KeySlot SigningKey}

theorem getOrProvision_row : (s.getOrProvision generate).1.row = some (s.getOrProvision generate).2 := by
  unfold getOrProvision
  split
  · assumption
  · rfl

theorem getOrProvision_now : (s.getOrProvision generate).1.now = s.now := by
  unfold getOrProvision
  split <;> rfl

theorem kid_mem_getJwks {row : KeySlot SigningKey} (hrow : s.row = some row) (h : k ∈ row.published s.now) :
    k.kid ∈ (s.getJwks generate).2.map (·.kid) := by
  simp only [getJwks, getOrProvision, hrow]
  rcases mem_cons.mp h with rfl | h
  · exact mem_cons_self
  · have hgrace : row.InGrace s.now := by
      by_contra hout
      simp [hout] at h
    rw [if_pos hgrace, Option.mem_toList] at h
    simp [Option.mem_def.mp h, k.publicKeyPem_ne_nil, k.kid_ne_nil, hgrace, publicJwk]

/-- A token signed with the key, and valid until `e`, has expired, or the key is the current one and the token
no older than it can be, or the key is kept for as long as the token lives. -/
def Verifies (s : KeyStore SigningKey) (k : SigningKey) (e : Nat) : Prop :=
  e ≤ s.now ∨ (s.Current k ∧ e ≤ s.now + idTokenExpiry) ∨ s.Retains k e

theorem now_le_other (s : KeyStore SigningKey) (event : KeyEvent SigningKey) : s.now ≤ (s.other event).now := by
  cases event with
  | wait micros => exact Nat.le_add_right _ _
  | provision key => cases hrow : s.row <;> simp [KeyStore.other, hrow]
  | cleanup => exact le_refl _

theorem Verifies.other (h : s.Verifies k e) (event : KeyEvent SigningKey) : (s.other event).Verifies k e := by
  have hle := s.now_le_other event
  rcases h with hover | ⟨hcurrent, hage⟩ | hretains
  · exact .inl (le_trans hover hle)
  · exact .inr (.inl ⟨hcurrent.other event, le_trans hage (Nat.add_le_add_right hle _)⟩)
  · exact .inr (.inr (hretains.other event))

theorem getOrProvision_eq_other (s : KeyStore SigningKey) (generate : Nat → SigningKey) :
    (s.getOrProvision generate).1 = s.other (.provision (generate s.now)) := by
  cases hrow : s.row <;> simp [getOrProvision, KeyStore.other, hrow]

theorem Verifies.kid_mem_getJwks (h : s.Verifies k e) (hlive : s.now < e) :
    k.kid ∈ (s.getJwks generate).2.map (·.kid) := by
  rcases h with hover | ⟨⟨row, hrow, hk⟩, -⟩ | ⟨row, hrow, hretains⟩
  · exact absurd hlive (not_lt.mpr hover)
  · exact KeyStore.kid_mem_getJwks hrow (hk ▸ mem_cons_self)
  · exact KeyStore.kid_mem_getJwks hrow (hretains.mem_published hlive)

theorem Verifies.rotate {new : SigningKey} {graceEndsAt : Nat} (h : s.Verifies k e)
    (hrow : s.row = some slot) (hout : ¬ slot.InGrace s.now) (hend : s.Current k → e ≤ graceEndsAt) :
    Verifies { s with row := some (slot.rotate slot.current new graceEndsAt) } k e := by
  rcases h with hover | ⟨hcurrent, -⟩ | ⟨slot', hrow', hretains⟩
  · exact .inl hover
  · obtain ⟨slot', hrow', hk⟩ := id hcurrent
    obtain rfl : slot' = slot := Option.some.inj (hrow'.symm.trans hrow)
    subst hk
    exact .inr (.inr ⟨_, rfl, KeySlot.retains_rotate (hend hcurrent)⟩)
  · obtain rfl : slot' = slot := Option.some.inj (hrow'.symm.trans hrow)
    exact .inl (hretains.of_not_inGrace hout)

theorem Verifies.le_of_not_inGrace (h : s.Verifies k e) (hrow : s.row = some slot)
    (hout : ¬ slot.InGrace s.now) : e ≤ s.now + idTokenExpiry := by
  rcases h with hover | ⟨-, hage⟩ | ⟨slot', hrow', hretains⟩
  · exact Nat.le_add_right_of_le hover
  · exact hage
  · obtain rfl : slot' = slot := Option.some.inj (hrow'.symm.trans hrow)
    exact Nat.le_add_right_of_le (hretains.of_not_inGrace hout)

theorem Verifies.of_row_none (h : s.Verifies k e) (hrow : s.row = none) : e ≤ s.now := by
  rcases h with hover | ⟨⟨slot, hslot, -⟩, -⟩ | ⟨slot, hslot, -⟩
  · exact hover
  · rw [hrow] at hslot
    cases hslot
  · rw [hrow] at hslot
    cases hslot

end KeyStore

namespace Rotation

variable {s s' : KeyStore SigningKey} {r r' : Rotation SigningKey} {k : SigningKey} {e : Nat}
  {rotator : Rotator SigningKey} {pauses : Nat → Nat}

/-- A rotation that looks at the grace period and grants an hour or more does not take the key away from a
token that still needs it. -/
structure Spares (k : SigningKey) (e : Nat) (s : KeyStore SigningKey) (r : Rotation SigningKey) : Prop where
  guarded : r.rotator.inProgress ≠ none
  grace : (idTokenExpiry : Int) ≤ r.rotator.grace
  relies : Relies s r
  verifies : s.Verifies k e
  covers : ∀ graceEndsAt, r.updateAt = some graceEndsAt → s.Current k → e ≤ graceEndsAt

theorem Spares.wait (h : Spares k e s r) (micros : Nat) : Spares k e (s.other (.wait micros)) r := by
  refine ⟨h.guarded, h.grace, ?_, h.verifies.other _, h.covers⟩
  by_cases hholding : Holding r
  · exact h.relies.other hholding _
  · exact relies_of_not_holding hholding

theorem Spares.acted (h : Spares k e s r) (hacted : Acted s r s' r') : Spares k e s' r' := by
  refine ⟨hacted.rotator_eq ▸ h.guarded, hacted.rotator_eq ▸ h.grace, hacted.relies_alone h.guarded h.relies, ?_, ?_⟩
  · rcases hacted.store_cases with rfl | ⟨hnone, key, rfl⟩ | ⟨row, graceEndsAt, slot, hstage, hslot, rfl⟩
    · exact h.verifies
    · exact .inl (h.verifies.of_row_none hnone)
    · have hrelies : Relies s r := h.relies
      simp only [Relies, hstage] at hrelies
      obtain ⟨slot', hslot', hcurrent, hout⟩ := hrelies
      obtain rfl : slot' = slot := Option.some.inj (hslot'.symm.trans hslot)
      rw [← hcurrent]
      exact h.verifies.rotate hslot hout (h.covers graceEndsAt (by simp [updateAt, hstage]))
  · intro graceEndsAt hupdate _
    obtain ⟨row, hstage, rfl, rfl⟩ := hacted.updateAt hupdate
    have hrelies : Relies s' r := h.relies
    simp only [Relies, hstage] at hrelies
    obtain ⟨slot, hslot, -, hout⟩ := hrelies
    have hage := h.verifies.le_of_not_inGrace hslot hout
    have hgrace := h.grace
    omega

theorem verifies_call (hguard : rotator.inProgress ≠ none)
    (hgrace : (idTokenExpiry : Int) ≤ rotator.grace) (h : s.Verifies k e) : (call rotator pauses s).1.Verifies k e := by
  have hstart : Spares k e s { rotator } := ⟨hguard, hgrace, trivial, h, fun _ hupdate => by cases hupdate⟩
  exact (call_invariant (fun _ _ _ h => h.wait _) (fun s r h => h.acted (Rotation.acted s r))
    hstart).verifies

theorem verifies_call_of_refusal {error : Error}
    (hrefusal : rotator.refusal = some error) (h : s.Verifies k e) : (call rotator pauses s).1.Verifies k e := by
  -- a refused rotation never comes to the row
  have hkeep : ∀ s r, (r.rotator.refusal = some error ∧ (r.stage = .received ∨ r.stage = .failed error) ∧
      KeyStore.Verifies s k e) → (act s r).2.rotator.refusal = some error ∧
      ((act s r).2.stage = .received ∨ (act s r).2.stage = .failed error) ∧ (act s r).1.Verifies k e := by
    rintro s r ⟨hrefusal, hstage | hstage, h⟩
    · simpa [act, hstage, hrefusal] using h
    · simpa [act, hstage, hrefusal] using h
  exact (call_invariant
    (fun _ _ _ h => ⟨h.1, h.2.1, h.2.2.other _⟩) hkeep ⟨hrefusal, .inl rfl, h⟩).2.2

end Rotation

theorem rotateSigningKey_grace {user : RequestingUser} {gracePeriodHours : Int} {first new : Nat → SigningKey} :
    (∃ error, (rotateSigningKey user gracePeriodHours first new).refusal = some error) ∨
      (idTokenExpiry : Int) ≤ (rotateSigningKey user gracePeriodHours first new).grace := by
  by_cases hbounds : 1 ≤ gracePeriodHours ∧ gracePeriodHours ≤ 720
  · right
    simp only [rotateSigningKey, idTokenExpiry, microsPerHour]
    omega
  · left
    simp only [rotateSigningKey, if_neg hbounds]
    split
    · exact ⟨_, rfl⟩
    · exact ⟨_, rfl⟩

structure IdTokenWorld where
  store : KeyStore SigningKey
  issued : List IdToken := []

inductive IdTokenEvent
  | issueIdToken (generate : Nat → SigningKey) (pause : Nat) (request : IdTokenRequest)
  | rotateSigningKey (user : RequestingUser) (gracePeriodHours : Int) (first new : Nat → SigningKey)
    (pauses : Nat → Nat)
  | forceCleanup (user : RequestingUser)
  | sweep
  | getJwks (generate : Nat → SigningKey)
  | wait (micros : Nat)

namespace IdTokenWorld

def step (w : IdTokenWorld) : IdTokenEvent → IdTokenWorld
  | .issueIdToken generate pause request =>
    let (store, token) := w.store.issueIdToken generate pause request
    { store, issued := token :: w.issued }
  | .rotateSigningKey user gracePeriodHours first new pauses =>
    { w with store := (Rotation.call (WeftId.rotateSigningKey user gracePeriodHours first new) pauses w.store).1 }
  | .forceCleanup user => { w with store := w.store.forceCleanupPreviousSigningKey user }
  | .sweep => { w with store := w.store.cleanupSweep }
  | .getJwks generate => { w with store := (w.store.getJwks generate).1 }
  | .wait micros => { w with store := w.store.other (.wait micros) }

def Verifiable (w : IdTokenWorld) : Prop :=
  ∀ token ∈ w.issued, ∃ k : SigningKey, k.kid = token.kid ∧ w.store.Verifies k (token.exp * microsPerSecond)

variable {w : IdTokenWorld}

theorem Verifiable.mono {store : KeyStore SigningKey} (h : w.Verifiable)
    (hstore : ∀ k e, w.store.Verifies k e → store.Verifies k e) : Verifiable { w with store } := by
  intro token htoken
  obtain ⟨k, hkid, hverifies⟩ := h token htoken
  exact ⟨k, hkid, hstore _ _ hverifies⟩

theorem verifies_issueIdToken {s : KeyStore SigningKey} {generate : Nat → SigningKey} {pause : Nat}
    {request : IdTokenRequest} : ∃ k : SigningKey, k.kid = (s.issueIdToken generate pause request).2.kid ∧
      (s.issueIdToken generate pause request).1.Verifies k
        ((s.issueIdToken generate pause request).2.exp * microsPerSecond) := by
  refine ⟨((s.other (.wait pause)).getOrProvision generate).2.current, rfl, .inr (.inl ⟨?_, ?_⟩)⟩
  · exact ⟨_, KeyStore.getOrProvision_row, rfl⟩
  · have hexp : (s.now + idTokenExpiry) / microsPerSecond * microsPerSecond ≤ s.now + idTokenExpiry :=
      Nat.div_mul_le_self _ _
    have hnow : ((s.other (.wait pause)).getOrProvision generate).1.now = s.now + pause :=
      KeyStore.getOrProvision_now
    simp only [KeyStore.issueIdToken]
    omega

theorem verifiable_step (h : w.Verifiable) {event : IdTokenEvent} : (w.step event).Verifiable := by
  cases event with
  | issueIdToken generate pause =>
    intro token htoken
    rcases mem_cons.mp htoken with rfl | htoken
    · exact verifies_issueIdToken
    · obtain ⟨k, hkid, hverifies⟩ := h token htoken
      refine ⟨k, hkid, ?_⟩
      have hstore := (hverifies.other (.wait pause)).other (.provision (generate (w.store.other (.wait pause)).now))
      rwa [← KeyStore.getOrProvision_eq_other] at hstore
  | rotateSigningKey =>
    refine h.mono fun k e hverifies => ?_
    rcases rotateSigningKey_grace with ⟨error, hrefusal⟩ | hgrace
    · exact Rotation.verifies_call_of_refusal hrefusal hverifies
    · exact Rotation.verifies_call (by simp [rotateSigningKey]) hgrace hverifies
  | forceCleanup user =>
    refine h.mono fun k e hverifies => ?_
    unfold KeyStore.forceCleanupPreviousSigningKey
    split
    · exact hverifies
    · exact hverifies.other _
  | sweep =>
    refine h.mono fun k e hverifies => ?_
    unfold KeyStore.cleanupSweep
    split_ifs
    · exact hverifies.other _
    · exact hverifies
  | getJwks generate =>
    refine h.mono fun k e hverifies => ?_
    have hstore := hverifies.other (.provision (generate w.store.now))
    rwa [← KeyStore.getOrProvision_eq_other] at hstore
  | wait micros => exact h.mono fun k e hverifies => hverifies.other _

/-- After any sequence of calls, a token that has not expired can be verified with a key of the key set. -/
theorem unexpired_id_token_kid_in_jwks (store : KeyStore SigningKey) (events : List IdTokenEvent) (token : IdToken)
    (generate : Nat → SigningKey) (hissued : token ∈ (run step { store } events).issued)
    (hlive : (run step { store } events).store.now < token.exp * microsPerSecond) :
    token.kid ∈ ((run step { store } events).store.getJwks generate).2.map (·.kid) := by
  have hstart : Verifiable { store } := fun _ htoken => by cases htoken
  have hrun : (run step { store } events).Verifiable := invariant (fun _ event h => verifiable_step h) hstart
  obtain ⟨k, hkid, hverifies⟩ := hrun token hissued
  rw [← hkid]
  exact hverifies.kid_mem_getJwks hlive

section Examples

open Rotation

def demoRequest : IdTokenRequest :=
  { issuer := "https://id.example", clientId := "app", userId := "7" }

/-- Half an hour before the rotation a token is issued, and half an hour after it the sweep comes by. -/
def demoEvents : List IdTokenEvent :=
  [.issueIdToken (fun _ => demoKey '0') 0 demoRequest, .wait (microsPerHour / 2),
    .rotateSigningKey demoAdmin 1 (fun _ => demoKey '0') (fun _ => demoKey '1') (fun _ => 1),
    .wait (microsPerHour / 2 - 6), .sweep]

theorem rotated_key_kid_in_jwks : ∃ token ∈ (run step { store := { now := 0, row := none } } demoEvents).issued,
    (run step { store := { now := 0, row := none } } demoEvents).store.now < token.exp * microsPerSecond ∧
    token.kid ∈ ((run step { store := { now := 0, row := none } } demoEvents).store.getJwks
      fun _ => demoKey '2').2.map (·.kid) := by
  refine ⟨((KeyStore.mk 0 none).issueIdToken (fun _ => demoKey '0') 0 demoRequest).2, ?_, ?_, ?_⟩
  · decide +kernel
  · decide +kernel
  · exact unexpired_id_token_kid_in_jwks { now := 0, row := none } demoEvents _ _ (by decide +kernel)
      (by decide +kernel)

end Examples

end IdTokenWorld

end WeftId
