import WeftId.Db
import WeftId.Lib.Contest
import WeftId.Lib.KeySlot

/-!
Replacing signing keys: the tenant's OIDC key, the certificate of a service provider and the SP certificate
of an identity provider.  Every rotation reads the row, looks at the grace period it has read, makes a key
and then overwrites the row in a second transaction, with the key it has read as the previous one.  The job
that rotates certificates does not look at the grace period at all.
-/

namespace WeftId

open List Run

structure SigningKey where
  kid : Text
  publicKeyPem : Text
  privateKeyPemEnc : Text
  createdAt : Nat
  kid_ne_nil : kid ≠ []
  publicKeyPem_ne_nil : publicKeyPem ≠ []
  deriving DecidableEq

structure SigningCertificate where
  certificatePem : Text
  privateKeyPemEnc : Text
  expiresAt : Nat
  deriving DecidableEq

structure KeyStore (κ : Type) where
  now : Nat
  row : Option (KeySlot κ)

inductive Missing (κ : Type)
  | raise (error : Error)
  | skip
  /-- It stores the key that is generated at a time. -/
  | provision (key : Nat → κ)

/-- What a rotation does on its own: the checks before the row is read, what it does without a row and in a
running grace period, the key it makes and the grace period it grants. -/
structure Rotator (κ : Type) where
  refusal : Option Error := none
  missing : Missing κ
  /-- The error during a running grace period, unless the rotation does not look. -/
  inProgress : Option Error
  newKey : Nat → κ
  /-- Microseconds. -/
  grace : Int
  failure : Error

inductive RotationStage (κ : Type)
  | received
  | absent (provision : Nat → κ)
  | found (row : KeySlot κ)
  | admitted (row : KeySlot κ)
  | ready (row : KeySlot κ) (graceEndsAt : Nat)
  | rotated
  | skipped
  | failed (error : Error)

structure Rotation (κ : Type) where
  rotator : Rotator κ
  stage : RotationStage κ := .received

namespace Rotation

variable {κ : Type}

def setStage (r : Rotation κ) (stage : RotationStage κ) : Rotation κ := { r with stage }

def act (s : KeyStore κ) (r : Rotation κ) : KeyStore κ × Rotation κ :=
  match r.stage with
  | .received =>
    match r.rotator.refusal, s.row, r.rotator.missing with
    | some error, _, _ => (s, r.setStage (.failed error))
    | none, some row, _ => (s, r.setStage (.found row))
    | none, none, .provision key => (s, r.setStage (.absent key))
    | none, none, .skip => (s, r.setStage .skipped)
    | none, none, .raise error => (s, r.setStage (.failed error))
  | .absent provision =>
    -- `on conflict do nothing`, and the winner's row is read again
    match s.row with
    | some row => (s, r.setStage (.found row))
    | none => ({ s with row := some { current := provision s.now } },
        r.setStage (.found { current := provision s.now }))
  | .found row =>
    match r.rotator.inProgress with
    | some error => if row.InGrace s.now then (s, r.setStage (.failed error)) else (s, r.setStage (.admitted row))
    | none => (s, r.setStage (.admitted row))
  | .admitted row => (s, r.setStage (.ready row (s.now + r.rotator.grace).toNat))
  | .ready row graceEndsAt =>
    match s.row with
    | none => (s, r.setStage (.failed r.rotator.failure))
    | some slot =>
      ({ s with row := some (slot.rotate row.current (r.rotator.newKey s.now) graceEndsAt) }, r.setStage .rotated)
  | .rotated | .skipped | .failed _ => (s, r)

end Rotation

section Rotators

def superAdminRefusal (user : RequestingUser) : Option Error :=
  if user.role = .superAdmin then none
  else some (.forbidden "Super admin access required" "super_admin_required" (some "super_admin"))

def microsPerHour : Nat := 3600 * 1000000

/-- `new` and `first` make the key pair of the rotation and the one that is provisioned if there is none. -/
def rotateSigningKey (user : RequestingUser) (gracePeriodHours : Int) (first new : Nat → SigningKey) :
    Rotator SigningKey where
  refusal :=
    match superAdminRefusal user with
    | some error => some error
    | none => if 1 ≤ gracePeriodHours ∧ gracePeriodHours ≤ 720 then none
      else some (.validation "grace_period_hours must be between 1 and 720" "oidc_invalid_grace_period")
  missing := .provision first
  inProgress := some (.validation "Signing-key rotation already in progress" "oidc_signing_key_rotation_in_progress")
  newKey := new
  grace := gracePeriodHours * microsPerHour
  failure := .validation "Failed to rotate OIDC signing key" "oidc_signing_key_rotation_failed"

def microsPerDay : Nat := 24 * microsPerHour

def rotateSpSigningCertificate (user : RequestingUser) (spExists : Bool) (gracePeriodDays : Int)
    (new : SigningCertificate) : Rotator SigningCertificate where
  refusal :=
    match superAdminRefusal user with
    | some error => some error
    | none => if spExists then none else some (.notFound "Service provider not found" "sp_not_found")
  missing := .raise (.notFound "No signing certificate exists to rotate" "sp_signing_certificate_not_found")
  inProgress :=
    some (.validation "Certificate rotation already in progress" "sp_signing_certificate_rotation_in_progress")
  newKey := fun _ => new
  grace := gracePeriodDays * microsPerDay
  failure := .validation "Failed to rotate SP signing certificate" "sp_signing_certificate_rotation_failed"

def rotateIdpSpCertificate (user : RequestingUser) (idpExists : Bool) (gracePeriodDays : Int)
    (new : SigningCertificate) : Rotator SigningCertificate where
  refusal :=
    match superAdminRefusal user with
    | some error => some error
    | none =>
      if ¬ (0 ≤ gracePeriodDays ∧ gracePeriodDays ≤ 90) then
        some (.validation "Grace period must be between 0 and 90 days" "invalid_grace_period")
      else if idpExists then none else some (.notFound "Identity provider not found" "idp_not_found")
  missing := .raise (.notFound "No per-IdP SP certificate exists to rotate" "idp_sp_certificate_not_found")
  inProgress :=
    some (.validation "Certificate rotation already in progress" "idp_sp_certificate_rotation_in_progress")
  newKey := fun _ => new
  grace := gracePeriodDays * microsPerDay
  failure := .validation "Failed to rotate per-IdP SP certificate" "idp_sp_certificate_rotation_failed"

namespace Job

/-- For a certificate that the job has listed.  Without a row it skips, and it does not look at the grace
period of the row it reads. -/
def autoRotate (rotationWindow : Int) (new : SigningCertificate) : Rotator SigningCertificate where
  missing := .skip
  inProgress := none
  newKey := fun _ => new
  grace := rotationWindow * microsPerDay
  failure := .exception "RuntimeError"

def rotateCertificate (rotationWindow : Int) (new : SigningCertificate) : Rotator SigningCertificate :=
  autoRotate rotationWindow new

def rotateIdpSpCertificate (rotationWindow : Int) (new : SigningCertificate) : Rotator SigningCertificate :=
  autoRotate rotationWindow new

end Job

end Rotators

/-- What else happens to the row: time passes, a first key is provisioned, and a cleanup drops the previous key
after its grace period. -/
inductive KeyEvent (κ : Type)
  | wait (micros : Nat)
  | provision (key : κ)
  | cleanup

namespace KeyStore

variable {κ : Type}

def other (s : KeyStore κ) : KeyEvent κ → KeyStore κ
  | .wait micros => { s with now := s.now + micros }
  | .provision key =>
    match s.row with
    | some _ => s
    | none => { s with row := some { current := key } }
  | .cleanup => { s with row := s.row.map (·.clearPrevious s.now) }

def Current (s : KeyStore κ) (k : κ) : Prop := ∃ slot ∈ s.row, slot.current = k

def Previous (s : KeyStore κ) (k : κ) : Prop := ∃ slot ∈ s.row, slot.previous = some k

def Stored (s : KeyStore κ) (k : κ) : Prop := ∃ slot ∈ s.row, k ∈ slot.stored

/-- The key is previous at least until `needed`, unless that is over. -/
def Retains (s : KeyStore κ) (k : κ) (needed : Nat) : Prop := ∃ slot ∈ s.row, slot.Retains s.now k needed

section Decidable

variable [DecidableEq κ]

instance (s : KeyStore κ) (k : κ) : Decidable (s.Current k) := inferInstanceAs (Decidable (∃ slot ∈ _, _))

instance (s : KeyStore κ) (k : κ) : Decidable (s.Stored k) := inferInstanceAs (Decidable (∃ slot ∈ _, _))

end Decidable

variable {s : KeyStore κ} {k : κ} {needed : Nat}

theorem Current.other (h : s.Current k) (event : KeyEvent κ) : (s.other event).Current k := by
  obtain ⟨slot, hrow, hk⟩ := h
  cases event with
  | wait micros => exact ⟨slot, hrow, hk⟩
  | provision key =>
    simp only [KeyStore.other, Option.mem_def.mp hrow]
    exact ⟨slot, hrow, hk⟩
  | cleanup => exact ⟨slot.clearPrevious s.now, Option.mem_map_of_mem _ hrow, (slot.clearPrevious_current _).trans hk⟩

theorem Retains.other (h : s.Retains k needed) (event : KeyEvent κ) : (s.other event).Retains k needed := by
  obtain ⟨slot, hrow, hk⟩ := h
  cases event with
  | wait micros => exact ⟨slot, hrow, hk.mono (Nat.le_add_right _ _)⟩
  | provision key =>
    simp only [KeyStore.other, Option.mem_def.mp hrow]
    exact ⟨slot, hrow, hk⟩
  | cleanup => exact ⟨slot.clearPrevious s.now, Option.mem_map_of_mem _ hrow, hk.clearPrevious⟩

theorem Retains.stored (h : s.Retains k needed) (hneeded : s.now < needed) : s.Stored k := by
  obtain ⟨slot, hrow, hk⟩ := h
  exact ⟨slot, hrow, KeySlot.mem_stored_of_mem_published (hk.mem_published hneeded)⟩

end KeyStore

namespace Rotation

variable {κ : Type} {s s' : KeyStore κ} {r r' : Rotation κ} {stage : RotationStage κ} {graceEndsAt : Nat}

def Reads (_ : KeyStore κ) (r : Rotation κ) : Prop :=
  match r.stage with
  | .received | .absent _ => True
  | .found _ | .admitted _ | .ready _ _ | .rotated | .skipped | .failed _ => False

/-- The row has been read and is still to be overwritten. -/
def Holding (r : Rotation κ) : Prop :=
  match r.stage with
  | .found _ | .admitted _ | .ready _ _ => True
  | .received | .absent _ | .rotated | .skipped | .failed _ => False

/-- A rotation that does not look at the grace period reads the row outside of one. -/
def Patient (s : KeyStore κ) (r : Rotation κ) : Prop :=
  r.rotator.inProgress = none → ∀ row ∈ s.row, ¬ row.InGrace s.now
  deriving Decidable

instance (s : KeyStore κ) (r : Rotation κ) : Decidable (Reads s r) := by
  unfold Reads
  split <;> infer_instance

instance : DecidablePred (@Holding κ) := fun r => by
  unfold Holding
  split <;> infer_instance

/-- What a rotation may rely on between its read and its update: the key it has read is still the current one,
and past the guard no grace period is running. -/
def Relies (s : KeyStore κ) (r : Rotation κ) : Prop :=
  match r.stage with
  | .found row => ∃ slot ∈ s.row, slot.current = row.current ∧ (∀ t, slot.InGrace t → row.InGrace t) ∧
      (r.rotator.inProgress = none → ¬ slot.InGrace s.now)
  | .admitted row | .ready row _ => ∃ slot ∈ s.row, slot.current = row.current ∧ ¬ slot.InGrace s.now
  | .received | .absent _ | .rotated | .skipped | .failed _ => True

def updateAt (r : Rotation κ) : Option Nat :=
  match r.stage with
  | .ready _ graceEndsAt => some graceEndsAt
  | .received | .absent _ | .found _ | .admitted _ | .rotated | .skipped | .failed _ => none

theorem updateAt_eq_some : r.updateAt = some graceEndsAt ↔ ∃ row, r.stage = .ready row graceEndsAt := by
  cases hstage : r.stage <;> simp [updateAt, hstage]

@[simp] theorem setStage_stage : (r.setStage stage).stage = stage := rfl

@[simp] theorem setStage_rotator : (r.setStage stage).rotator = r.rotator :=
  rfl

inductive Acted (s : KeyStore κ) (r : Rotation κ) : KeyStore κ → Rotation κ → Prop
  | refused (error : Error) (h : r.stage = .received) : Acted s r s (r.setStage (.failed error))
  | skipped (h : r.stage = .received) : Acted s r s (r.setStage .skipped)
  | missing (key : Nat → κ) (h : r.stage = .received) : Acted s r s (r.setStage (.absent key))
  | read (row : KeySlot κ) (h : Reads s r) (hrow : s.row = some row) : Acted s r s (r.setStage (.found row))
  | provisioned (key : Nat → κ) (h : r.stage = .absent key) (hrow : s.row = none) :
    Acted s r { s with row := some { current := key s.now } } (r.setStage (.found { current := key s.now }))
  | inProgress (row : KeySlot κ) (error : Error) (h : r.stage = .found row) : Acted s r s (r.setStage (.failed error))
  | admitted (row : KeySlot κ) (h : r.stage = .found row) (hguard : r.rotator.inProgress = none ∨ ¬ row.InGrace s.now) :
    Acted s r s (r.setStage (.admitted row))
  | timed (row : KeySlot κ) (h : r.stage = .admitted row) :
    Acted s r s (r.setStage (.ready row (s.now + r.rotator.grace).toNat))
  | gone (row : KeySlot κ) (graceEndsAt : Nat) (h : r.stage = .ready row graceEndsAt) :
    Acted s r s (r.setStage (.failed r.rotator.failure))
  | updated (row : KeySlot κ) (graceEndsAt : Nat) (slot : KeySlot κ) (h : r.stage = .ready row graceEndsAt)
    (hrow : s.row = some slot) :
    Acted s r { s with row := some (slot.rotate row.current (r.rotator.newKey s.now) graceEndsAt) }
      (r.setStage .rotated)
  | settled (h : r.stage = .rotated ∨ r.stage = .skipped ∨ ∃ error, r.stage = .failed error) : Acted s r s r

theorem acted (s : KeyStore κ) (r : Rotation κ) : Acted s r (act s r).1 (act s r).2 := by
  cases hr : r.stage with
  | received =>
    have hreads : Reads s r := by simp [Reads, hr]
    cases hrefusal : r.rotator.refusal with
    | some error => simpa [act, hr, hrefusal] using Acted.refused error hr
    | none =>
      cases hrow : s.row with
      | some row => simpa [act, hr, hrefusal, hrow] using Acted.read row hreads hrow
      | none =>
        cases hmissing : r.rotator.missing with
        | raise error => simpa [act, hr, hrefusal, hrow, hmissing] using Acted.refused error hr
        | skip => simpa [act, hr, hrefusal, hrow, hmissing] using Acted.skipped hr
        | provision key => simpa [act, hr, hrefusal, hrow, hmissing] using Acted.missing key hr
  | absent key =>
    cases hrow : s.row with
    | some row => simpa [act, hr, hrow] using Acted.read row (by simp [Reads, hr]) hrow
    | none => simpa [act, hr, hrow] using Acted.provisioned key hr hrow
  | found row =>
    cases hguard : r.rotator.inProgress with
    | none => simpa [act, hr, hguard] using Acted.admitted row hr (.inl hguard)
    | some error =>
      by_cases hin : row.InGrace s.now
      · simpa [act, hr, hguard, hin] using Acted.inProgress row error hr
      · simpa [act, hr, hguard, hin] using Acted.admitted row hr (.inr hin)
  | admitted row => simpa [act, hr] using Acted.timed row hr
  | ready row graceEndsAt =>
    cases hrow : s.row with
    | none => simpa [act, hr, hrow] using Acted.gone row graceEndsAt hr
    | some slot => simpa [act, hr, hrow] using Acted.updated row graceEndsAt slot hr hrow
  | rotated => simpa [act, hr] using Acted.settled (.inl hr)
  | skipped => simpa [act, hr] using Acted.settled (.inr (.inl hr))
  | failed error => simpa [act, hr] using Acted.settled (.inr (.inr ⟨error, hr⟩))

theorem Acted.store_cases (h : Acted s r s' r') : s' = s ∨
    (s.row = none ∧ ∃ key, s' = { s with row := some { current := key } }) ∨
    ∃ row graceEndsAt slot, r.stage = .ready row graceEndsAt ∧ s.row = some slot ∧
      s' = { s with row := some (slot.rotate row.current (r.rotator.newKey s.now) graceEndsAt) } := by
  cases h with
  | provisioned key _ hrow => exact .inr (.inl ⟨hrow, key s.now, rfl⟩)
  | updated row graceEndsAt slot hstage hrow => exact .inr (.inr ⟨row, graceEndsAt, slot, hstage, hrow, rfl⟩)
  | _ => exact .inl rfl

theorem Acted.store_eq_of_not_holding {slot : KeySlot κ} (hacted : Acted s r s' r') (h : ¬ Holding r)
    (hrow : s.row = some slot) : s' = s := by
  rcases hacted.store_cases with heq | ⟨hnone, -⟩ | ⟨row, graceEndsAt, -, hstage, -⟩
  · exact heq
  · rw [hnone] at hrow
    cases hrow
  · exact absurd (by simp [Holding, hstage]) h

theorem Acted.reads (hacted : Acted s r s' r') (h : ¬ Holding r) (h' : Holding r') : Reads s r ∧ ∃ row,
    r' = r.setStage (.found row) ∧ s'.row = some row ∧ s'.now = s.now ∧
      (s.row = some row ∨ row.graceEndsAt = none) := by
  cases hacted with
  | read row hreads hrow => exact ⟨hreads, row, rfl, hrow, rfl, .inl hrow⟩
  | provisioned key hstage => exact ⟨by simp [Reads, hstage], _, rfl, rfl, rfl, .inr rfl⟩
  | admitted row hstage | timed row hstage => exact absurd (by simp [Holding, hstage]) h
  | settled => exact absurd h' h
  | _ => exact h'.elim

theorem Acted.relies_of_reads (hacted : Acted s r s' r') (hpatient : Patient s r) (h : ¬ Holding r)
    (h' : Holding r') : Relies s' r' := by
  obtain ⟨-, row, rfl, hrow, hnow, hread⟩ := hacted.reads h h'
  refine ⟨row, hrow, rfl, fun _ => id, fun hnone => ?_⟩
  rw [hnow]
  rcases hread with hread | hfresh
  · exact hpatient hnone row hread
  · rintro ⟨e, he, -⟩
    rw [hfresh] at he
    cases he

theorem Acted.relies (hacted : Acted s r s' r') (h : Holding r) (hr : Relies s r) (h' : Holding r') : Relies s' r' := by
  cases hacted with
  | admitted row hstage hguard =>
    simp only [Relies, hstage] at hr
    obtain ⟨slot, hslot, hcurrent, hgrace, hpatient⟩ := hr
    refine ⟨slot, hslot, hcurrent, fun hin => ?_⟩
    rcases hguard with hnone | hout
    · exact hpatient hnone hin
    · exact hout (hgrace _ hin)
  | timed row hstage =>
    simp only [Relies, hstage] at hr
    exact hr
  | read row hreads =>
    cases hstage : r.stage <;> simp only [Reads, Holding, hstage] at hreads h
  | provisioned key hstage => simp [Holding, hstage] at h
  | settled => exact hr
  | _ => exact h'.elim

theorem Relies.exists_row (h : Holding r) (hr : Relies s r) : ∃ slot, s.row = some slot := by
  cases hstage : r.stage <;> simp only [Holding, hstage] at h <;> simp only [Relies, hstage] at hr <;>
    exact ⟨hr.choose, hr.choose_spec.1⟩

theorem Relies.other (h : Holding r) (hr : Relies s r) (event : KeyEvent κ) : Relies (s.other event) r := by
  have hkeep : ∀ slot, s.row = some slot → ∃ slot', (s.other event).row = some slot' ∧
      slot'.current = slot.current ∧ (∀ t, slot'.InGrace t → slot.InGrace t) ∧ s.now ≤ (s.other event).now := by
    intro slot hslot
    cases event with
    | wait micros => exact ⟨slot, hslot, rfl, fun _ => id, Nat.le_add_right _ _⟩
    | provision key =>
      simp only [KeyStore.other, hslot]
      exact ⟨slot, rfl, rfl, fun _ => id, le_refl _⟩
    | cleanup =>
      refine ⟨slot.clearPrevious s.now, by simp [KeyStore.other, hslot], slot.clearPrevious_current _,
        fun _ => KeySlot.InGrace.of_clearPrevious, le_refl _⟩
  cases hstage : r.stage with
  | found row =>
    simp only [Relies, hstage] at hr ⊢
    obtain ⟨slot, hslot, hcurrent, hgrace, hpatient⟩ := hr
    obtain ⟨slot', hslot', hcurrent', hgrace', hle⟩ := hkeep slot hslot
    exact ⟨slot', hslot', hcurrent'.trans hcurrent, fun t ht => hgrace t (hgrace' t ht),
      fun hnone hin => hpatient hnone ((hgrace' _ hin).mono hle)⟩
  | admitted row | ready row graceEndsAt =>
    simp only [Relies, hstage] at hr ⊢
    obtain ⟨slot, hslot, hcurrent, hout⟩ := hr
    obtain ⟨slot', hslot', hcurrent', hgrace', hle⟩ := hkeep slot hslot
    exact ⟨slot', hslot', hcurrent'.trans hcurrent, fun hin => hout ((hgrace' _ hin).mono hle)⟩
  | _ => simp [Holding, hstage] at h

section Alone

theorem Acted.rotator_eq (h : Acted s r s' r') : r'.rotator = r.rotator := by
  cases h <;> rfl

theorem relies_of_not_holding (h : ¬ Holding r) : Relies s r := by
  cases hstage : r.stage <;> simp [Holding, Relies, hstage] at h ⊢

theorem Acted.relies_alone (hacted : Acted s r s' r') (hguard : r.rotator.inProgress ≠ none) (h : Relies s r) :
    Relies s' r' := by
  by_cases hafter : Holding r'
  · by_cases hr : Holding r
    · exact hacted.relies hr h hafter
    · exact hacted.relies_of_reads (fun hnone => absurd hnone hguard) hr hafter
  · exact relies_of_not_holding hafter

theorem Acted.updateAt (hacted : Acted s r s' r') (h : r'.updateAt = some graceEndsAt) :
    ∃ row, r.stage = .admitted row ∧ s' = s ∧ graceEndsAt = (s.now + r.rotator.grace).toNat := by
  cases hacted with
  | timed row hstage => exact ⟨row, hstage, rfl, (Option.some.inj h).symm⟩
  | settled hover => rcases hover with hstage | hstage | ⟨error, hstage⟩ <;> simp [Rotation.updateAt, hstage] at h
  | _ => cases h

/-- A rotation on its own, from its first statement to its last; time may pass before each of them. -/
def call (rotator : Rotator κ) (pauses : Nat → Nat) (s : KeyStore κ) : KeyStore κ × Rotation κ :=
  (List.range 5).foldl (fun x i => act (x.1.other (.wait (pauses i))) x.2) (s, { rotator })

variable {rotator : Rotator κ} {pauses : Nat → Nat}

theorem call_invariant {I : KeyStore κ → Rotation κ → Prop}
    (hwait : ∀ s r d, I s r → I (s.other (.wait d)) r) (hact : ∀ s r, I s r → I (act s r).1 (act s r).2)
    (h : I s { rotator }) : I (call rotator pauses s).1 (call rotator pauses s).2 :=
  foldlRecOn (motive := fun x : KeyStore κ × Rotation κ => I x.1 x.2) _ _ h
    fun _ hx _ _ => hact _ _ (hwait _ _ _ hx)

end Alone

section Runs

abbrev step : Contest (KeyStore κ) (Rotation κ) → ContestEvent (KeyEvent κ) → Contest (KeyStore κ) (Rotation κ) :=
  Contest.step act KeyStore.other

/-- Every rotation reads the row while no other one stands between its read and its update, and the job reads
it outside of a grace period. -/
abbrev ReadsAlone : Contest (KeyStore κ) (Rotation κ) → ContestEvent (KeyEvent κ) → Prop :=
  Contest.ChecksAlone Patient Reads Holding

/-- The step is a rotation's update: it replaces the key `k`, whose grace period then ends at `graceEndsAt`. -/
def Replaces (x : Contest (KeyStore κ) (Rotation κ)) (k : κ) (graceEndsAt : Nat) : ContestEvent (KeyEvent κ) → Prop
  | .advance i => ∃ r ∈ x.stages[i]?, r.updateAt = some graceEndsAt ∧ x.store.Current k
  | .other _ => False

instance [DecidableEq κ] (x : Contest (KeyStore κ) (Rotation κ)) (k : κ) (graceEndsAt : Nat) :
    ∀ event, Decidable (Replaces x k graceEndsAt event)
  | .advance _ => inferInstanceAs (Decidable (∃ r ∈ _, _))
  | .other _ => isFalse id

variable {x : Contest (KeyStore κ) (Rotation κ)} {event : ContestEvent (KeyEvent κ)} {k : κ} {needed : Nat}

theorem held_step (hx : Contest.Held Relies Holding x) (h : ReadsAlone x event) :
    Contest.Held Relies Holding (step x event) := by
  refine hx.step (fun s r hr hr' => ((acted s r).reads hr hr').1) (fun s r => (acted s r).relies_of_reads)
    (fun s r => (acted s r).relies) ?_ (fun s r o hr hrelies => hrelies.other hr o) h
  intro s r u hr hu hrelies
  obtain ⟨slot, hslot⟩ := hrelies.exists_row hu
  rwa [(acted s r).store_eq_of_not_holding hr hslot]

theorem current_step (h : x.store.Current k) :
    (step x event).store.Current k ∨ ∃ graceEndsAt, Replaces x k graceEndsAt event := by
  unfold step
  refine Contest.step_cases (.inl h) (fun o _ => .inl (h.other o)) fun i r hevent hi => ?_
  rcases (acted x.store r).store_cases with heq | ⟨hnone, -⟩ | ⟨row, graceEndsAt, slot, hstage, -⟩
  · rw [heq]
    exact .inl h
  · obtain ⟨slot, hslot, -⟩ := h
    rw [hnone] at hslot
    cases hslot
  · rw [hevent]
    exact .inr ⟨graceEndsAt, r, hi, by simp [updateAt, hstage], h⟩

theorem replaced_step (hx : Contest.Held Relies Holding x) (h : Replaces x k needed event) :
    (step x event).store.Previous k ∧ (step x event).store.Retains k needed := by
  cases event with
  | other o => exact h.elim
  | advance i =>
    obtain ⟨r, hi, hupdate, slot, hslot, hcurrent⟩ := h
    obtain ⟨row, hstage⟩ := updateAt_eq_some.mp hupdate
    have hrelies := hx.rely r (mem_of_getElem? hi) (by simp [Holding, hstage])
    simp only [Relies, hstage] at hrelies
    obtain ⟨slot', hslot', hread, -⟩ := hrelies
    obtain rfl : slot' = slot := Option.some.inj (hslot'.symm.trans hslot)
    have hk := hread.symm.trans hcurrent
    have hafter : (step x (.advance i)).store.row =
        some (slot'.rotate k (r.rotator.newKey x.store.now) needed) := by
      rw [step, Contest.step_advance hi]
      simp [act, hstage, Option.mem_def.mp hslot, hk]
    exact ⟨⟨_, hafter, rfl⟩, _, hafter, KeySlot.retains_rotate (le_refl _)⟩

theorem retains_step (hx : Contest.Held Relies Holding x) (h : x.store.Retains k needed) :
    (step x event).store.Retains k needed := by
  unfold step
  refine Contest.step_cases h (fun o _ => h.other o) fun i r _ hi => ?_
  obtain ⟨slot, hslot, hk⟩ := h
  rcases (acted x.store r).store_cases with heq | ⟨hnone, -⟩ | ⟨row, graceEndsAt, slot', hstage, hslot', heq⟩
  · rw [heq]
    exact ⟨slot, hslot, hk⟩
  · rw [hnone] at hslot
    cases hslot
  · have hrelies := hx.rely r (mem_of_getElem? hi) (by simp [Holding, hstage])
    simp only [Relies, hstage] at hrelies
    obtain ⟨slot'', hslot'', -, hout⟩ := hrelies
    obtain rfl := Option.some.inj (hslot''.symm.trans hslot)
    rw [heq]
    exact ⟨_, rfl, .inl (hk.of_not_inGrace hout)⟩

theorem current_or_retains_run (hx : Contest.Held Relies Holding x) (h : x.store.Current k)
    {events : List (ContestEvent (KeyEvent κ))} (hrun : Along step ReadsAlone x events) :
    (run step x events).store.Current k ∨ ∃ l₁ event l₂ graceEndsAt, events = l₁ ++ event :: l₂ ∧
      Replaces (run step x l₁) k graceEndsAt event ∧ (run step x events).store.Retains k graceEndsAt := by
  induction events using reverseRecOn with
  | nil => exact .inl h
  | append_singleton events event ih =>
    have hheld := invariant_of_along (fun _ _ => held_step) hx hrun.left
    rw [run_append]
    rcases ih hrun.left with hcurrent | ⟨l₁, event', l₂, graceEndsAt, rfl, hreplaces, hretains⟩
    · rcases current_step hcurrent with hstill | ⟨graceEndsAt, hreplaces⟩
      · exact .inl hstill
      · exact .inr ⟨events, event, [], graceEndsAt, rfl, hreplaces, (replaced_step hheld hreplaces).2⟩
    · exact .inr ⟨l₁, event', l₂ ++ [event], graceEndsAt, by simp, hreplaces, retains_step hheld hretains⟩

end Runs

/-- When every rotation reads the row alone, each update notes the key it replaces as the previous one, and a
key that was ever current stays stored until the end of its grace period. -/
theorem rotations_keep_published_keys (x : Contest (KeyStore κ) (Rotation κ))
    (events : List (ContestEvent (KeyEvent κ))) (hstart : ∀ r ∈ x.stages, r.stage = .received)
    (hrun : Along step ReadsAlone x events) :
    Along step (fun x event => ∀ k graceEndsAt, Replaces x k graceEndsAt event → (step x event).store.Previous k)
      x events ∧ ∀ l₁ l₂ k, events = l₁ ++ l₂ → (run step x l₁).store.Current k →
      (run step x events).store.Stored k ∨ ∃ m₁ event m₂ graceEndsAt, l₂ = m₁ ++ event :: m₂ ∧
        Replaces (run step x (l₁ ++ m₁)) k graceEndsAt event ∧ graceEndsAt ≤ (run step x events).store.now := by
  have hnot : ∀ r ∈ x.stages, ¬ Holding r := fun r hr => by simp [Holding, hstart r hr]
  have hheld : Contest.Held Relies Holding x :=
    ⟨fun i j t u hi hj ht => absurd ht (hnot t (mem_of_getElem? hi)), fun r hr h => absurd h (hnot r hr)⟩
  constructor
  · exact along_of_invariant (fun _ _ => held_step) (fun _ _ hx _ k _ h => (replaced_step hx h).1) hheld hrun
  · intro l₁ l₂ k hl hcurrent
    subst hl
    have hheld' := invariant_of_along (fun _ _ => held_step) hheld hrun.left
    rw [run_append]
    rcases current_or_retains_run hheld' hcurrent hrun.right with hstill | ⟨m₁, event, m₂, g, rfl, hreplaces, hretains⟩
    · obtain ⟨slot, hslot, hk⟩ := hstill
      exact .inl ⟨slot, hslot, hk ▸ mem_cons_self⟩
    · by_cases hover : g ≤ (run step (run step x l₁) (m₁ ++ event :: m₂)).store.now
      · exact .inr ⟨m₁, event, m₂, g, rfl, by rwa [run_append], hover⟩
      · exact .inl (hretains.stored (Nat.lt_of_not_le hover))

section Examples

def demoAdmin : RequestingUser := { id := 1, role := .superAdmin }

def demoKey (c : Char) : SigningKey where
  kid := [c]
  publicKeyPem := [c]
  privateKeyPemEnc := [c]
  createdAt := 0
  kid_ne_nil := List.cons_ne_nil _ _
  publicKeyPem_ne_nil := List.cons_ne_nil _ _

def demoCertificate (c : Char) : SigningCertificate where
  certificatePem := [c]
  privateKeyPemEnc := [c]
  expiresAt := 1000

/-- Two rotations of the key `k`, neither of them begun. -/
def contend (k : κ) (a b : Rotator κ) : Contest (KeyStore κ) (Rotation κ) where
  store := { now := 0, row := some { current := k } }
  stages := [{ rotator := a }, { rotator := b }]

def rotateDemoKey (c : Char) : Rotator SigningKey :=
  rotateSigningKey demoAdmin 24 (fun _ => demoKey '9') fun _ => demoKey c

def overlapping : List (ContestEvent (KeyEvent κ)) := [0, 1, 0, 0, 0, 1, 1, 1].map .advance

def oneByOne : List (ContestEvent (KeyEvent κ)) := [0, 0, 0, 0, 1, 1, 1, 1].map .advance

/-- The step `n` of the run replaces `k`, which is not stored at the end although its grace period runs. -/
def Drops (x : Contest (KeyStore κ) (Rotation κ)) (events : List (ContestEvent (KeyEvent κ))) (n : Nat) (k : κ)
    (graceEndsAt : Nat) : Prop :=
  (∃ event ∈ events[n]?, Replaces (run step x (events.take n)) k graceEndsAt event) ∧
    ¬ (run step x events).store.Stored k ∧ (run step x events).store.now < graceEndsAt

instance [DecidableEq κ] (x : Contest (KeyStore κ) (Rotation κ)) (events : List (ContestEvent (KeyEvent κ))) (n : Nat)
    (k : κ) (graceEndsAt : Nat) : Decidable (Drops x events n k graceEndsAt) :=
  inferInstanceAs (Decidable (_ ∧ _))

/-- In each of the three tables the second of two overlapping updates forgets the key of the first one, and
the job forgets a certificate in its grace period even if it runs on its own. -/
theorem rotation_drops_published_key :
    Drops (contend (demoKey '0') (rotateDemoKey '1') (rotateDemoKey '2')) overlapping 7 (demoKey '1')
      (24 * microsPerHour) ∧
    Drops (contend (demoCertificate '0') (rotateSpSigningCertificate demoAdmin true 7 (demoCertificate '1'))
      (rotateSpSigningCertificate demoAdmin true 7 (demoCertificate '2'))) overlapping 7 (demoCertificate '1')
      (7 * microsPerDay) ∧
    Drops (contend (demoCertificate '0') (rotateIdpSpCertificate demoAdmin true 7 (demoCertificate '1'))
      (rotateIdpSpCertificate demoAdmin true 7 (demoCertificate '2'))) overlapping 7 (demoCertificate '1')
      (7 * microsPerDay) ∧
    Drops (contend (demoCertificate '0') (rotateSpSigningCertificate demoAdmin true 7 (demoCertificate '1'))
      (Job.rotateCertificate 90 (demoCertificate '2'))) oneByOne 3 (demoCertificate '0') (7 * microsPerDay) ∧
    Drops (contend (demoCertificate '0') (rotateIdpSpCertificate demoAdmin true 7 (demoCertificate '1'))
      (Job.rotateIdpSpCertificate 90 (demoCertificate '2'))) oneByOne 3 (demoCertificate '0') (7 * microsPerDay) := by
  decide +kernel

def patiently : List (ContestEvent (KeyEvent SigningCertificate)) :=
  [0, 0, 0, 0].map .advance ++ .other (.wait (7 * microsPerDay)) :: [1, 1, 1, 1].map .advance

theorem patient_rotations_keep_certificates :
    let x := contend (demoCertificate '0') (rotateSpSigningCertificate demoAdmin true 7 (demoCertificate '1'))
      (Job.rotateCertificate 90 (demoCertificate '2'))
    Along step (fun x event => ∀ k graceEndsAt, Replaces x k graceEndsAt event → (step x event).store.Previous k)
      x patiently ∧ (run step x patiently).store.Stored (demoCertificate '1') := by
  refine ⟨(rotations_keep_published_keys _ _ ?_ ?_).1, ?_⟩
  · intro r hr
    rcases mem_cons.mp hr with rfl | hr
    · rfl
    · rw [mem_singleton.mp hr]
  · decide +kernel
  · decide +kernel

end Examples

end Rotation

end WeftId
