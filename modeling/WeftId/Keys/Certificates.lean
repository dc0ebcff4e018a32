import WeftId.Keys.Rotation

/-!
What the peers see of a certificate that is rotated: the metadata for a service provider and for an identity
provider, and the key with which responses are decrypted.  Of the three only the metadata for an identity
provider reads the previous certificate, and it does not look at the grace period.
-/

namespace WeftId

open Run

section Metadata

inductive KeyUse
  | signing
  | encryption

/-- The lines of a certificate between its header and its footer. -/
def certificateData (pem : Text) : Text :=
  ((Text.split '\n' pem.strip).filter fun line => ¬ "-----".toList.isPrefixOf line).flatten

variable (decryptPrivateKey : Text → Text) (tenantCertificate : Option SigningCertificate)

def resolveIdpCertificate (row : Option (KeySlot SigningCertificate)) : Except Error SigningCertificate :=
  match row.map (·.current) <|> tenantCertificate with
  | none => .error (.notFound "IdP certificate not configured" "idp_certificate_not_found")
  | some certificate => .ok certificate

/-- The certificates that the metadata lists. -/
def getSpIdpMetadataXml (spExists : Bool) (row : Option (KeySlot SigningCertificate)) :
    Except Error (List (KeyUse × Text)) := do
  if ¬ spExists then throw (.notFound "Service provider not found" "sp_not_found")
  let certificate ← resolveIdpCertificate tenantCertificate row
  return [(.signing, certificateData certificate.certificatePem)]

def getIdpSpMetadataXml : Option (KeySlot SigningCertificate) → Except Error (List (KeyUse × Text))
  | none => .error (.notFound "Per-IdP SP certificate not found" "idp_sp_certificate_not_found")
  | some slot =>
    let describe (use : KeyUse) (certificates : List SigningCertificate) :=
      (certificates.filter (·.certificatePem ≠ [])).map fun c => (use, certificateData c.certificatePem)
    .ok ((.signing, certificateData slot.current.certificatePem) :: describe .signing slot.previous.toList ++
      describe .encryption [slot.current])

/-- The key with which `_prepare_saml_auth` has responses decrypted. -/
def spPrivateKey (row : Option (KeySlot SigningCertificate)) : Except Error Text :=
  match row.map (·.current) <|> tenantCertificate with
  | none => .error (.notFound "SP certificate not configured" "sp_certificate_not_found")
  | some certificate => .ok (decryptPrivateKey certificate.privateKeyPemEnc)

inductive Peer
  | serviceProvider
  | identityProvider

namespace Peer

def metadata : Peer → Option (KeySlot SigningCertificate) → Except Error (List (KeyUse × Text))
  | serviceProvider, row => getSpIdpMetadataXml tenantCertificate true row
  | identityProvider, row => getIdpSpMetadataXml row

/-- What a peer encrypts to the certificate is decrypted exactly with its private key.  The certificate of a
service provider is for signing only, and nothing is encrypted to it. -/
def Decrypts : Peer → Option (KeySlot SigningCertificate) → SigningCertificate → Prop
  | serviceProvider, _, _ => True
  | identityProvider, row, certificate =>
    spPrivateKey decryptPrivateKey tenantCertificate row = .ok (decryptPrivateKey certificate.privateKeyPemEnc)

/-- Until the grace period ends the new certificate and the one before it are listed and can be decrypted with,
and then only the new one is listed. -/
def BothUsable (peer : Peer) (s : KeyStore SigningCertificate) : Prop :=
  ∀ slot ∈ s.row, ∃ entries, peer.metadata tenantCertificate s.row = .ok entries ∧
    if slot.InGrace s.now then ∀ c ∈ slot.stored,
      certificateData c.certificatePem ∈ entries.map (·.2) ∧ peer.Decrypts decryptPrivateKey tenantCertificate s.row c
    else ∀ data ∈ entries.map (·.2), data = certificateData slot.current.certificatePem

abbrev SameData (slot : KeySlot SigningCertificate) (c : SigningCertificate) : Prop :=
  certificateData c.certificatePem = certificateData slot.current.certificatePem

/-- What the row must be for this: a service provider sees the new certificate only, an identity provider sees
the old one until the cleanup and gets nothing decrypted with it. -/
def Served : Peer → KeySlot SigningCertificate → Nat → Prop
  | serviceProvider, slot, now => slot.InGrace now → ∀ p ∈ slot.previous, SameData slot p
  | identityProvider, slot, now => ∀ p ∈ slot.previous,
    if slot.InGrace now then
      decryptPrivateKey slot.current.privateKeyPemEnc = decryptPrivateKey p.privateKeyPemEnc ∧
        (p.certificatePem ≠ [] ∨ SameData slot p)
    else p.certificatePem = [] ∨ SameData slot p

instance : ∀ peer slot now, Decidable (Served decryptPrivateKey peer slot now)
  | serviceProvider, _, _ => inferInstanceAs (Decidable (_ → _))
  | identityProvider, _, _ => inferInstanceAs (Decidable (∀ p ∈ _, _))

theorem mem_getIdpSpMetadataXml (slot : KeySlot SigningCertificate) :
    ∃ entries, getIdpSpMetadataXml (some slot) = .ok entries ∧ ∀ data, data ∈ entries.map (·.2) ↔
      data = certificateData slot.current.certificatePem ∨
        ∃ p ∈ slot.previous, p.certificatePem ≠ [] ∧ data = certificateData p.certificatePem := by
  refine ⟨_, rfl, fun data => ?_⟩
  cases slot.previous with
  | none => by_cases hempty : slot.current.certificatePem = [] <;> simp [hempty]
  | some p =>
    by_cases hp : p.certificatePem = [] <;> by_cases hempty : slot.current.certificatePem = [] <;> simp [hp, hempty]
    tauto

variable {s : KeyStore SigningCertificate}

theorem bothUsable_serviceProvider_iff : serviceProvider.BothUsable decryptPrivateKey tenantCertificate s ↔
    ∀ slot ∈ s.row, serviceProvider.Served decryptPrivateKey slot s.now := by
  refine forall₂_congr fun slot hrow => ?_
  rw [Option.mem_def] at hrow
  by_cases hgrace : slot.InGrace s.now
  · simp [metadata, getSpIdpMetadataXml, resolveIdpCertificate, hrow, Served, KeySlot.stored, Decrypts]
  · simp [metadata, getSpIdpMetadataXml, resolveIdpCertificate, hrow, hgrace, Served]

theorem bothUsable_identityProvider_iff : identityProvider.BothUsable decryptPrivateKey tenantCertificate s ↔
    ∀ slot ∈ s.row, identityProvider.Served decryptPrivateKey slot s.now := by
  refine forall₂_congr fun slot hrow => ?_
  rw [Option.mem_def] at hrow
  obtain ⟨entries, hok, hmem⟩ := mem_getIdpSpMetadataXml slot
  simp only [metadata, hrow, hok, Except.ok.injEq, exists_eq_left', hmem, Served]
  by_cases hgrace : slot.InGrace s.now <;> cases hprevious : slot.previous <;>
    simp [hgrace, hprevious, KeySlot.stored, Decrypts, spPrivateKey]
  · tauto
  · tauto

end Peer

end Metadata

namespace Rotation

/-- In every state of the row, whatever rotations have led to it and however they overlapped, both certificates are
usable exactly if the row has no previous certificate that differs, or, for a service provider, its grace period is
over. -/
theorem rotated_certificates_usable_iff (decryptPrivateKey : Text → Text)
    (tenantCertificate : Option SigningCertificate) (s : KeyStore SigningCertificate) (peer : Peer) :
    peer.BothUsable decryptPrivateKey tenantCertificate s ↔
      ∀ slot ∈ s.row, peer.Served decryptPrivateKey slot s.now := by
  cases peer with
  | serviceProvider => exact Peer.bothUsable_serviceProvider_iff decryptPrivateKey tenantCertificate
  | identityProvider => exact Peer.bothUsable_identityProvider_iff decryptPrivateKey tenantCertificate

/-- One rotation with seven days of grace: the service provider no longer sees the old certificate, and what the
identity provider encrypts to it is not decrypted, but a day after the grace period it is still listed. -/
theorem rotated_certificate_unusable :
    let rotated (rotator : Rotator SigningCertificate) :=
      (run step (contend (demoCertificate '0') rotator rotator) ([0, 0, 0, 0].map .advance)).store
    let spCertificate := rotated (rotateSpSigningCertificate demoAdmin true 7 (demoCertificate '1'))
    let idpSpCertificate := rotated (rotateIdpSpCertificate demoAdmin true 7 (demoCertificate '1'))
    ¬ Peer.serviceProvider.BothUsable id none spCertificate ∧
      ¬ Peer.identityProvider.BothUsable id none idpSpCertificate ∧
      ¬ Peer.identityProvider.BothUsable id none (idpSpCertificate.other (.wait (8 * microsPerDay))) := by
  simp only [Peer.bothUsable_serviceProvider_iff, Peer.bothUsable_identityProvider_iff]
  decide +kernel

end Rotation

end WeftId
