import WeftId.Saml.Domains
import WeftId.Scim.UserWrite
import WeftId.Users.Touches

/-!
The calls that can take a user out of service: role changes, inactivation, anonymization, deletion, the two
background jobs, losing a provider and the inbound SCIM writes.
-/

namespace WeftId

open KeyedRows List Proc

section Calls

variable {out moved : Id → Prop} {userId idpId createdBy : Id} {env : Env} {db : Db} {user : RequestingUser}
  {userIds : List Id} {samlIdpId : Option Id} {update : UserUpdate} {payload : Json.Dict}

theorem within_assignUsersToIdp :
    (tx (·.assignUsersToIdp userIds samlIdpId)).Within (Touches out moved) := by
  apply within_tx
  intro db a db' h
  unfold Db.assignUsersToIdp at h
  split_ifs at h
  obtain rfl := Except.ok_snd h
  let assigned : User → User := fun u => if u.id ∈ userIds then { u with samlIdpId } else u
  have hmem : ∀ u ∈ db.users, assigned u ∈ db.users.map assigned := fun u hu => mem_map_of_mem hu
  have hsame : ∀ u, (assigned u).id = u.id ∧ (assigned u).role = u.role ∧
      (assigned u).isInactivated = u.isInactivated := by
    intro u
    unfold assigned
    split_ifs <;> exact ⟨rfl, rfl, rfl⟩
  refine ⟨le_refl _, le_refl _, rfl, rfl, List.Subset.refl _, List.Subset.refl _, List.Subset.refl _,
    List.Subset.refl _, fun hk => hk.of_ids ?_ (le_refl _), ?_, ?_, fun _ h _ => h, fun _ _ h => h⟩
  · rw [map_map]
    exact map_congr_left fun u _ => (hsame u).1
  · intro u hu _
    obtain ⟨hid, hrole, hflag⟩ := hsame u
    exact ⟨_, hmem u hu, hid, fun h => hrole.trans h, fun h => hflag.trans h⟩
  · rintro v ⟨u, hu, huid, hactive⟩ hgone
    obtain ⟨hid, -, hflag⟩ := hsame u
    exact absurd ⟨_, hmem u hu, hid.trans huid, hflag.trans hactive⟩ hgone

section Writes

open Scim

/-- Addresses and provider attributes are added for one user only. -/
structure Enrolls (userId : Id) (db db' : Db) : Prop where
  emails : ∀ e ∈ db'.userEmails, e ∈ db.userEmails ∨ e.userId = userId
  attributes : ∀ r ∈ db'.userIdpAttributes, r ∈ db.userIdpAttributes ∨ r.userId = userId

theorem enrolls_of_eq {db' : Db} (hemails : db'.userEmails = db.userEmails)
    (hattributes : db'.userIdpAttributes = db.userIdpAttributes) : Enrolls userId db db' :=
  ⟨fun _ he => .inl (hemails ▸ he), fun _ hr => .inl (hattributes ▸ hr)⟩

instance : Std.Refl (Enrolls userId) := ⟨fun _ => enrolls_of_eq rfl rfl⟩

instance : IsTrans Db (Enrolls userId) where
  trans _ _ _ h h' := by
    refine ⟨fun e he => ?_, fun r hr => ?_⟩
    · exact (h'.emails e he).elim (h.emails e) .inr
    · exact (h'.attributes r hr).elim (h.attributes r) .inr

theorem enrolls_upsertUserIdpAttribute {key value : Text} :
    Enrolls userId db (db.upsertUserIdpAttribute userId idpId key value) := by
  refine ⟨fun _ he => .inl he, fun r hr => ?_⟩
  rcases mem_store.mp hr with rfl | ⟨hold, -⟩
  · exact .inr rfl
  · exact .inl hold

theorem enrolls_replaceIdpAttributes {serialized : List (Text × Text)} :
    Enrolls userId db (db.replaceIdpAttributes userId idpId serialized) := by
  rw [replaceIdpAttributes_eq]
  refine ⟨fun _ he => .inl he, fun r hr => ?_⟩
  rcases mem_of_mem_storeAll hr with hsent | hold
  · obtain ⟨row, -, rfl⟩ := mem_map.mp hsent
    exact .inr rfl
  · exact .inl (mem_of_mem_filter hold)

/-- What the writes of a SCIM payload do for one user. -/
def Writes (out moved : Id → Prop) (userId : Id) (db db' : Db) : Prop :=
  Touches out moved db db' ∧ Enrolls userId db db'

instance : Std.Refl (Writes out moved userId) := ⟨fun db => ⟨Touches.refl out moved db, refl_of _ db⟩⟩

instance : IsTrans Db (Writes out moved userId) := ⟨fun _ _ _ h h' => ⟨h.1.trans h'.1, trans_of _ h.2 h'.2⟩⟩

theorem writes_updateUserProfile {first last : Text} :
    (tx (·.updateUserProfile userId first last)).Within (Writes out moved userId) := by
  apply within_tx
  intro db a db' h
  obtain rfl := Db.updateUserProfile_eq_ok h
  exact ⟨touches_updateUser (fun _ => rfl) (.inr fun _ => ⟨id, id⟩) (.inr fun _ => id), enrolls_of_eq rfl rfl⟩

theorem within_updateUserProfile (first last : Text) :
    (tx (·.updateUserProfile userId first last)).Within (Touches out moved) :=
  writes_updateUserProfile.mono fun _ _ => And.left

theorem writes_setUserIdp : (tx (·.setUserIdp userId idpId)).Within (Writes out moved userId) := by
  apply within_tx
  intro db a db' h
  refine ⟨within_assignUsersToIdp.apply (tx_apply_of_ok h), ?_⟩
  unfold Db.setUserIdp Db.updateUserSamlIdp Db.assignUsersToIdp at h
  split_ifs at h
  obtain rfl := Except.ok_snd h
  exact enrolls_of_eq rfl rfl

theorem writes_setExternalId {externalId : Text} :
    (tx (·.setExternalId userId idpId externalId)).Within (Writes out moved userId) := by
  apply within_tx
  intro db a db' h
  unfold Db.setExternalId at h
  split_ifs at h
  obtain rfl := Except.ok_snd h
  exact ⟨touches_of_issued rfl (le_refl _) rfl rfl, enrolls_upsertUserIdpAttribute⟩

theorem writes_addVerifiedEmail {email : Text} {isPrimary : Bool} :
    (tx (·.addVerifiedEmail env userId email isPrimary)).Within (Writes out moved userId) := by
  apply within_tx
  intro db a db' h
  obtain rfl := Db.insertEmailRow_eq_ok h
  refine ⟨touches_of_issued rfl (Nat.le_succ _) rfl rfl, fun e he => ?_, fun _ hr => .inl hr⟩
  rcases mem_concat_iff.mp he with he | rfl
  · exact .inl he
  · exact .inr rfl

theorem writes_writeNames : (writeNames userId payload).Within (Writes out moved userId) := by
  refine .lookup fun names => within_whenever fun _ => ?_
  exact .read fun _ => writes_updateUserProfile

theorem writes_writeExternalId :
    (writeExternalId idpId userId payload).Within (Writes out moved userId) := by
  unfold writeExternalId
  cases extractExternalId payload with
  | none => exact within_pure ()
  | some => exact writes_setExternalId

theorem writes_mirrorAttributes {attributes : List (Text × Text)} :
    (mirrorAttributes env idpId userId attributes).Within (Writes out moved userId) := by
  refine within_rescue (.orRaise fun _ => within_tx ?_) fun _ => within_pure ()
  intro db a db' h
  split_ifs at h
  obtain rfl := Except.ok_snd h
  refine ⟨?_, enrolls_replaceIdpAttributes⟩
  rw [replaceIdpAttributes_eq]
  exact touches_of_issued rfl (le_refl _) rfl rfl

theorem writes_applyPayloadWrites {updateNames : Bool} :
    (applyPayloadWrites env idpId userId payload updateNames).Within (Writes out moved userId) := by
  refine within_bind (within_whenever fun _ => writes_writeNames) fun _ => ?_
  refine within_bind writes_writeExternalId fun _ => .lookup fun extras => ?_
  exact within_whenever fun _ => writes_mirrorAttributes

theorem writes_handleActiveTransition {active : Option Bool} (hout : active = some false → out userId) :
    (handleActiveTransition userId active).Within (Writes out moved userId) := by
  cases active with
  | none => exact within_pure ()
  | some active =>
    refine .read fun current => ?_
    cases current with
    | none => exact within_pure ()
    | some current =>
      dsimp only
      by_cases hleaves : ¬ active ∧ ¬ current.isInactivated
      · rw [if_pos hleaves]
        exact fun db => ⟨touches_deactivate (hout (by simpa using hleaves.1)) db, enrolls_of_eq rfl rfl⟩
      · rw [if_neg hleaves]
        refine within_whenever fun _ => within_bind (within_write fun db => ?_) fun _ => within_write fun db => ?_
        · exact ⟨touches_reactivateUser db userId, enrolls_of_eq rfl rfl⟩
        · refine ⟨touches_updateUser (fun _ => rfl) (.inr fun _ => ⟨id, id⟩) (.inr fun _ => id), ?_⟩
          exact enrolls_of_eq rfl rfl

end Writes

theorem within_moveGroupMemberships (current target : Option Id) (targetName : Text) :
    (moveGroupMemberships userId current target targetName).Within (Regroups userId) := by
  have hjoin : ∀ idpId, (ensureUserInBaseGroup userId idpId targetName .saml).Within (Regroups userId) :=
    fun _ => within_ensureUserInBaseGroup
  have hleave : ∀ idpId, (removeUserFromAllIdpGroups userId idpId).Within (Regroups userId) :=
    fun _ => within_removeUserFromAllIdpGroups
  cases current with
  | none =>
    cases target with
    | none => exact within_pure ()
    | some new => exact hjoin new
  | some old =>
    cases target with
    | none => exact hleave old
    | some new => exact within_whenever fun _ => within_bind (hleave old) fun _ => hjoin new

theorem within_assignUserIdp {scrub : Bool}
    (hout : samlIdpId = none → out userId) (hmoved : moved userId) :
    (assignUserIdp user userId samlIdpId scrub).Within (Touches out moved) := by
  refine .require fun _ => .orRaise fun target => ?_
  refine .read fun idp => .require fun _ => ?_
  refine within_bind (within_whenever ?_) fun _ => within_bind within_assignUsersToIdp fun _ => ?_
  · rintro ⟨-, hleaves⟩ db
    exact (touches_unverifyUserEmails db userId).trans (touches_deactivate (hout hleaves) _)
  · have hgroups : (moveGroupMemberships userId target.samlIdpId samlIdpId ((idp.map (·.name)).getD [])).Within
        (Touches out moved) := (within_moveGroupMemberships _ _ _).mono fun _ _ => touches_of_regroups hmoved
    cases hidp : target.samlIdpId with
    | none =>
      rw [hidp] at hgroups
      exact within_bind (within_pure ()) fun _ => hgroups
    | some old =>
      rw [hidp] at hgroups
      refine within_bind (within_whenever fun _ => ?_) fun _ => hgroups
      exact within_write fun db => touches_of_issued rfl (le_refl _) rfl rfl

theorem within_inactivateUser (hout : out userId) :
    (inactivateUser user userId).Within (Touches out moved) := by
  intro db
  rcases (inactivateUser_spec).exec_or with hdb | ⟨-, hdb⟩
  · rw [hdb]
    exact Touches.refl out moved db
  · rw [hdb]
    exact touches_deactivate hout db

theorem within_anonymizeUser (hout : out userId) :
    (anonymizeUser user userId).Within (Touches out moved) := by
  have hguard : (requireRemovable user userId "anonymize" "anonymization" (·.isAnonymized)).Within
      (Touches out moved) :=
    .orRaise fun _ => .require fun _ => .read fun _ => .require fun _ => .require fun _ => .read fun _ => within_require
  refine .require fun _ => within_bind hguard fun _ db => ?_
  -- revoking before the row is anonymized comes to the same as revoking after it
  have hcleared : Touches out moved db ((db.anonymizeUserEmails userId).deleteAllUserMfaData userId) :=
    touches_of_issued rfl (le_refl _) rfl rfl
  refine hcleared.trans ((touches_revokeAllUserTokens _ userId).trans ?_)
  refine (touches_anonymizeUser hout (noGrants_revokeAllUserTokens _ userId)).trans ?_
  exact (touches_consumeUserSessionClients _ userId).trans (touches_of_issued rfl (le_refl _) rfl rfl)

theorem within_updateUser_of {R : Db → Db → Prop} [Std.Refl R] [IsTrans Db R]
    (hnames : ∀ first last, (tx (·.updateUserProfile userId first last)).Within R)
    (hrole : ∀ role ∈ update.role, ∀ db : Db, R db (db.updateUserRole userId role)) :
    (updateUser user userId update).Within R := by
  refine .require fun _ => .orRaise fun target => ?_
  cases hupdate : update.role with
  | none => exact within_bind (within_whenever fun _ => hnames _ _) fun _ => within_pure ()
  | some role =>
    refine within_bind ?_ fun _ => within_bind (within_whenever fun _ => hnames _ _) fun _ =>
      within_write (hrole role hupdate)
    exact .require fun _ => .read fun _ => within_require

theorem within_updateUser (hout : (∃ role ∈ update.role, role ≠ .superAdmin) → out userId) :
    (updateUser user userId update).Within (Touches out moved) := by
  refine within_updateUser_of within_updateUserProfile fun role hrole db => ?_
  by_cases hsuper : role = .superAdmin
  · exact touches_updateUser (fun _ => rfl) (.inr fun _ => ⟨fun _ => hsuper, id⟩) (.inr fun _ => id)
  · exact touches_updateUser (fun _ => rfl) (.inl (hout ⟨role, hrole, hsuper⟩)) (.inr fun _ => id)

theorem within_deleteUser (hout : out userId) (hmoved : moved userId) :
    (deleteUser user userId).Within (Touches out moved) := by
  refine .require fun _ => .orRaise fun target => ?_
  refine .read fun _ => .require fun _ => ?_
  refine .require fun _ => ?_
  refine within_bind (within_write fun db => touches_consumeUserSessionClients db userId) fun _ => ?_
  exact within_tx fun db _ db' h => touches_deleteUser hout hmoved h

theorem within_bulkInactivateUser (hout : out userId) :
    (bulkInactivateUser createdBy userId).Within (Touches out moved) := by
  refine .read fun target => .read fun _ => ?_
  refine .read fun _ => ?_
  cases target with
  | none => exact within_pure _
  | some target =>
    dsimp only
    split_ifs
    · exact within_pure _
    · exact within_pure _
    · exact within_pure _
    · exact within_pure _
    · exact within_bind (within_write fun db => touches_deactivate hout db) fun _ => within_pure _

theorem within_handleBulkInactivateUsers (hout : ∀ u ∈ userIds, out u) :
    (handleBulkInactivateUsers createdBy userIds).Within (Touches out moved) := by
  induction userIds with
  | nil => exact within_pure _
  | cons userId userIds ih =>
    refine within_bind (within_bulkInactivateUser (hout userId mem_cons_self)) fun _ => ?_
    refine within_bind (ih fun u hu => ?_) fun _ => within_pure _
    exact hout u (mem_cons_of_mem userId hu)

theorem touches_inactivateIdleUsers {lastActivityAt : Id → Option Nat} {thresholdDays : Nat}
    (hout : ∀ u ∈ db.getIdleUsersForTenant lastActivityAt thresholdDays, out u.id) :
    Touches out moved db ((inactivateIdleUsers lastActivityAt thresholdDays).exec db) := by
  have hall : (forEach ((db.getIdleUsersForTenant lastActivityAt thresholdDays).map (·.id)) fun userId =>
      (write (·.deactivate userId) : Service Unit)).Within (Touches out moved) := by
    refine within_forEach fun userId hmem => within_write fun db => ?_
    obtain ⟨u, hu, rfl⟩ := mem_map.mp hmem
    exact touches_deactivate (hout u hu) db
  exact (within_bind hall fun _ => within_pure _) db

theorem touches_endOidcSession (db : Db) {sid : Id} : Touches out moved db (db.endOidcSession sid) := by
  have hrevoked : (db.revokeSession sid).directory = db.directory ∧ (db.revokeSession sid).issued = db.issued ∧
      (db.revokeSession sid).now = db.now ∧ (db.revokeSession sid).nextId = db.nextId := by
    unfold Db.revokeSession
    split_ifs <;> exact ⟨rfl, rfl, rfl, rfl⟩
  obtain ⟨hdirectory, hissued, hnow, hnext⟩ := hrevoked
  have hrevoke : Touches out moved db ((db.revokeSession sid).deleteIdpSession sid) :=
    touches_of_issued hnow (le_of_eq hnext.symm) hdirectory hissued
  exact (hrevoke.trans touches_consumeSessionClients).trans touches_deleteTokens

theorem within_unlinkUserFromConnection {connectionId : Id} (hout : out userId) :
    (unlinkUserFromConnection user userId connectionId).Within (Touches out moved) := by
  refine .require fun _ => .orRaise fun _ => ?_
  refine .orRaise fun _ => .orRaise fun _ => ?_
  refine within_bind (within_write fun db => touches_of_issued rfl (le_refl _) rfl rfl) fun _ => ?_
  refine within_bind (within_write fun db => touches_of_issued rfl (le_refl _) rfl rfl) fun _ => ?_
  refine within_bind (within_write fun db => touches_of_issued rfl (le_refl _) rfl rfl) fun _ => ?_
  refine .read fun sessions => within_bind ?_ fun _ => within_iff_ensures.mpr fun db => ?_
  · exact within_forEach fun sid _ => within_write fun db => touches_endOidcSession db
  -- the tokens are gone by the time the last link decides about the inactivation
  have hrevoke : Touches out moved db (db.revokeAllUserTokens userId) := touches_revokeAllUserTokens db userId
  refine .write (.read (ensures_whenever.mpr ⟨fun _ => ?_, fun _ => hrevoke⟩))
  have hgrants : ((db.revokeAllUserTokens userId).unverifyUserEmails userId).NoGrants userId :=
    (noGrants_revokeAllUserTokens db userId).of_subset (List.Subset.refl _) (List.Subset.refl _)
  refine hrevoke.trans ((touches_unverifyUserEmails _ userId).trans ?_)
  exact (touches_inactivateUser hout hgrants).trans (touches_consumeUserSessionClients _ userId)

section Scim

open Scim

theorem within_replaceUser (hout : extractActive payload = .ok (some false) → out userId) :
    (replaceUser env idpId userId payload).Within (Touches out moved) := by
  refine .lookup fun _ => .orRaise fun existing => ?_
  refine within_iff_ensures.mpr fun db => .lookup (fun active hactive => ?_) fun _ _ => Touches.refl out moved db
  refine ((within_bind writes_updateUserProfile fun _ => ?_ : Within (Writes out moved userId) _) db).1
  refine within_bind writes_writeExternalId fun _ => .lookup fun extras => ?_
  refine within_bind writes_mirrorAttributes fun _ => ?_
  refine within_bind (writes_handleActiveTransition fun h => hout (h ▸ hactive)) fun _ => ?_
  exact within_orRaise

def PatchesInactive (env : Env) (patchBody : Json) : Prop :=
  ∃ ops payload, patchOperations patchBody = .ok ops ∧ accumulate env [] ops = .ok payload ∧
    extractActive payload = .ok (some false)

theorem within_patchUser {patchBody : Json} (hout : PatchesInactive env patchBody → out userId) :
    (patchUser env idpId userId patchBody).Within (Touches out moved) := by
  refine .orRaise fun existing => within_iff_ensures.mpr fun db => ?_
  refine .lookup (fun ops hops => ?_) fun _ _ => Touches.refl out moved db
  refine .lookup (fun payload hpayload => ?_) fun _ _ => Touches.refl out moved db
  refine ((within_bind (within_whenever fun _ => ?_) fun _ => within_orRaise : Within (Writes out moved userId) _) db).1
  refine within_bind writes_applyPayloadWrites fun _ => within_iff_ensures.mpr fun db => ?_
  refine .lookup (fun active hactive => ?_) fun _ _ => refl_of _ db
  refine writes_handleActiveTransition (fun h => hout ?_) db
  exact ⟨ops, payload, hops, hpayload, h ▸ hactive⟩

theorem within_softDeleteUser (hout : out userId) : (softDeleteUser idpId userId).Within (Touches out moved) := by
  refine .orRaise fun existing => within_whenever fun _ => ?_
  exact fun db => touches_deactivate hout db

theorem createUserFromScim_writes {email first last externalId : Option Text} :
    (createUserFromScim env idpId email first last externalId).Ensures db fun r db' =>
      Writes out moved db.nextId db db' ∧ ∀ userId, r = .ok userId → userId = db.nextId := by
  cases email with
  | none => exact ⟨refl_of _ db, fun _ h => by cases h⟩
  | some email =>
    refine ensures_bind.mpr (ensures_tx.mpr ⟨fun id db' h => ?_, fun e _ => ⟨refl_of _ db, fun _ h => by cases h⟩⟩)
    have htouches : Touches out moved db db' := (touches_createUser h).1
    obtain ⟨rfl, rfl⟩ := Db.createUser_eq_ok h
    constructor
    · refine trans_of _ ⟨htouches, enrolls_of_eq rfl rfl⟩ ((within_bind writes_addVerifiedEmail fun _ =>
        within_bind writes_setUserIdp fun _ => ?_ : Within (Writes out moved db.nextId) _) _)
      cases externalId with
      | none => exact within_pure _
      | some => exact within_bind writes_setExternalId fun _ => within_pure _
    · refine fun userId => returns_bind (P := (· = db.nextId)) (fun _ => returns_bind fun _ => ?_) _ userId
      cases externalId with
      | none => exact returns_pure rfl
      | some => exact returns_bind fun _ => returns_pure rfl

/-- The user is one that a POST can be merged into: by its `externalId` or by its primary address. -/
def MayMerge (env : Env) (db : Db) (idpId : Id) (payload : Json.Dict) (userId : Id) : Prop :=
  (∃ r ∈ db.userIdpAttributes, r.userId = userId ∧ r.idpId = idpId ∧ r.attributeKey = externalIdKey ∧
    extractExternalId payload = some r.value) ∨
  ∃ e ∈ db.userEmails, e.userId = userId ∧ e.isPrimary ∧
    ∃ email, extractPrimaryEmail env payload = .ok (some email) ∧ Db.sameEmail env e.email email

theorem mayMerge_of_findUserForMerge {email : Option Text}
    (hemail : extractPrimaryEmail env payload = .ok email)
    (h : findUserForMerge env db idpId (extractExternalId payload) email = some userId) :
    MayMerge env db idpId payload userId := by
  rcases (Option.orElse_eq_some _ _ _).mp h with hexternal | ⟨-, hprimary⟩
  · obtain ⟨externalId, hid, hrow⟩ := Option.bind_eq_some_iff.mp hexternal
    obtain ⟨r, hr, rfl⟩ := Option.map_eq_some_iff.mp hrow
    have hmatch := find?_some hr
    simp only [decide_eq_true_eq] at hmatch
    exact .inl ⟨r, mem_of_find?_eq_some hr, rfl, hmatch.1, hmatch.2.1, by rw [hid, hmatch.2.2]⟩
  · obtain ⟨address, rfl, hrow⟩ := Option.bind_eq_some_iff.mp hprimary
    obtain ⟨e, he, rfl⟩ := Option.map_eq_some_iff.mp hrow
    have hmatch := find?_some he
    simp only [decide_eq_true_eq] at hmatch
    exact .inr ⟨e, mem_of_find?_eq_some he, rfl, hmatch.2.1, address, hemail, hmatch.1⟩

theorem MayMerge.of_enrolls {db' : Db} {v : Id} (h : Enrolls userId db db')
    (hv : MayMerge env db' idpId payload v) : MayMerge env db idpId payload v ∨ v = userId := by
  rcases hv with ⟨r, hr, rfl, hrow⟩ | ⟨e, he, rfl, hrow⟩
  · exact (h.attributes r hr).imp (fun hr => .inl ⟨r, hr, rfl, hrow⟩) id
  · exact (h.emails e he).imp (fun he => .inr ⟨e, he, rfl, hrow⟩) id

theorem createOrMergeUserAttempt_writes
    (hout : ∀ v, extractActive payload = .ok (some false) → MayMerge env db idpId payload v ∨ v = db.nextId → out v) :
    (createOrMergeUserAttempt env idpId payload).Ensures db fun _ db' =>
      ∃ userId, (MayMerge env db idpId payload userId ∨ userId = db.nextId) ∧ Writes out moved userId db db' := by
  have hnone : ∃ userId, (MayMerge env db idpId payload userId ∨ userId = db.nextId) ∧ Writes out moved userId db db :=
    ⟨db.nextId, .inr rfl, refl_of _ db⟩
  refine .lookup (fun _ _ => ?_) fun _ _ => hnone
  refine .lookup (fun email hemail => ?_) fun _ _ => hnone
  refine .lookup (fun names _ => ?_) fun _ _ => hnone
  refine .lookup (fun active hactive => .read ?_) fun _ _ => hnone
  have hfinish : ∀ userId updateNames isNew, (extractActive payload = .ok (some false) → out userId) → (do
      applyPayloadWrites env idpId userId payload updateNames
      handleActiveTransition userId active
      let resource ← resolveUserPayload idpId userId
      pure (resource, isNew) : Service (UserResource × Bool)).Within (Writes out moved userId) := by
    intro userId updateNames isNew hinactive
    refine within_bind writes_applyPayloadWrites fun _ => ?_
    refine within_bind (writes_handleActiveTransition fun h => hinactive (h ▸ hactive)) fun _ => ?_
    exact .orRaise fun _ => within_pure _
  cases hfound : findUserForMerge env db idpId (extractExternalId payload) email with
  | none =>
    refine createUserFromScim_writes.bind (fun userId db' h => ?_) fun _ _ h => ⟨_, .inr rfl, h.1⟩
    obtain ⟨hwrites, hid⟩ := h
    obtain rfl := hid userId rfl
    refine ⟨_, .inr rfl, trans_of _ hwrites (hfinish db.nextId _ _ (fun hinactive => ?_) db')⟩
    exact hout _ hinactive (.inr rfl)
  | some userId =>
    have hmay := mayMerge_of_findUserForMerge hemail hfound
    refine ⟨userId, .inl hmay, (.read fun existing => ?_ : Within (Writes out moved userId) _) db⟩
    refine within_bind (within_whenever fun _ => writes_setUserIdp) fun _ => ?_
    exact hfinish userId _ _ fun hinactive => hout _ hinactive (.inl hmay)

theorem touches_createOrMergeUser
    (hout : ∀ v, extractActive payload = .ok (some false) → MayMerge env db idpId payload v ∨ db.nextId ≤ v → out v) :
    Touches out moved db ((createOrMergeUser env idpId payload).exec db) := by
  have hle : ∀ v, v = db.nextId → db.nextId ≤ v := fun _ h => le_of_eq h.symm
  have hattempt : (createOrMergeUserAttempt env idpId payload).Ensures db fun _ db' => ∃ userId,
      (MayMerge env db idpId payload userId ∨ userId = db.nextId) ∧ Writes out moved userId db db' :=
    createOrMergeUserAttempt_writes fun v hinactive hv => hout v hinactive (hv.imp_right (hle v))
  change (rescue _ _).Ensures db fun _ db' => Touches out moved db db'
  rw [ensures_rescue]
  refine hattempt.mono fun r db' h => ?_
  obtain ⟨t, ht, hfirst, henrolls⟩ := h
  rcases r with e | a
  · rcases e with _ | _ | _ | _ | _ | ⟨_ | _ | _ | _ | _⟩ | _
    -- only a violated unique constraint is tried again
    case database.uniqueViolation =>
      have hagain : (createOrMergeUserAttempt env idpId payload).Ensures db' fun _ db'' => ∃ userId, _ ∧
          Writes out moved userId db' db'' := createOrMergeUserAttempt_writes fun v hinactive hv => ?_
      · obtain ⟨_, -, hsecond, -⟩ := hagain
        exact hfirst.trans hsecond
      · refine hout v hinactive ?_
        rcases hv with hv | rfl
        · rcases hv.of_enrolls henrolls with hv | rfl
          · exact .inl hv
          · exact ht.imp_right (hle v)
        · exact .inr hfirst.nextId_le
    all_goals exact hfirst
  · exact hfirst

end Scim

end Calls

inductive LifecycleCall
  | updateUser (user : RequestingUser) (userId : Id) (update : UserUpdate)
  | inactivateUser (user : RequestingUser) (userId : Id)
  | anonymizeUser (user : RequestingUser) (userId : Id)
  | deleteUser (user : RequestingUser) (userId : Id)
  | bulkInactivateUsers (createdBy : Id) (userIds : List Id)
  | inactivateIdleUsers (lastActivityAt : Id → Option Nat) (thresholdDays : Nat)
  | assignUserIdp (user : RequestingUser) (userId : Id) (samlIdpId : Option Id) (scrubMirroredAttributes : Bool)
  | unlinkUserFromConnection (user : RequestingUser) (userId connectionId : Id)
  | createOrMergeUser (idpId : Id) (payload : Json.Dict)
  | replaceUser (idpId userId : Id) (payload : Json.Dict)
  | patchUser (idpId userId : Id) (patchBody : Json)
  | softDeleteUser (idpId userId : Id)

namespace LifecycleCall

variable (env : Env)

def exec (db : Db) : LifecycleCall → Db
  | .updateUser user userId update => (WeftId.updateUser user userId update).exec db
  | .inactivateUser user userId => (WeftId.inactivateUser user userId).exec db
  | .anonymizeUser user userId => (WeftId.anonymizeUser user userId).exec db
  | .deleteUser user userId => (WeftId.deleteUser user userId).exec db
  | .bulkInactivateUsers createdBy userIds => (handleBulkInactivateUsers createdBy userIds).exec db
  | .inactivateIdleUsers lastActivityAt days => (WeftId.inactivateIdleUsers lastActivityAt days).exec db
  | .assignUserIdp user userId samlIdpId scrub => (WeftId.assignUserIdp user userId samlIdpId scrub).exec db
  | .unlinkUserFromConnection user userId connectionId =>
    (WeftId.unlinkUserFromConnection user userId connectionId).exec db
  | .createOrMergeUser idpId payload => (Scim.createOrMergeUser env idpId payload).exec db
  | .replaceUser idpId userId payload => (Scim.replaceUser env idpId userId payload).exec db
  | .patchUser idpId userId patchBody => (Scim.patchUser env idpId userId patchBody).exec db
  | .softDeleteUser idpId userId => (Scim.softDeleteUser idpId userId).exec db

def TakesOut (db : Db) : LifecycleCall → Id → Prop
  | .updateUser _ userId update, v => (∃ role ∈ update.role, role ≠ .superAdmin) ∧ v = userId
  | .inactivateUser _ userId, v | .anonymizeUser _ userId, v | .deleteUser _ userId, v
  | .unlinkUserFromConnection _ userId _, v | .softDeleteUser _ userId, v => v = userId
  | .bulkInactivateUsers _ userIds, v => v ∈ userIds
  | .inactivateIdleUsers lastActivityAt days, v => ∃ u ∈ db.getIdleUsersForTenant lastActivityAt days, u.id = v
  | .assignUserIdp _ userId samlIdpId _, v => samlIdpId = none ∧ v = userId
  | .createOrMergeUser idpId payload, v => Scim.extractActive payload = .ok (some false) ∧
      (MayMerge env db idpId payload v ∨ db.nextId ≤ v)
  | .replaceUser _ userId payload, v => Scim.extractActive payload = .ok (some false) ∧ v = userId
  | .patchUser _ userId patchBody, v => PatchesInactive env patchBody ∧ v = userId

def Moves : LifecycleCall → Id → Prop
  | .deleteUser _ userId, v | .assignUserIdp _ userId _ _, v => v = userId
  | _, _ => False

theorem touches_exec (call : LifecycleCall) (db : Db) :
    Touches (call.TakesOut env db) call.Moves db (call.exec env db) := by
  cases call with
  | updateUser => exact within_updateUser (by exact fun h => ⟨h, rfl⟩) db
  | inactivateUser => exact within_inactivateUser (by exact rfl) db
  | anonymizeUser => exact within_anonymizeUser (by exact rfl) db
  | deleteUser => exact within_deleteUser (by exact rfl) (by exact rfl) db
  | bulkInactivateUsers =>
    exact within_handleBulkInactivateUsers (by exact fun _ h => h) db
  | inactivateIdleUsers =>
    exact touches_inactivateIdleUsers fun u hu => ⟨u, hu, rfl⟩
  | assignUserIdp =>
    exact within_assignUserIdp (by exact fun h => ⟨h, rfl⟩) (by exact rfl) db
  | unlinkUserFromConnection =>
    exact within_unlinkUserFromConnection (by exact rfl) db
  | createOrMergeUser => exact touches_createOrMergeUser fun _ h h' => ⟨h, h'⟩
  | replaceUser => exact within_replaceUser (by exact fun h => ⟨h, rfl⟩) db
  | patchUser => exact within_patchUser (by exact fun h => ⟨h, rfl⟩) db
  | softDeleteUser => exact within_softDeleteUser (by exact rfl) db

end LifecycleCall

end WeftId
