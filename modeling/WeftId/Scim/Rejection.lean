import WeftId.Scim.GroupRejection
import WeftId.Scim.UserWrite

/-!
What a rejected SCIM write leaves behind.  A PATCH of a user writes its payload before it looks at the type of
`active`; a PUT of a user is rejected only before its first write.
-/

namespace WeftId.Scim

open KeyedRows List Proc

variable {α : Type} {x : Service α}

section Users

variable {env : Env} {db db' : Db} {idpId userId : Id} {user : User} {e : Error} {P : Db → Prop} {payload : Json.Dict}
  {extras : List (Text × Text)}

/-- A call that ends in `P` or raises something else than a `ScimWriteError`. -/
def Quietly {α : Type} (P : Db → Prop) : Except Error α → Db → Prop
  | .ok _, db => P db
  | .error e, _ => ¬ e.IsScim

theorem Quietly.bind {β : Type} {f : α → Service β} {Q : Db → Prop} (hx : x.Ensures db (Quietly P))
    (hf : ∀ a db', P db' → (f a).Ensures db' (Quietly Q)) : (x >>= f).Ensures db (Quietly Q) :=
  Ensures.bind hx hf fun _ _ h => h

theorem quietly_tx {f : Db → Except DbError (α × Db)}
    (h : ∀ a db', f db = .ok (a, db') → P db') : (tx f).Ensures db (Quietly P) :=
  ensures_tx.mpr ⟨h, fun _ _ he => he⟩

def Bound (idpId userId : Id) (db : Db) : Prop :=
  (db.getUserById userId).isSome ∧ (db.getUserForIdp idpId userId).isSome

theorem bound_of_findUser (h : findUser db idpId userId = some user) : Bound idpId userId db := by
  obtain ⟨hget, hidp⟩ := Option.filter_eq_some_iff.mp h
  refine ⟨by rw [hget]; rfl, find?_isSome.mpr ⟨user, mem_of_find?_eq_some hget, ?_⟩⟩
  have hid : user.id = userId := by simpa using find?_some hget
  simpa [hid] using hidp

theorem Bound.updateUser {f : User → User} (hid : ∀ u, (f u).id = u.id) (hidp : ∀ u, (f u).samlIdpId = u.samlIdpId)
    (target : Id) (h : Bound idpId userId db) : Bound idpId userId (db.updateUser target f) := by
  refine ⟨by rw [Db.isSome_getUserById_updateUser hid]; exact h.1, ?_⟩
  have hfound := h.2
  obtain ⟨u, hu, hmatch⟩ := find?_isSome.mp hfound
  refine find?_isSome.mpr ⟨_, mem_map.mpr ⟨u, hu, rfl⟩, ?_⟩
  by_cases htarget : u.id = target
  · simpa [htarget, hid, hidp] using hmatch
  · simpa [htarget] using hmatch

def writtenExternalId (db : Db) (idpId userId : Id) : Option Text → Db
  | some externalId => db.upsertUserIdpAttribute userId idpId externalIdKey externalId
  | none => db

theorem writeExternalId_spec : (writeExternalId idpId userId payload).Ensures db
      (Quietly (· = writtenExternalId db idpId userId (extractExternalId payload))) := by
  unfold writeExternalId
  cases extractExternalId payload with
  | none => exact rfl
  | some =>
    refine quietly_tx fun a db' hset => ?_
    unfold Db.setExternalId at hset
    split_ifs at hset
    exact (Except.ok_snd hset).symm

def writtenAttributes (env : Env) (db : Db) (idpId userId : Id) (extras : List (Text × Text)) : Db :=
  if (db.getIdentityProvider idpId).isSome then db.replaceIdpAttributes userId idpId (serializedAttributes env extras)
  else db

theorem mirrorAttributes_apply (h : (db.getUserById userId).isSome) :
    mirrorAttributes env idpId userId extras db = (.ok (), writtenAttributes env db idpId userId extras) := by
  obtain ⟨user, hget⟩ := Option.isSome_iff_exists.mp h
  unfold mirrorAttributes applyIdpAttributes writtenAttributes
  cases hidp : db.getIdentityProvider idpId with
  | none => simp [rescue, orRaise, hidp, Bind.bind]
  | some idp => simp [rescue, orRaise, hidp, Bind.bind, tx, transaction, hget, Except.mapError]

theorem Bound.writtenExternalId (h : Bound idpId userId db) (externalId : Option Text) :
    Bound idpId userId (writtenExternalId db idpId userId externalId) := by
  cases externalId with
  | none => exact h
  | some => exact h

theorem Bound.writtenAttributes (h : Bound idpId userId db) (env : Env) (extras : List (Text × Text)) :
    Bound idpId userId (writtenAttributes env db idpId userId extras) := by
  unfold Scim.writtenAttributes
  split_ifs
  · rw [replaceIdpAttributes_eq]
    exact h
  · exact h

def writtenNames (db : Db) (user : User) (names : Option Text × Option Text) : Db :=
  if names.1 ≠ none ∨ names.2 ≠ none then
    db.updateUser user.id fun u => { u with
      firstName := names.1.getD user.firstName, lastName := names.2.getD user.lastName }
  else db

theorem not_isScim_of_stripped {value : Json} (h : stripped value = .error e) : ¬ e.IsScim := by
  unfold stripped at h
  split at h
  · cases h
  · obtain rfl := Except.error.inj h
    exact fun h => h

theorem not_isScim_of_extractNames (h : extractNames payload = .error e) : ¬ e.IsScim := by
  unfold extractNames at h
  split at h
  · rename_i name _
    cases hfirst : stripped (Json.field name "givenName") with
    | error e' =>
      obtain rfl : e' = e := by simpa [hfirst, bind, Except.bind] using h
      exact not_isScim_of_stripped hfirst
    | ok first =>
      cases hlast : stripped (Json.field name "familyName") with
      | error e' =>
        obtain rfl : e' = e := by simpa [hfirst, hlast, bind, Except.bind] using h
        exact not_isScim_of_stripped hlast
      | ok last =>
        simp only [hfirst, hlast, bind, Except.bind, pure, Except.pure] at h
        split_ifs at h
  · cases h

theorem not_isScim_of_copyPhones {phones : List Json} {out : List (Text × Text)}
    (h : copyPhones env phones out = .error e) : ¬ e.IsScim := by
  fun_induction copyPhones env phones out with
  | case1 => cases h
  | _ => first | (rename_i ih; exact ih h) | (cases h; exact fun h => h)

theorem not_isScim_of_extractStandardAttributes
    (h : extractStandardAttributes env payload = .error e) : ¬ e.IsScim := by
  unfold extractStandardAttributes at h
  dsimp only at h
  split at h
  · exact not_isScim_of_copyPhones h
  · cases h

theorem writeNames_spec (h : db.getUserById userId = some user) : (writeNames userId payload).Ensures db
      (Quietly fun db' => ∃ names, extractNames payload = .ok names ∧ db' = writtenNames db user names) := by
  refine .lookup (fun names hnames => ?_) fun e he => not_isScim_of_extractNames he
  have hid : user.id = userId := by simpa using find?_some h
  refine ensures_whenever.mpr ⟨fun hgiven => ?_, fun hnone => ⟨names, hnames, (if_neg hnone).symm⟩⟩
  refine .read (quietly_tx fun a db' hupdate => ⟨names, hnames, ?_⟩)
  rw [h] at hupdate
  rw [Db.updateUserProfile_eq_ok hupdate, writtenNames, if_pos hgiven, hid]
  rfl

theorem isSome_getUserById_writtenNames (names : Option Text × Option Text) (a : Id) :
    ((writtenNames db user names).getUserById a).isSome = (db.getUserById a).isSome := by
  unfold writtenNames
  by_cases hgiven : names.1 ≠ none ∨ names.2 ≠ none
  · rw [if_pos hgiven]
    exact Db.isSome_getUserById_updateUser fun _ => rfl
  · rw [if_neg hgiven]

def payloadWritten (env : Env) (db : Db) (idpId userId : Id) (payload : Json.Dict) (extras : List (Text × Text)) : Db :=
  let db := writtenExternalId db idpId userId (extractExternalId payload)
  if extras ≠ [] then writtenAttributes env db idpId userId extras else db

theorem payloadWritten_eq (env : Env) (db : Db) (idpId userId : Id) (payload : Json.Dict)
    (extras : List (Text × Text)) :
    payloadWritten env db idpId userId payload extras =
      if extras ≠ [] ∧ (db.getIdentityProvider idpId).isSome then
        db.replaceIdpAttributes userId idpId (serializedAttributes env extras)
      else writtenExternalId db idpId userId (extractExternalId payload) := by
  unfold payloadWritten writtenAttributes
  rw [ite_and]
  cases extractExternalId payload with
  | none => rfl
  | some externalId =>
    have hkey : externalIdKey ∉ (serializedAttributes env extras).map (·.1) := fun h =>
      absurd (of_mem_filter ((keys_serializedAttributes env extras).subset h)) (by decide)
    dsimp only [writtenExternalId]
    rw [replaceIdpAttributes_upsert hkey]
    rfl

theorem payloadWritten_frame (env : Env) (idpId userId : Id) (payload : Json.Dict)
    (extras : List (Text × Text)) (db : Db) :
    ∃ userIdpAttributes userAttributes, payloadWritten env db idpId userId payload extras =
      { db with userIdpAttributes, userAttributes } := by
  rw [payloadWritten_eq]
  split_ifs
  · exact ⟨_, _, replaceIdpAttributes_eq⟩
  · cases extractExternalId payload <;> exact ⟨_, _, rfl⟩

theorem applyPayloadWrites_spec (env : Env) (payload : Json.Dict) (h : db.getUserById userId = some user) :
    (applyPayloadWrites env idpId userId payload true).Ensures db (Quietly fun db' => ∃ names extras,
      extractNames payload = .ok names ∧ extractStandardAttributes env payload = .ok extras ∧
        db' = payloadWritten env (writtenNames db user names) idpId userId payload extras) := by
  refine Quietly.bind (ensures_whenever.mpr ⟨fun _ => writeNames_spec h, fun hno => absurd rfl hno⟩) ?_
  rintro - db₁ ⟨names, hnames, rfl⟩
  refine writeExternalId_spec.bind ?_ fun _ _ he => he
  rintro - db₂ rfl
  refine .lookup (fun extras hextras => ?_) fun e he => not_isScim_of_extractStandardAttributes he
  refine ensures_whenever.mpr ⟨fun hgiven => ?_, fun hnone => ?_⟩
  · have huser : ((writtenExternalId (writtenNames db user names) idpId userId (extractExternalId payload)).getUserById
        userId).isSome := by
      have hnamed : ((writtenNames db user names).getUserById userId).isSome := by
        rw [isSome_getUserById_writtenNames, h]
        rfl
      cases extractExternalId payload <;> exact hnamed
    unfold Ensures
    rw [mirrorAttributes_apply huser]
    exact ⟨names, extras, hnames, hextras, by rw [payloadWritten, if_pos hgiven]⟩
  · exact ⟨names, extras, hnames, hextras, by rw [payloadWritten, if_neg hnone]⟩

theorem quietly_handleActiveTransition {newActive : Option Bool} (h : Bound idpId userId db) :
    (handleActiveTransition userId newActive).Ensures db (Quietly (Bound idpId userId)) := by
  cases newActive with
  | none => exact h
  | some =>
    refine .read ?_
    cases hget : db.getUserById userId with
    | none => exact h
    | some =>
      dsimp only
      split_ifs
      · have hbound : Bound idpId userId (db.inactivateUser userId) :=
          h.updateUser (fun u => by split_ifs <;> rfl) (fun u => by split_ifs <;> rfl) userId
        exact hbound
      · refine ensures_whenever.mpr ⟨fun _ => .write ((ensures_write _).mpr ?_), fun _ => h⟩
        refine Bound.updateUser (fun _ => by rfl) (fun _ => by rfl) userId ?_
        exact h.updateUser (fun u => by split_ifs <;> rfl) (fun u => by split_ifs <;> rfl) userId

theorem quietly_resolveUserPayload (h : Bound idpId userId db) :
    (resolveUserPayload idpId userId).Ensures db (Quietly (Bound idpId userId)) := by
  refine ensures_orRaise.mpr ⟨fun _ _ => h, fun hnone => ?_⟩
  have hfound := h.2
  rw [Option.map_eq_none_iff.mp hnone] at hfound
  cases hfound

theorem cleanRejection_of_quietly (h : x.Ensures db' (Quietly P)) : CleanRejection db (x db') := by
  intro e he hscim
  unfold Ensures at h
  rw [he] at h
  exact absurd hscim h

theorem replaceUser_cleanRejection : CleanRejection db (replaceUser env idpId userId payload db) := by
  have hensures : (replaceUser env idpId userId payload).Ensures db fun r db' =>
      ∀ e, r = .error e → e.IsScim → SameDirectory db db' := by
    have hunchanged : ∀ r : Except Error UserResource, ∀ e, r = .error e → e.IsScim → SameDirectory db db :=
      fun _ _ _ _ => .refl db
    refine .lookup (fun _ _ => ?_) fun e _ => hunchanged _
    refine .orRaise (hunchanged _) fun user huser => ?_
    refine .lookup (fun active _ => ?_) fun e _ => hunchanged _
    have hbound := bound_of_findUser huser
    refine Ensures.mono (Q := Quietly (Bound idpId userId)) ?_ fun r db' hr e he hscim => ?_
    · refine Quietly.bind (P := Bound idpId userId) (quietly_tx fun _ db' hupdate => ?_) fun _ db₁ h₁ => ?_
      · rw [Db.updateUserProfile_eq_ok hupdate]
        exact hbound.updateUser (fun _ => by rfl) (fun _ => by rfl) userId
      refine writeExternalId_spec.bind ?_ fun _ _ he => he
      rintro - db₂ rfl
      refine .lookup (fun extras _ => ?_) fun e he => not_isScim_of_extractStandardAttributes he
      have h₂ := h₁.writtenExternalId (extractExternalId payload)
      refine Quietly.bind (P := Bound idpId userId) ?_ fun _ db₃ h₃ => ?_
      · unfold Ensures
        rw [mirrorAttributes_apply h₂.1]
        exact h₂.writtenAttributes env extras
      exact (quietly_handleActiveTransition h₃).bind (fun _ _ h₄ => quietly_resolveUserPayload h₄) fun _ _ he => he
    · subst he
      exact absurd hscim hr
  exact hensures

def NamesStored (db : Db) (user : User) (names : Option Text × Option Text) : Prop :=
  names.1 ≠ none ∨ names.2 ≠ none → ∀ u ∈ db.users, u.id = user.id →
    u.firstName = names.1.getD user.firstName ∧ u.lastName = names.2.getD user.lastName

/-- The rows that a payload gives are those the tables have.  Attributes take away the rows of the keys that the
payload leaves out, `externalId` among them. -/
def AttributesStored (env : Env) (db : Db) (idpId userId : Id) (payload : Json.Dict) (extras : List (Text × Text)) :
    Prop :=
  if extras ≠ [] ∧ (db.getIdentityProvider idpId).isSome then
    let sent := serializedAttributes env extras
    (∀ r ∈ db.userIdpAttributes, r.userId = userId → r.idpId = idpId → r.attributeKey ∈ sent.map (·.1)) ∧
      (∀ row ∈ sent, Stored UserIdpAttribute.key (sentRow userId idpId row) db.userIdpAttributes) ∧
      ∀ row ∈ mirrorWrites db sent, Stored UserAttribute.key (mirroredRow userId row) db.userAttributes
  else ∀ externalId ∈ extractExternalId payload,
    Stored UserIdpAttribute.key (sentRow userId idpId (externalIdKey, externalId)) db.userIdpAttributes

theorem attributes_replaceIdpAttributes_iff {sent : List (Text × Text)} (h : (sent.map (·.1)).Nodup) :
    (db.replaceIdpAttributes userId idpId sent).userIdpAttributes = db.userIdpAttributes ∧
        (db.replaceIdpAttributes userId idpId sent).userAttributes = db.userAttributes ↔
      (∀ r ∈ db.userIdpAttributes, r.userId = userId → r.idpId = idpId → r.attributeKey ∈ sent.map (·.1)) ∧
        (∀ row ∈ sent, Stored UserIdpAttribute.key (sentRow userId idpId row) db.userIdpAttributes) ∧
        ∀ row ∈ mirrorWrites db sent, Stored UserAttribute.key (mirroredRow userId row) db.userAttributes := by
  have hsent : ((sent.map (sentRow userId idpId)).map UserIdpAttribute.key).Nodup := by
    refine .of_map (·.2.2) ?_
    rw [map_map, map_map]
    exact h
  have hmirrored : (((mirrorWrites db sent).map (mirroredRow userId)).map UserAttribute.key).Nodup := by
    refine .of_map (·.2) ?_
    rw [map_map, map_map]
    exact h.sublist (filter_sublist.map _)
  rw [replaceIdpAttributes_eq, ← and_assoc]
  refine and_congr ((storeAll_filter_eq_self_iff hsent ?_).trans (and_congr ?_ forall_mem_map))
    ((storeAll_eq_self_iff hmirrored).trans forall_mem_map)
  · intro row hrow
    obtain ⟨e, he, rfl⟩ := mem_map.mp hrow
    have hkey := mem_map_of_mem (f := Prod.fst) he
    exact decide_eq_true fun hdropped => hdropped.2.2 hkey
  · simp only [decide_eq_true_eq, not_and, not_not]

theorem attributes_payloadWritten_iff
    (h : extractStandardAttributes env payload = .ok extras) :
    (payloadWritten env db idpId userId payload extras).userIdpAttributes = db.userIdpAttributes ∧
        (payloadWritten env db idpId userId payload extras).userAttributes = db.userAttributes ↔
      AttributesStored env db idpId userId payload extras := by
  rw [payloadWritten_eq, AttributesStored]
  split_ifs
  · exact attributes_replaceIdpAttributes_iff
      (((nodup_extractStandardAttributes h).filter _).sublist (keys_serializedAttributes env extras))
  · cases extractExternalId payload with
    | none => exact iff_of_true ⟨rfl, rfl⟩ (by simp)
    | some externalId =>
      simp only [Option.mem_some_iff, forall_eq', ← store_eq_self_iff]
      exact and_iff_left rfl

theorem writtenNames_frame (names : Option Text × Option Text) :
    ∃ users, writtenNames db user names = { db with users } := by
  unfold writtenNames
  split_ifs
  · exact ⟨_, rfl⟩
  · exact ⟨_, rfl⟩

theorem users_writtenNames_iff (names : Option Text × Option Text) :
    (writtenNames db user names).users.map (fun u => (u.id, u.firstName, u.lastName, u.isInactivated)) =
        db.users.map (fun u => (u.id, u.firstName, u.lastName, u.isInactivated)) ↔ NamesStored db user names := by
  unfold writtenNames
  by_cases hgiven : names.1 ≠ none ∨ names.2 ≠ none
  · rw [if_pos hgiven, Db.updateUser, map_map, map_inj_left]
    refine ⟨fun h _ u hu hid => ?_, fun h u hu => ?_⟩
    · have heq := h u hu
      simp only [Function.comp_apply, if_pos hid, Prod.mk.injEq] at heq
      exact ⟨heq.2.1.symm, heq.2.2.1.symm⟩
    · by_cases hid : u.id = user.id
      · simp [if_pos hid, h hgiven u hu hid]
      · simp [if_neg hid]
  · rw [if_neg hgiven]
    exact iff_of_true rfl fun h => absurd h hgiven

theorem sameDirectory_payloadWritten_iff (names : Option Text × Option Text)
    (h : extractStandardAttributes env payload = .ok extras) :
    SameDirectory db (payloadWritten env (writtenNames db user names) idpId userId payload extras) ↔
      NamesStored db user names ∧ AttributesStored env db idpId userId payload extras := by
  have hattributes := @attributes_payloadWritten_iff env (writtenNames db user names) idpId userId payload extras h
  rw [← users_writtenNames_iff]
  obtain ⟨users, husers⟩ := @writtenNames_frame db user names
  rw [husers] at hattributes ⊢
  obtain ⟨rows, values, hframe⟩ := payloadWritten_frame env idpId userId payload extras { db with users }
  rw [hframe] at hattributes ⊢
  refine Iff.trans ⟨fun h => ?_, fun h => ?_⟩ (and_congr_right fun _ => hattributes)
  · exact ⟨h.users, h.userIdpAttributes, h.userAttributes⟩
  · exact ⟨rfl, fun _ => Iff.rfl, h.1, h.2.1, h.2.2⟩

/-- What a PATCH whose `active` is refused would have written is what is stored. -/
def PatchUserAllOrNothing (env : Env) (db : Db) (idpId userId : Id) (patchBody : Json) : Prop :=
  ∀ user ops payload names extras, findUser db idpId userId = some user → patchOperations patchBody = .ok ops →
    accumulate env [] ops = .ok payload → extractActive payload = .error activeMustBeBoolean →
    (applyPayloadWrites env idpId userId payload true db).1 = .ok () → extractNames payload = .ok names →
    extractStandardAttributes env payload = .ok extras →
      NamesStored db user names ∧ AttributesStored env db idpId userId payload extras

theorem extractActive_eq_error (h : extractActive payload = .error e) : e = activeMustBeBoolean ∧ payload ≠ [] := by
  refine ⟨?_, ?_⟩
  · unfold extractActive at h
    split at h
    · cases h
    · cases h
    · exact (Except.error.inj h).symm
  · rintro rfl
    cases h

def patchWrites (env : Env) (idpId userId : Id) (payload : Json.Dict) : Service UserResource := do
  whenever (¬ payload.isEmpty) do
    applyPayloadWrites env idpId userId payload true
    let active ← lookup fun _ => extractActive payload
    handleActiveTransition userId active
  resolveUserPayload idpId userId

theorem Bound.payloadWritten (h : Bound idpId userId db) (env : Env)
    (names : Option Text × Option Text) (payload : Json.Dict) (extras : List (Text × Text)) :
    Bound idpId userId (payloadWritten env (writtenNames db user names) idpId userId payload extras) := by
  have hnames : Bound idpId userId (writtenNames db user names) := by
    unfold writtenNames
    split_ifs
    · exact h.updateUser (fun _ => by rfl) (fun _ => by rfl) user.id
    · exact h
  unfold Scim.payloadWritten
  split_ifs
  · exact (hnames.writtenExternalId _).writtenAttributes env extras
  · exact hnames.writtenExternalId _

theorem patchWrites_cleanRejection_iff (hfind : findUser db idpId userId = some user) :
    CleanRejection db (patchWrites env idpId userId payload db) ↔ ∀ names extras,
      extractActive payload = .error activeMustBeBoolean →
        (applyPayloadWrites env idpId userId payload true db).1 = .ok () →
      extractNames payload = .ok names → extractStandardAttributes env payload = .ok extras →
        NamesStored db user names ∧ AttributesStored env db idpId userId payload extras := by
  have hbound := bound_of_findUser hfind
  have hget := (Option.filter_eq_some_iff.mp hfind).1
  unfold patchWrites
  by_cases hempty : payload.isEmpty
  · rw [whenever, if_neg (not_not.mpr hempty)]
    refine iff_of_true (cleanRejection_of_quietly (quietly_resolveUserPayload hbound)) fun _ _ hactive => ?_
    exact absurd (isEmpty_iff.mp hempty) (extractActive_eq_error hactive).2
  · rw [whenever, if_pos hempty]
    have hspec := @applyPayloadWrites_spec db idpId userId user env payload hget
    unfold Ensures at hspec
    rcases happly : applyPayloadWrites env idpId userId payload true db with ⟨e | _, db₁⟩
    · rw [happly] at hspec
      rw [bind_apply_of_error (bind_apply_of_error happly _)]
      exact iff_of_true (cleanRejection_of_not_isScim hspec) fun _ _ _ hok => by cases hok
    · rw [happly] at hspec
      obtain ⟨names, extras, hnames, hextras, rfl⟩ := hspec
      cases hactive : extractActive payload with
      | error e =>
        obtain ⟨rfl, -⟩ := extractActive_eq_error hactive
        rw [bind_apply_of_error ((bind_apply_of_ok happly _).trans (bind_apply_of_error rfl _)),
          cleanRejection_error_iff (show activeMustBeBoolean.IsScim from trivial),
          sameDirectory_payloadWritten_iff names hextras]
        constructor
        · rintro h names' extras' - - hnames' hextras'
          rw [hnames] at hnames'
          rw [hextras] at hextras'
          cases hnames'
          cases hextras'
          exact h
        · exact fun h => h names extras rfl rfl hnames hextras
      | ok active =>
        refine iff_of_true (cleanRejection_of_quietly (P := Bound idpId userId) ?_) fun _ _ hrefused => by
          cases hrefused
        refine Quietly.bind ?_ fun _ _ h => quietly_resolveUserPayload h
        unfold Ensures
        rw [bind_apply_of_ok happly]
        exact quietly_handleActiveTransition (hbound.payloadWritten env names payload extras)

theorem patchUser_cleanRejection_iff (env : Env) (db : Db) (idpId userId : Id) (patchBody : Json) :
    CleanRejection db (patchUser env idpId userId patchBody db) ↔
      PatchUserAllOrNothing env db idpId userId patchBody := by
  unfold patchUser PatchUserAllOrNothing
  cases hfind : findUser db idpId userId with
  | none =>
    simp only [orRaise_bind_apply, hfind]
    exact iff_of_true cleanRejection_of_unchanged (by simp)
  | some user =>
    simp only [orRaise_bind_apply, hfind]
    cases hops : patchOperations patchBody with
    | error e =>
      exact iff_of_true cleanRejection_of_unchanged (by simp)
    | ok ops =>
      rw [lookup_bind_apply]
      cases hpayload : accumulate env [] ops with
      | error e =>
        refine iff_of_true cleanRejection_of_unchanged ?_
        rintro user' ops' payload' names extras - ⟨⟩ hpayload'
        rw [hpayload] at hpayload'
        cases hpayload'
      | ok payload =>
        refine (patchWrites_cleanRejection_iff hfind).trans ⟨?_, ?_⟩
        · rintro h user' ops' payload' names extras ⟨⟩ ⟨⟩ hpayload'
          rw [hpayload] at hpayload'
          cases hpayload'
          exact h names extras
        · exact fun h names extras => h user ops payload names extras rfl rfl hpayload

end Users

inductive WriteRequest
  | patchGroup (groupId : Id) (patchBody : Json)
  | replaceGroup (groupId : Id) (payload : Json.Dict)
  | patchUser (userId : Id) (patchBody : Json)
  | replaceUser (userId : Id) (payload : Json.Dict)

def WriteRequest.handle (env : Env) (idpId : Id) : WriteRequest → Service Unit
  | patchGroup groupId patchBody => do let _ ← Scim.patchGroup env idpId groupId patchBody
  | replaceGroup groupId payload => do let _ ← Scim.replaceGroup env idpId groupId payload
  | patchUser userId patchBody => do let _ ← Scim.patchUser env idpId userId patchBody
  | replaceUser userId payload => do let _ ← Scim.replaceUser env idpId userId payload

def WriteRequest.AllOrNothing (env : Env) (db : Db) (idpId : Id) : WriteRequest → Prop
  | patchGroup groupId patchBody => PatchGroupAllOrNothing env db idpId groupId patchBody
  | replaceGroup groupId payload => ReplaceGroupAllOrNothing env db idpId groupId payload
  | patchUser userId patchBody => PatchUserAllOrNothing env db idpId userId patchBody
  | replaceUser _ _ => True

theorem cleanRejection_bind_iff {db : Db} :
    CleanRejection db ((do let _ ← x : Service Unit) db) ↔ CleanRejection db (x db) := by
  rcases hx : x db with ⟨e | a, db'⟩
  · rw [bind_apply_of_error hx]
    exact forall_congr' fun e' => by simp
  · rw [bind_apply_of_ok hx]
    exact iff_of_true cleanRejection_ok cleanRejection_ok

end WeftId.Scim
