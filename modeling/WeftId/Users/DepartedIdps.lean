import WeftId.Users.Lifecycle

/-!
The canonical attributes of a user across sign-ins through one provider, edits and the disconnect.  The scrub of
the disconnect compares with what the provider sent last, so a value that one sign-in mirrored and a later one
left out stays behind.
-/

namespace WeftId

open KeyedRows List Proc Run

inductive AttributeEvent
  | signIn (attributes : List (Text × Text))
  | set (user : RequestingUser) (key value : Text)
  | clear (user : RequestingUser) (key : Text)

namespace AttributeEvent

def step (env : Env) (userId idpId : Id) (db : Db) : AttributeEvent → Db
  | .signIn attributes => (applyIdpAttributes env userId idpId attributes).exec db
  | .set user key value => (setUserAttribute env user userId key value).exec db
  | .clear user key => (clearUserAttribute user userId key).exec db

/-- A sign-in sends, in a form that serializes, every attribute that the mirror wrote last. -/
def Resends (env : Env) (userId : Id) (db : Db) : AttributeEvent → Prop
  | .signIn attributes => ∀ row ∈ db.userAttributes, row.userId = userId → row.source = .idp →
      ∃ sent ∈ attributes, sent.1 = row.attributeKey ∧ (serialize env sent.1 sent.2).isSome
  | _ => True

instance (env : Env) (userId : Id) (db : Db) (event : AttributeEvent) : Decidable (Resends env userId db event) := by
  cases event <;> unfold Resends <;> infer_instance

variable {env : Env} {userId idpId : Id} {db db' : Db} {attributes rows : List (Text × Text)} {user : RequestingUser}
  {key : Text}

def Mirrors (db : Db) (key : Text) : Bool := (db.getConfig key).any fun cfg => cfg.enabled && cfg.mirrorFromIdp

/-- The copy of what the provider sent last holds every value that the mirror wrote. -/
def Mirrored (userId idpId : Id) (db : Db) : Prop :=
  ∀ row ∈ db.userAttributes, row.userId = userId → row.source = .idp → Mirrors db row.attributeKey ∧
    ∃ sent ∈ db.userIdpAttributes, sent.userId = userId ∧ sent.idpId = idpId ∧
      sent.attributeKey = row.attributeKey ∧ sent.value = row.value

/-- An edit adds no value of the mirror. -/
structure Edits (db db' : Db) : Prop where
  config : db'.attributeConfig = db.attributeConfig
  sent : db'.userIdpAttributes = db.userIdpAttributes
  rows : ∀ row ∈ db'.userAttributes, row.source = .idp → row ∈ db.userAttributes

theorem Edits.refl (db : Db) : Edits db db := ⟨rfl, rfl, fun _ h _ => h⟩

theorem Edits.mirrored (h : Edits db db') (hdb : Mirrored userId idpId db) : Mirrored userId idpId db' := by
  intro row hrow huser hsource
  obtain ⟨hmirrors, hsent⟩ := hdb row (h.rows row hrow hsource) huser hsource
  unfold Mirrors Db.getConfig
  rw [h.config, h.sent]
  exact ⟨hmirrors, hsent⟩

theorem enforceSelfEditPolicy_frame {targetUserId : Id} {locked : Bool} :
    (enforceSelfEditPolicy user targetUserId locked).Ensures db fun _ db' => db' = db := by
  refine ensures_whenever.mpr ⟨fun _ => .require rfl fun _ => .read (.require rfl fun _ => ?_), fun _ => rfl⟩
  exact ensures_require.mpr ⟨fun _ => rfl, fun _ => rfl⟩

theorem edits_upsertUserAttribute {value : Text} {source : AttributeSource} (h : source ≠ .idp) :
    Edits db (db.upsertUserAttribute userId key value source) := by
  refine ⟨rfl, rfl, fun row hrow hsource => ?_⟩
  rcases mem_store.mp hrow with rfl | ⟨hold, -⟩
  · exact absurd hsource h
  · exact hold

theorem setUserAttribute_edits {value : Text} :
    (setUserAttribute env user userId key value).Ensures db fun _ db' => Edits db db' := by
  have hrefl := Edits.refl db
  refine .require hrefl fun _ => .orRaise hrefl fun config _ => ?_
  refine enforceSelfEditPolicy_frame.bind (fun _ db' h => ?_) fun _ _ h => h ▸ hrefl
  subst h
  refine .orRaise hrefl fun serialized _ => ensures_tx.mpr ⟨fun _ db' hset => ?_, fun _ _ => hrefl⟩
  split at hset
  · cases hset
  · obtain rfl := Except.ok_snd hset
    refine edits_upsertUserAttribute ?_
    split <;> simp

theorem clearUserAttribute_edits : (clearUserAttribute user userId key).Ensures db fun _ db' => Edits db db' := by
  have hrefl := Edits.refl db
  refine .require hrefl fun _ => .read ?_
  refine enforceSelfEditPolicy_frame.bind (fun _ db' h => ?_) fun _ _ h => h ▸ hrefl
  subst h
  exact ⟨rfl, rfl, fun row hrow _ => mem_of_mem_filter hrow⟩

theorem exists_serialized {sent : Text × Text} (hsent : sent ∈ attributes)
    (h : (serialize env sent.1 sent.2).isSome) : ∃ row ∈ serializedAttributes env attributes, row.1 = sent.1 := by
  obtain ⟨value, hvalue⟩ := Option.isSome_iff_exists.mp h
  have hstandard : isStandardAttribute sent.1 ∧ sent.2.strip ≠ [] := by
    obtain ⟨attr, hattr, hrest⟩ := Option.bind_eq_some_iff.mp hvalue
    refine ⟨by simp [isStandardAttribute, hattr], fun hblank => ?_⟩
    simp [hblank] at hrest
  exact ⟨(sent.1, value), mem_filterMap.mpr ⟨sent, hsent, by simp [hstandard, hvalue]⟩, rfl⟩

theorem Mirrored.signIn (h : Mirrored userId idpId db) (hresends : Resends env userId db (.signIn attributes)) :
    Mirrored userId idpId (db.replaceIdpAttributes userId idpId (serializedAttributes env attributes)) := by
  generalize hrows : serializedAttributes env attributes = rows
  rw [replaceIdpAttributes_eq]
  have hwrites : mirrorWrites db rows = rows.filter fun row => Mirrors db row.1 := rfl
  intro row hrow huser hsource
  rcases mem_storeAll.mp hrow with hlast | ⟨hold, hnew⟩
  · rw [← map_reverse, find?_map, Option.map_eq_some_iff] at hlast
    obtain ⟨last, hlast, rfl⟩ := hlast
    rw [hwrites] at hlast
    have hmirrors := (mem_filter.mp (mem_reverse.mp (mem_of_find?_eq_some hlast))).2
    refine ⟨hmirrors, sentRow userId idpId last, mem_storeAll.mpr (.inl ?_), rfl, rfl, rfl, rfl⟩
    -- the mirror writes all that was sent for the key, so the value sent last is the one it wrote last
    have hfound : rows.reverse.find? (((·.key = (sentRow userId idpId last).key) : UserIdpAttribute → Bool) ∘
        sentRow userId idpId) = some last := by
      rw [← hlast, ← filter_reverse, find?_filter]
      congr 1
      funext sent
      by_cases hsent : sent.1 = last.1
      · simp [UserIdpAttribute.key, UserAttribute.key, sentRow, mirroredRow, hsent, hmirrors]
      · simp [UserIdpAttribute.key, UserAttribute.key, sentRow, mirroredRow, hsent]
    rw [← map_reverse, find?_map, hfound]
    rfl
  · obtain ⟨hmirrors, -⟩ := h row hold huser hsource
    obtain ⟨sent, hsent, hkey, hserialize⟩ := hresends row hold huser hsource
    obtain ⟨kept, hkept, hsame⟩ := exists_serialized hsent hserialize
    rw [hrows] at hkept
    have hkeptKey := hsame.trans hkey
    rw [← hkeptKey] at hmirrors
    refine absurd ?_ (hnew _ (mem_map_of_mem (mem_filter.mpr ⟨hkept, hmirrors⟩)))
    exact Prod.ext huser.symm hkeptKey

theorem mirrored_step {event : AttributeEvent} (h : Mirrored userId idpId db)
    (hresends : Resends env userId db event) : Mirrored userId idpId (step env userId idpId db event) := by
  cases event with
  | signIn attributes =>
    have happly : (applyIdpAttributes env userId idpId attributes).Ensures db fun _ db' =>
        Mirrored userId idpId db' := by
      refine .orRaise h fun _ _ => ensures_tx.mpr ⟨fun _ db' happly => ?_, fun _ _ => h⟩
      split at happly
      · cases happly
      · obtain rfl := Except.ok_snd happly
        exact h.signIn hresends
    exact happly
  | set => exact Edits.mirrored setUserAttribute_edits h
  | clear => exact Edits.mirrored clearUserAttribute_edits h

theorem assignUserIdp_scrubs {admin : RequestingUser} {target : Option Id} (htarget : target ≠ some idpId)
    (huser : (db.getUserById userId).any (·.samlIdpId = some idpId)) :
    (assignUserIdp admin userId target true).Ensures db fun r db' => r = .ok () →
      db'.userAttributes = ((scrubCanonicalMatchesMirror userId idpId).exec db).userAttributes := by
  refine .require (by simp) fun _ => .orRaise (by simp) fun user hfound => .read (.require (by simp) fun _ => ?_)
  have hidp : user.samlIdpId = some idpId := by
    rw [hfound] at huser
    exact of_decide_eq_true huser
  refine Ensures.bind (Q := fun _ db₁ => db₁.userAttributes = db.userAttributes ∧
    db₁.userIdpAttributes = db.userIdpAttributes) (ensures_whenever.mpr ⟨fun _ => ⟨rfl, rfl⟩, fun _ => ⟨rfl, rfl⟩⟩)
    (fun _ db₁ h₁ => ?_) (by simp)
  refine ensures_bind.mpr (ensures_tx.mpr ⟨fun _ db₂ h₂ => ?_, by simp⟩)
  have hkept : db₂.userAttributes = db₁.userAttributes ∧ db₂.userIdpAttributes = db₁.userIdpAttributes := by
    unfold Db.updateUserSamlIdp Db.assignUsersToIdp at h₂
    split_ifs at h₂
    obtain rfl := Except.ok_snd h₂
    exact ⟨rfl, rfl⟩
  rw [hidp]
  refine ensures_bind.mpr (ensures_whenever.mpr ⟨fun _ => ?_, fun hno => absurd ⟨rfl, htarget⟩ hno⟩)
  have hmove := fun name db₃ => (@within_moveGroupMemberships userId (some idpId) target name db₃).outside
  intro _
  refine (congrArg Db.userAttributes (hmove _ _)).trans ?_
  change db₂.userAttributes.filter _ = db.userAttributes.filter _
  rw [hkept.1, hkept.2, h₁.1, h₁.2]

/-- In every run whose sign-ins send again what the mirror wrote, the disconnect takes all that away and keeps every
value of a user or an administrator that differs from the copy. -/
theorem disconnect_scrubs_mirrored (env : Env) {userId idpId : Id} {db : Db}
    (hstart : ∀ row ∈ db.userAttributes, row.userId = userId → row.source ≠ .idp) {events : List AttributeEvent}
    (hresends : Along (step env userId idpId) (Resends env userId) db events) (admin : RequestingUser)
    {target : Option Id} (htarget : target ≠ some idpId)
    (huser : ((run (step env userId idpId) db events).getUserById userId).any (·.samlIdpId = some idpId))
    (hok : (assignUserIdp admin userId target true (run (step env userId idpId) db events)).1 = .ok ()) :
    let before := run (step env userId idpId) db events
    let after := (assignUserIdp admin userId target true).exec before
    (∀ row ∈ after.userAttributes, row.userId = userId → row.source ≠ .idp) ∧
    ∀ row ∈ before.userAttributes, row.userId = userId → row.source ≠ .idp →
      (∀ sent ∈ before.userIdpAttributes, sent.userId = userId → sent.idpId = idpId →
        sent.attributeKey = row.attributeKey → sent.value ≠ row.value) → row ∈ after.userAttributes := by
  intro before after
  have hmirrored : Mirrored userId idpId before :=
    invariant_of_along (fun db event => mirrored_step)
      (fun row hrow huser hsource => absurd hsource (hstart row hrow huser)) hresends
  have hscrub : after.userAttributes = _ := assignUserIdp_scrubs htarget huser hok
  rw [hscrub]
  constructor
  · intro row hrow hid hsource
    obtain ⟨hmem, hkept⟩ := mem_filter.mp hrow
    obtain ⟨-, sent, hsent, hsentUser, hsentIdp, hkey, hvalue⟩ := hmirrored row hmem hid hsource
    refine of_decide_eq_true hkept ⟨hid, any_eq_true.mpr ⟨sent, hsent, decide_eq_true ?_⟩⟩
    exact ⟨hsentUser.trans hid.symm, hkey, hvalue, hsentIdp⟩
  · intro row hrow hid _ hdiffers
    refine mem_filter.mpr ⟨hrow, decide_eq_true fun hmatch => ?_⟩
    obtain ⟨sent, hsent, hsame⟩ := any_eq_true.mp hmatch.2
    obtain ⟨hsentUser, hkey, hvalue, hsentIdp⟩ := of_decide_eq_true hsame
    exact hdiffers sent hsent (hsentUser.trans hid) hsentIdp hkey hvalue

def mirrorTenant : Db where
  nextId := 9
  users := [{ id := 1, role := .superAdmin }, { id := 2, samlIdpId := some 5 }]
  identityProviders := [{ id := 5, name := "Idp" }]
  attributeConfig := [⟨"department", true, true, false⟩, ⟨"city", true, true, false⟩]

def researchSignIn : AttributeEvent := .signIn [("department", "Research")]

/-- The second sign-in leaves the department out; the disconnect then does not find it. -/
theorem omitted_attribute_survives_disconnect :
    let before := run (step Env.ascii 2 5) mirrorTenant [researchSignIn, .signIn []]
    (assignUserIdp ⟨1, .superAdmin⟩ 2 none true before).1 = .ok () ∧
    ⟨2, "department", "Research", .idp⟩ ∈
      ((assignUserIdp ⟨1, .superAdmin⟩ 2 none true).exec before).userAttributes := by
  decide +kernel

def residentEvents : List AttributeEvent :=
  [researchSignIn, .set ⟨2, .member⟩ "city" "Oslo", .signIn [("department", "Sales")]]

theorem resent_attribute_is_scrubbed : (⟨2, "department", "Sales", .idp⟩ ∈
      (run (step Env.ascii 2 5) mirrorTenant residentEvents).userAttributes) ∧
    (∀ row ∈ ((assignUserIdp ⟨1, .superAdmin⟩ 2 none true).exec
      (run (step Env.ascii 2 5) mirrorTenant residentEvents)).userAttributes, row.userId = 2 → row.source ≠ .idp) ∧
    ⟨2, "city", "Oslo", .self⟩ ∈ ((assignUserIdp ⟨1, .superAdmin⟩ 2 none true).exec
      (run (step Env.ascii 2 5) mirrorTenant residentEvents)).userAttributes := by
  have h := @disconnect_scrubs_mirrored Env.ascii 2 5 mirrorTenant (by decide) residentEvents (by decide +kernel)
    ⟨1, .superAdmin⟩ none (by decide) (by decide +kernel) (by decide +kernel)
  exact ⟨by decide +kernel, h.1, h.2 _ (by decide +kernel) rfl (by decide) (by decide +kernel)⟩

end AttributeEvent

end WeftId
