import WeftId.Users.Accounts

/-!
The registry of standard user attributes and the two attribute tables: the canonical values of a user
and the copy of what each provider last sent.  The copy also holds the upstream `externalId`, under a
key outside the registry.
-/

namespace WeftId

open KeyedRows Proc

inductive ValueType
  | string
  | country
  | locale
  | phone
  | postalCode

structure StandardAttribute where
  key : Text
  valueType : ValueType
  maxLength : Nat

def standardAttributes : List StandardAttribute :=
  [⟨"phone_work", .phone, 50⟩, ⟨"phone_mobile", .phone, 50⟩,
    ⟨"display_name", .string, 255⟩, ⟨"job_title", .string, 255⟩,
    ⟨"department", .string, 255⟩, ⟨"organization", .string, 255⟩,
    ⟨"employee_id", .string, 255⟩, ⟨"street_address", .string, 255⟩,
    ⟨"city", .string, 255⟩, ⟨"state", .string, 255⟩,
    ⟨"postal_code", .postalCode, 20⟩, ⟨"country", .country, 2⟩,
    ⟨"preferred_language", .locale, 10⟩, ⟨"description", .string, 2000⟩]

def getAttribute (key : Text) : Option StandardAttribute := standardAttributes.find? (·.key = key)

def isStandardAttribute (key : Text) : Bool := (getAttribute key).isSome

def isAsciiAlnum (c : Char) : Bool := Text.isAsciiAlpha c || Text.isAsciiDigit c

def matchesCountry (s : Text) : Bool := s.length = 2 ∧ s.all Text.isAsciiAlpha

def matchesLocale (s : Text) : Bool :=
  match Text.split '-' s with
  | [] => false
  | primary :: subtags =>
    (primary.length = 2 ∨ primary.length = 3) ∧ primary.all Text.isAsciiAlpha ∧
      subtags.all fun t => 2 ≤ t.length ∧ t.length ≤ 4 ∧ t.all isAsciiAlnum

def matchesPhone (env : Env) (s : Text) : Bool :=
  (s.takeWhile (· ≠ '\n')).any env.isDecimal ∧ s ≠ [] ∧
    s.all fun c => env.isDecimal c || Text.isSpace c || "+-().x".toList.contains c

def matchesPostal (s : Text) : Bool := s ≠ [] ∧ s.all fun c => isAsciiAlnum c || Text.isSpace c || c = '-'

def canonicalLocale (s : Text) : Text :=
  match Text.split '-' s with
  | primary :: region :: rest =>
    let region := if (region.length = 2 ∨ region.length = 3) ∧ region.all Text.isAsciiAlpha
      then region.map Char.toUpper else region
    Text.join '-' (primary.map Char.toLower :: region :: rest)
  | parts => Text.join '-' (parts.map (·.map Char.toLower))

/-- The stored form of a value, or `none` when the value fails the checks of its attribute. -/
def serialize (env : Env) (key value : Text) : Option Text := do
  let attr ← getAttribute key
  let normalized := value.strip
  if normalized = [] ∨ attr.maxLength < normalized.length then none
  else match attr.valueType with
    | .country => if matchesCountry normalized then some (normalized.map Char.toUpper) else none
    | .locale => if matchesLocale normalized then some (canonicalLocale normalized) else none
    | .phone => if matchesPhone env normalized then some normalized else none
    | .postalCode => if matchesPostal normalized then some normalized else none
    | .string => some normalized

def externalIdKey : Text := "__external_id"

def UserIdpAttribute.key (r : UserIdpAttribute) : Id × Id × Text := (r.userId, r.idpId, r.attributeKey)

def UserAttribute.key (r : UserAttribute) : Id × Text := (r.userId, r.attributeKey)

namespace Db

def upsertUserIdpAttribute (db : Db) (userId idpId : Id) (key value : Text) : Db :=
  { db with userIdpAttributes := store UserIdpAttribute.key ⟨userId, idpId, key, value⟩ db.userIdpAttributes }

def upsertUserAttribute (db : Db) (userId : Id) (key value : Text) (source : AttributeSource) : Db :=
  { db with userAttributes := store UserAttribute.key ⟨userId, key, value, source⟩ db.userAttributes }

/-- Drops the rows of a user's copy whose key is not listed; an empty list drops them all. -/
def dropUserIdpAttributesExcept (db : Db) (userId idpId : Id) (keys : List Text) : Db :=
  { db with userIdpAttributes := db.userIdpAttributes.filter fun r =>
      ¬ (r.userId = userId ∧ r.idpId = idpId ∧ r.attributeKey ∉ keys) }

def deleteForUserIdp (db : Db) (userId idpId : Id) : Db := db.dropUserIdpAttributesExcept userId idpId []

/-- The unique index holds one user per `externalId` of a provider. -/
def setExternalId (db : Db) (userId idpId : Id) (externalId : Text) : Except DbError (Unit × Db) :=
  if 2000 < externalId.length then .error (.checkViolation "user_idp_attributes_value_length_check")
  else if db.userIdpAttributes.any fun r =>
      r.idpId = idpId ∧ r.attributeKey = externalIdKey ∧ r.value = externalId ∧ r.userId ≠ userId then
    .error (.uniqueViolation "user_idp_external_id_unique")
  else if db.getUserById userId = none then .error (.foreignKeyViolation "user_idp_attributes_user_tenant_fkey")
  else if db.getIdentityProvider idpId = none then .error (.foreignKeyViolation "user_idp_attributes_idp_fkey")
  else .ok ((), db.upsertUserIdpAttribute userId idpId externalIdKey externalId)

def getExternalId (db : Db) (userId idpId : Id) : Option Text :=
  (db.userIdpAttributes.find? fun r =>
    r.userId = userId ∧ r.idpId = idpId ∧ r.attributeKey = externalIdKey).map (·.value)

def getUserIdByExternalId (db : Db) (idpId : Id) (externalId : Text) : Option Id :=
  (db.userIdpAttributes.find? fun r =>
    r.idpId = idpId ∧ r.attributeKey = externalIdKey ∧ r.value = externalId).map (·.userId)

end Db

def serializedAttributes (env : Env) (attributes : List (Text × Text)) : List (Text × Text) :=
  attributes.filterMap fun (key, raw) =>
    if isStandardAttribute key ∧ raw.strip ≠ [] then (serialize env key raw).map fun value => (key, value)
    else none

def mirrorWrites (db : Db) (attributes : List (Text × Text)) : List (Text × Text) :=
  attributes.filter fun (key, _) =>
    (db.attributeConfig.find? (·.attributeKey = key)).any fun cfg => cfg.enabled && cfg.mirrorFromIdp

def Db.replaceIdpAttributes (db : Db) (userId idpId : Id) (serialized : List (Text × Text)) : Db :=
  let mirrored := mirrorWrites db serialized
  let db := db.dropUserIdpAttributesExcept userId idpId (serialized.map (·.1))
  let db := serialized.foldl (fun db (key, value) => db.upsertUserIdpAttribute userId idpId key value) db
  mirrored.foldl (fun db (key, value) => db.upsertUserAttribute userId key value .idp) db

section Rows

variable {userId idpId : Id} {rows serialized : List (Text × Text)} {db : Db}

def sentRow (userId idpId : Id) (row : Text × Text) : UserIdpAttribute := ⟨userId, idpId, row.1, row.2⟩

def mirroredRow (userId : Id) (row : Text × Text) : UserAttribute := ⟨userId, row.1, row.2, .idp⟩

theorem foldl_upsertUserIdpAttribute :
    rows.foldl (fun db (key, value) => db.upsertUserIdpAttribute userId idpId key value) db =
      { db with
        userIdpAttributes := storeAll UserIdpAttribute.key (rows.map (sentRow userId idpId))
          db.userIdpAttributes } := by
  induction rows generalizing db with
  | nil => rfl
  | cons row rows ih => exact ih

theorem foldl_upsertUserAttribute :
    rows.foldl (fun db (key, value) => db.upsertUserAttribute userId key value .idp) db =
      { db with userAttributes := storeAll UserAttribute.key (rows.map (mirroredRow userId)) db.userAttributes } := by
  induction rows generalizing db with
  | nil => rfl
  | cons row rows ih => exact ih

theorem replaceIdpAttributes_eq : db.replaceIdpAttributes userId idpId serialized =
    { db with
      userIdpAttributes := storeAll UserIdpAttribute.key (serialized.map (sentRow userId idpId))
        (db.dropUserIdpAttributesExcept userId idpId (serialized.map (·.1))).userIdpAttributes
      userAttributes := storeAll UserAttribute.key ((mirrorWrites db serialized).map (mirroredRow userId))
        db.userAttributes } := by
  unfold Db.replaceIdpAttributes
  dsimp only
  rw [foldl_upsertUserIdpAttribute, foldl_upsertUserAttribute]
  rfl

theorem replaceIdpAttributes_upsert {key value : Text} (h : key ∉ serialized.map (·.1)) :
    (db.upsertUserIdpAttribute userId idpId key value).replaceIdpAttributes userId idpId serialized =
      db.replaceIdpAttributes userId idpId serialized := by
  have hdrop : (db.upsertUserIdpAttribute userId idpId key value).dropUserIdpAttributesExcept userId idpId
      (serialized.map (·.1)) = db.dropUserIdpAttributesExcept userId idpId (serialized.map (·.1)) := by
    refine congrArg (fun userIdpAttributes => { db with userIdpAttributes })
      (@filter_store _ _ _ UserIdpAttribute.key _ _ _ fun r hr => ?_)
    simp only [UserIdpAttribute.key, Prod.mk.injEq] at hr
    simp [hr, h]
  unfold Db.replaceIdpAttributes
  dsimp only
  rw [hdrop]
  rfl

theorem keys_serializedAttributes (env : Env) (attributes : List (Text × Text)) :
    ((serializedAttributes env attributes).map (·.1)).Sublist ((attributes.map (·.1)).filter isStandardAttribute) := by
  induction attributes with
  | nil => exact .slnil
  | cons row attributes ih =>
    unfold serializedAttributes at ih ⊢
    obtain ⟨key, raw⟩ := row
    rw [List.filterMap_cons, List.map_cons, List.filter_cons]
    dsimp only
    by_cases hstandard : isStandardAttribute key
    · rw [if_pos hstandard]
      split
      · exact ih.cons key
      · rename_i hrow
        split_ifs at hrow
        obtain ⟨value, -, rfl⟩ := Option.map_eq_some_iff.mp hrow
        exact ih.cons_cons key
    · rw [if_neg hstandard, if_neg fun h => hstandard h.1]
      exact ih

end Rows

def applyIdpAttributes (env : Env) (userId idpId : Id) (attributes : List (Text × Text)) : Service Unit := do
  let _ ← orRaise (·.getIdentityProvider idpId) (.notFound "Identity provider not found" "idp_not_found")
  let serialized := serializedAttributes env attributes
  tx fun db =>
    if serialized ≠ [] ∧ db.getUserById userId = none then
      .error (.foreignKeyViolation "user_idp_attributes_user_tenant_fkey")
    else .ok ((), db.replaceIdpAttributes userId idpId serialized)

def scrubCanonicalMatchesMirror (userId idpId : Id) : Service Unit :=
  write fun db => { db with userAttributes := db.userAttributes.filter fun ua =>
    ¬ (ua.userId = userId ∧ db.userIdpAttributes.any fun uia =>
      uia.userId = ua.userId ∧ uia.attributeKey = ua.attributeKey ∧ uia.value = ua.value ∧ uia.idpId = idpId) }

def requireKnownAttribute (key : Text) : Service Unit :=
  require (isStandardAttribute key) (.validation ("Unknown attribute key: " ++ String.ofList key)
    "unknown_attribute_key" (some "attribute_key"))

def Db.getConfig (db : Db) (key : Text) : Option AttributeConfig := db.attributeConfig.find? (·.attributeKey = key)

def requireEnabled (key : Text) : Service AttributeConfig :=
  orRaise (fun db => (db.getConfig key).filter (·.enabled)) (.validation
    ("Attribute " ++ String.ofList key ++ " is not enabled for this tenant")
    "attribute_not_enabled" (some "attribute_key"))

def enforceSelfEditPolicy (user : RequestingUser) (targetUserId : Id) (lockedForUsers : Bool) : Service Unit :=
  whenever (¬ (user.role = .admin ∨ user.role = .superAdmin)) do
    require (user.id = targetUserId) (.forbidden "Cannot edit another user's profile" "forbidden")
    let settings ← read (·.securitySettings)
    require (settings.all (·.allowUsersEditProfile))
      (.forbidden "Profile editing is disabled by your organization" "profile_editing_disabled")
    require (¬ lockedForUsers)
      (.forbidden "This attribute is locked. Only an administrator can change it." "attribute_locked")

def setUserAttribute (env : Env) (user : RequestingUser) (userId : Id) (key value : Text) : Service Unit := do
  requireKnownAttribute key
  let config ← requireEnabled key
  enforceSelfEditPolicy user userId config.lockedForUsers
  let serialized ← orRaise (fun _ => serialize env key value) (.exception "AttributeValueError")
  tx fun db =>
    if db.getUserById userId = none then .error (.foreignKeyViolation "user_attributes_user_tenant_fkey")
    else .ok ((), db.upsertUserAttribute userId key serialized
      (if user.role = .admin ∨ user.role = .superAdmin then .admin else .self))

/-- Clearing does not ask for an enabled attribute; without a configuration it is not locked. -/
def clearUserAttribute (user : RequestingUser) (userId : Id) (key : Text) : Service Bool := do
  requireKnownAttribute key
  let config ← read (·.getConfig key)
  enforceSelfEditPolicy user userId (config.any (·.lockedForUsers))
  tx fun db =>
    let same := fun r : UserAttribute => r.userId = userId ∧ r.attributeKey = key
    .ok (db.userAttributes.any (same ·), { db with userAttributes := db.userAttributes.filter fun r => ¬ same r })

end WeftId
