import WeftId.Saml.Provisioning
import WeftId.Scim.Path

/-!
What the SCIM user endpoints read from a payload: the address, the names and the standard attributes, and
the payload that the operations of a PATCH add up to.  A value of an unexpected type raises where the
source calls a text method on it.
-/

namespace WeftId.Scim

open List

def attributeError : Error := .exception "AttributeError"

/-- `(value or "").strip()`. -/
def stripped (value : Json) : Except Error Text :=
  match value.orElse (.str []) with
  | .str s => .ok s.strip
  | _ => .error attributeError

def nonEmpty (s : Text) : Option Text := if s = [] then none else some s

variable (env : Env)

def canonicalEmail : Json → Except Error (Option Text)
  | .null => .ok none
  | .str email => .ok (if email.strip = [] then none else some (env.lower email.strip))
  | _ => .error attributeError

/-- The `emails` entry that counts: the first one flagged primary, or else the first one. -/
def chosenEmail : Json → Except Error Json.Dict
  | .arr items =>
    let flagged := items.findSome? fun
      | .obj fields => if (Json.field fields "primary").truthy then some fields else none
      | _ => none
    match flagged, items with
    | some fields, _ => .ok fields
    | none, .obj fields :: _ => .ok fields
    | none, _ => .ok []
  | .str _ => .ok []
  | .obj _ => .error (.exception "KeyError")
  | _ => .error (.exception "TypeError")

def extractPrimaryEmailCandidate (payload : Json.Dict) : Except Error (Option Text) := do
  let emails := Json.field payload "emails"
  let chosen ← if emails.truthy then chosenEmail emails else pure []
  let value := Json.field chosen "value"
  if value.truthy then canonicalEmail env value else canonicalEmail env (Json.field payload "userName")

def extractPrimaryEmail (payload : Json.Dict) : Except Error (Option Text) := do
  let candidate ← extractPrimaryEmailCandidate env payload
  pure (candidate.filter (isEmailLike ·))

/-- The first word of `displayName` and the rest. -/
def displayNames (payload : Json.Dict) : Option Text × Option Text :=
  match Json.field payload "displayName" with
  | .str display =>
    match Text.splitWords 1 display.strip with
    | [first, last] => (some first, some last)
    | [first] => (some first, none)
    | _ => (none, none)
  | _ => (none, none)

def extractNames (payload : Json.Dict) : Except Error (Option Text × Option Text) := do
  match Json.field payload "name" with
  | .obj name =>
    let first ← stripped (Json.field name "givenName")
    let last ← stripped (Json.field name "familyName")
    if first ≠ [] ∨ last ≠ [] then pure (nonEmpty first, nonEmpty last) else pure (displayNames payload)
  | _ => pure (displayNames payload)

def replacedName (name : Json.Dict) (key : String) (existing : Text) : Text :=
  if Json.hasField name key then
    match Json.field name key with
    | .str s => s.strip
    | _ => []
  else existing

def resolveReplaceNames (payload : Json.Dict) (existing : User) : Text × Text :=
  match Json.field payload "name" with
  | .obj name => (replacedName name "givenName" existing.firstName, replacedName name "familyName" existing.lastName)
  | _ =>
    match displayNames payload with
    | (some first, last) => (first, last.getD existing.lastName)
    | (none, _) => (existing.firstName, existing.lastName)

def copyTexts (block : Json.Dict) (mapping : List (String × String)) (out : List (Text × Text)) : List (Text × Text) :=
  mapping.foldl (fun out (scimKey, weftKey) =>
    match Json.field block scimKey with
    | .str value => if value.strip = [] then out else Json.setKey out weftKey.toList value.strip
    | _ => out) out

def enterpriseMapping : List (String × String) :=
  [("employeeNumber", "employee_id"), ("department", "department"), ("organization", "organization")]

def directMappings : List (String × String) :=
  [("displayName", "display_name"), ("title", "job_title"), ("jobTitle", "job_title"),
    ("preferredLanguage", "preferred_language")]

def copyPhones : List Json → List (Text × Text) → Except Error (List (Text × Text))
  | [], out => .ok out
  | .obj entry :: entries, out =>
    if ¬ (Json.field entry "value").truthy then copyPhones entries out
    else match (Json.field entry "type").orElse (.str []) with
      | .str type =>
        let value := Text.strip (showJson env (Json.field entry "value"))
        let key := if env.lower type = "mobile".toList then some "phone_mobile".toList
          else if env.lower type = "work".toList then some "phone_work".toList else none
        match key with
        | some key =>
          if value = [] ∨ out.any (·.1 = key) then copyPhones entries out
          else copyPhones entries (out ++ [(key, value)])
        | none => copyPhones entries out
      | _ => .error attributeError
  | _ :: entries, out => copyPhones entries out

def extractStandardAttributes (payload : Json.Dict) : Except Error (List (Text × Text)) :=
  let enterprise := match ((payload.find? (·.1 = enterpriseUserSchema)).map (·.2)).getD .null with
    | .obj enterprise => copyTexts enterprise enterpriseMapping []
    | _ => []
  let direct := copyTexts payload directMappings enterprise
  match Json.field payload "phoneNumbers" with
  | .arr phones => copyPhones env phones direct
  | _ => .ok direct

section Keys

variable {env} {out extras : List (Text × Text)}

theorem nodup_copyTexts {block : Json.Dict} {mapping : List (String × String)}
    (h : (out.map (·.1)).Nodup) : ((copyTexts block mapping out).map (·.1)).Nodup := by
  unfold copyTexts
  induction mapping generalizing out with
  | nil => exact h
  | cons pair mapping ih =>
    apply ih
    dsimp only
    split
    · split_ifs
      · exact h
      · exact KeyedRows.nodup_store h
    · exact h

theorem nodup_copyPhones {phones : List Json}
    (h : copyPhones env phones out = .ok extras) (hout : (out.map (·.1)).Nodup) : (extras.map (·.1)).Nodup := by
  fun_induction copyPhones env phones out with
  | case1 =>
    cases h
    exact hout
  | case4 _ _ _ _ _ _ _ _ _ _ hnew ih =>
    refine ih h ?_
    rw [map_append, map_singleton, ← concat_eq_append, nodup_concat]
    exact ⟨by simpa using (not_or.mp hnew).2, hout⟩
  | case6 => cases h
  | _ =>
    rename_i ih
    exact ih h hout

theorem nodup_extractStandardAttributes {payload : Json.Dict}
    (h : extractStandardAttributes env payload = .ok extras) : (extras.map (·.1)).Nodup := by
  unfold extractStandardAttributes at h
  obtain ⟨direct, hdirect, h⟩ : ∃ direct, (direct.map (·.1)).Nodup ∧ (match Json.field payload "phoneNumbers" with
      | .arr phones => copyPhones env phones direct
      | _ => .ok direct) = .ok extras := by
    refine ⟨_, nodup_copyTexts ?_, h⟩
    split
    · exact nodup_copyTexts nodup_nil
    · exact nodup_nil
  split at h
  · exact nodup_copyPhones h hdirect
  · cases h
    exact hdirect

end Keys

def forbiddenPaths : List Text :=
  ["roles", "role", "groups", "password", "mfa", "mfa_enabled",
    "mfaenabled"]

def ensureNoMutabilityViolation (payload : Json.Dict) (source : String) : Except Error Unit :=
  match payload.find? fun (key, _) => env.lower key ∈ forbiddenPaths with
  | some (key, _) => .error (.scim 400
      ("Attribute `" ++ String.ofList key ++ "` is not writable via inbound SCIM (" ++ source ++ ").")
        (some "mutability"))
  | none => .ok ()

def activeMustBeBoolean : Error := .scim 400 "`active` must be a boolean." (some "invalidValue")

def extractActive (payload : Json.Dict) : Except Error (Option Bool) :=
  match Json.field payload "active" with
  | .null => .ok none
  | .bool active => .ok (some active)
  | _ => .error activeMustBeBoolean

/-- The key of the `externalId` attribute in a payload, without surrounding white space. -/
def extractExternalId (payload : Json.Dict) : Option Text :=
  match Json.field payload "externalId" with
  | .str externalId => nonEmpty externalId.strip
  | _ => none

section Patch

def patchAllowedSimplePaths : List Text :=
  ["username", "active", "externalid", "displayname", "name.givenname",
    "name.familyname", "name.formatted", "emails", "title", "jobtitle",
    "preferredlanguage", "phonenumbers", "enterprise.department",
    "enterprise.organization", "enterprise.employeenumber"]

def enterprisePath : Text := "enterprise."

/-- `payload.setdefault(block, {})[key] = value`. -/
def setInBlock (acc : Json.Dict) (block key : Text) (value : Json) : Except Error Json.Dict :=
  match ((acc.find? (·.1 = block)).map (·.2)).getD (.obj []) with
  | .obj fields => .ok (Json.setKey acc block (.obj (Json.setKey fields key value)))
  | _ => .error (.exception "TypeError")

def patchActive : Json → Json
  | .str s =>
    if env.lower s.strip = "true" then .bool true
    else if env.lower s.strip = "false" then .bool false
    else .str s
  | .null => .null
  | value => .bool value.truthy

def enterpriseKey (key : Text) : Text := if key = "employeenumber" then "employeeNumber" else key

def patchAssign (acc : Json.Dict) (path : Text) (value : Json) : Except Error Json.Dict :=
  if path = "username" then .ok (Json.setKey acc "userName" value)
  else if path = "active" then .ok (Json.setKey acc "active" (patchActive env value))
  else if path = "externalid" then .ok (Json.setKey acc "externalId" value)
  else if path = "displayname" then .ok (Json.setKey acc "displayName" value)
  else if path = "name.givenname" then setInBlock acc "name" "givenName" value
  else if path = "name.familyname" then setInBlock acc "name" "familyName" value
  else if path = "name.formatted" then setInBlock acc "name" "formatted" value
  else if path = "name" then
    match value with
    | .obj fields => .ok (Json.setKey acc "name" (.obj fields))
    | _ => .ok acc
  else if path = "emails" then
    match value with
    | .arr items => .ok (Json.setKey acc "emails" (.arr items))
    | .str email => .ok (Json.setKey acc "emails"
        (.arr [.obj [("value", .str email), ("primary", .bool true)]]))
    | _ => .ok acc
  else if enterprisePath.isPrefixOf path then
    setInBlock acc enterpriseUserSchema (enterpriseKey (path.drop enterprisePath.length)) value
  else if path = "title" ∨ path = "jobtitle" then .ok (Json.setKey acc "jobTitle" value)
  else if path = "preferredlanguage" then .ok (Json.setKey acc "preferredLanguage" value)
  else if path = "phonenumbers" then
    match value with
    | .arr items => .ok (Json.setKey acc "phoneNumbers" (.arr items))
    | _ => .ok acc
  else .ok acc

/-- An `add` or `replace` without a path: its value is a partial resource. -/
def patchResource (acc : Json.Dict) : Json.Dict → Except Error Json.Dict
  | [] => .ok acc
  | (subKey, subValue) :: rest =>
    match normalisePatchPath env (some subKey) with
    | none => patchResource acc rest
    | some subPath =>
      if subPath ∈ forbiddenPaths then
        .error (.scim 400 ("Attribute `" ++ String.ofList subKey ++ "` is not writable via inbound SCIM.")
          (some "mutability"))
      else do
        let acc ← patchAssign env acc subPath subValue
        patchResource acc rest

def namePath : Text := "name."

/-- A `remove` is an assignment that clears. -/
def patchRemove (acc : Json.Dict) (path : Text) : Except Error Json.Dict :=
  if path = "active" then patchAssign env acc path (.bool false)
  else if path = "externalid" then .ok (Json.setKey acc "externalId" (.str []))
  else if path = "displayname" then .ok (Json.setKey acc "displayName" (.str []))
  else if namePath.isPrefixOf path then setInBlock acc "name" (path.drop namePath.length) (.str [])
  else if path = "emails" then .ok (Json.setKey acc "emails" (.arr []))
  else .ok (Json.setKey acc path .null)

def processPatchOperation (acc : Json.Dict) (rawOp : Json) : Except Error Json.Dict := do
  let (op, rawPath, fields) ← parsePatchOp env rawOp
  let value := Json.field fields "value"
  match rawPath with
  | none | some [] =>
    if op = .remove then
      throw (.scim 400 "`remove` without `path` is not supported." (some "noTarget"))
    match value with
    | .obj resource => do
      ensureNoMutabilityViolation env resource "patch value"
      patchResource env acc resource
    | _ => throw (.scim 400 "`add` / `replace` without `path` requires a JSON object value." (some "invalidValue"))
  | some path =>
    match normalisePatchPath env (some path) with
    | none => pure acc
    | some norm =>
      if norm ∈ forbiddenPaths then
        throw (.scim 400 ("Path `" ++ String.ofList path ++ "` is not writable via inbound SCIM.") (some "mutability"))
      if norm ∉ patchAllowedSimplePaths ∧ norm ≠ "name" ∧ ¬ enterprisePath.isPrefixOf norm then
        throw (.scim 400 ("Path `" ++ String.ofList path ++ "` is not a supported PATCH target.") (some "invalidPath"))
      if op = .remove then patchRemove env acc norm else patchAssign env acc norm value

def accumulate (acc : Json.Dict) : List Json → Except Error Json.Dict
  | [] => .ok acc
  | rawOp :: ops => do
    let acc ← processPatchOperation env acc rawOp
    accumulate acc ops

end Patch

end WeftId.Scim
