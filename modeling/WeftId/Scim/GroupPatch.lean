import WeftId.Scim.GroupWrite
import WeftId.Scim.Path
import WeftId.Users.Attributes

/-!
The SCIM group endpoints that create, replace and patch a group.  The operations of a PATCH are applied
one after another, each in transactions of its own.  The response holds the group as it is read back.
-/

namespace WeftId

open List hiding lookup

open Proc

def Db.updateGroup (db : Db) (groupId : Id) (name : Text) : Except DbError (Unit × Db) :=
  let clash := fun g : Group => db.groups.any fun h => h.id ≠ g.id ∧ h.idpId = g.idpId ∧
    h.oidcConnectionId = g.oidcConnectionId ∧ h.name = name
  if db.groups.any fun g => g.id = groupId ∧ 200 < name.length then .error (.checkViolation "groups_name_check")
  else if db.groups.any fun g => g.id = groupId ∧ clash g then .error (.uniqueViolation "idx_groups_idp_name_unique")
  else .ok ((), { db with groups := db.groups.map fun g => if g.id = groupId then { g with name } else g })

namespace Scim

structure GroupResource where
  id : Id
  displayName : Text
  members : List Id
  deriving DecidableEq

def readGroup (db : Db) (idpId groupId : Id) : Option GroupResource :=
  (db.getGroupForIdp idpId groupId).map fun group =>
    { id := group.id, displayName := group.name, members := db.listGroupMembersForScim group.id }

variable (env : Env)

def memberNotProvisioned (candidate : Text) : Error :=
  .scim 400 ("Group member `" ++ String.ofList candidate ++
    "` does not match a provisioned user for this IdP. POST /Users first.") (some "invalidValue")

def boundUser (db : Db) (idpId userId : Id) : Option Id :=
  ((db.getUserById userId).filter (·.samlIdpId = some idpId)).map (·.id)

def resolveExternalId (db : Db) (idpId : Id) (candidate : Text) : Except Error Id :=
  match (db.getUserIdByExternalId idpId candidate).bind (boundUser db idpId) with
  | some userId => .ok userId
  | none => .error (memberNotProvisioned candidate)

/-- A member reference: the id of a user of the provider or, failing that, an upstream `externalId`. -/
def resolveMemberRef (db : Db) (idpId : Id) (value : Text) : Except Error Id :=
  if value.strip = [] then
    .error (.scim 400 "Group member reference missing `value`." (some "invalidValue"))
  else if Numeral.looksLikeUuid env.digitValue value.strip then
    match Numeral.readUuid value.strip with
    | none => .error (.exception "InvalidTextRepresentation")
    | some userId =>
      match boundUser db idpId userId with
      | some userId => .ok userId
      | none => resolveExternalId db idpId value.strip
  else resolveExternalId db idpId value.strip

def maxMembersPerRequest : Nat := 5000

def resolveMemberEntry (db : Db) (idpId : Id) : Json → Except Error Id
  | .obj fields =>
    match Json.field fields "value" with
    | .str value => resolveMemberRef env db idpId value
    | _ => .error (.scim 400 "Member `value` must be a string." (some "invalidValue"))
  | _ => .error (.scim 400 "Each member must be an object with a `value`." (some "invalidValue"))

def resolveMembers (db : Db) (idpId : Id) (members : Json) : Except Error (List Id) :=
  if ¬ members.truthy then .ok []
  else match members with
    | .arr items =>
      if maxMembersPerRequest < items.length then
        .error (.scim 413 ("`members` exceeds the per-request limit of 5000. Sync large memberships via " ++
          "incremental PATCH operations."))
      else (items.mapM (resolveMemberEntry env db idpId)).map List.dedup
    | _ => .error (.scim 400 "`members` must be an array." (some "invalidValue"))

def extractDisplayName (payload : Json.Dict) : Except Error (Option Text) :=
  match Json.field payload "displayName" with
  | .null => .ok none
  | .str raw => .ok (if raw.strip = [] then none else some raw.strip)
  | _ => .error (.scim 400 "`displayName` must be a string." (some "invalidValue"))

def nameTaken (name : Text) : Error :=
  .scim 409 ("A group named `" ++ String.ofList name ++ "` already exists for this IdP.") (some "uniqueness")

def checkDisplayNameUnique (idpId : Id) (name : Text) (excludingGroupId : Option Id) : Service Unit := do
  let existing ← read (·.getGroupByIdpAndName idpId name .saml)
  require (∀ group ∈ existing, excludingGroupId = some group.id) (nameTaken name)

def onNameTaken {α : Type} (name : Text) (write : Service α) : Service α :=
  rescue write fun
    | .database (.uniqueViolation _) => raise (nameTaken name)
    | e => raise e

def groupPayload (idpId groupId : Id) : Service GroupResource :=
  orRaise (readGroup · idpId groupId) (.scim 500 "Group written but could not be re-read for response.")

def ensureGroupForIdp (idpId groupId : Id) : Service Group :=
  orRaise (·.getGroupForIdp idpId groupId) (.scim 404 "Group not found")

def renameGroup (idpId groupId : Id) (newName : Text) : Service Unit := do
  checkDisplayNameUnique idpId newName (some groupId)
  onNameTaken newName (tx (·.updateGroup groupId newName))

def replaceGroup (idpId groupId : Id) (payload : Json.Dict) : Service GroupResource := do
  let existing ← ensureGroupForIdp idpId groupId
  let displayName ← lookup fun _ => extractDisplayName payload
  let newName := displayName.getD existing.name
  whenever (newName ≠ existing.name) (renameGroup idpId groupId newName)
  let rawMembers := Json.field payload "members"
  whenever (¬ rawMembers.isNull) do
    let targetIds ← lookup fun db => resolveMembers env db idpId rawMembers
    applyMembershipDiff groupId targetIds
  groupPayload idpId groupId

inductive GroupPath
  | members (filter : Option (Text × Text))
  | displayName
  | externalId

def patchAssertPath (rawPath : Option Text) : Except Error GroupPath :=
  match rawPath with
  | none => .error (.scim 400 "Group PATCH requires a `path` for each operation." (some "noTarget"))
  | some path =>
    match normalisePatchPathWithFilter env rawPath with
    | (some normalised, filter) =>
      if normalised = "members" then .ok (.members filter)
      else if normalised = "displayname" then .ok .displayName
      else if normalised = "externalid" then .ok .externalId
      else .error (.scim 400 ("Path `" ++ String.ofList path ++ "` is not a supported PATCH target.")
        (some "invalidPath"))
    | (none, _) =>
      .error (.scim 400 ("Path `" ++ String.ofList path ++ "` is not a supported PATCH target.") (some "invalidPath"))

def memberTarget (db : Db) (idpId : Id) (op : PatchOp) (value : Json) (filter : Option (Text × Text))
    (currentIds : List Id) : Except Error (List Id) :=
  match op with
  | .replace => resolveMembers env db idpId value
  | .add => do
    let newMembers ← resolveMembers env db idpId value
    pure (currentIds ++ newMembers.filter (· ∉ currentIds))
  | .remove =>
    match filter with
    | some (attr, refValue) => do
      if env.lower attr ≠ "value" then
        throw (.scim 400 ("Unsupported member filter attribute `" ++ String.ofList attr ++ "` (expected `value`).")
          (some "invalidFilter"))
      let userId ← resolveMemberRef env db idpId refValue
      pure (currentIds.filter (· ≠ userId))
    | none =>
      match value with
      | .null | .arr [] => pure []
      | .arr items => do
        let removed ← resolveMembers env db idpId (.arr items)
        pure (currentIds.filter (· ∉ removed))
      | _ => throw (.scim 400 "`remove` on `members` requires an element filter or an array value."
          (some "invalidValue"))

def patchOpMembers (idpId groupId : Id) (op : PatchOp) (value : Json) (filter : Option (Text × Text)) :
    Service Unit := do
  let target ← lookup fun db => memberTarget env db idpId op value filter (db.listGroupMembersForScim groupId)
  applyMembershipDiff groupId target

inductive GroupOperation
  | rename (newName : Text)
  | ignore
  | members (op : PatchOp) (value : Json) (filter : Option (Text × Text))

def patchDisplayName (op : PatchOp) (value : Json) : Except Error GroupOperation := do
  if op = .remove then
    throw (.scim 400 "`remove` on `displayName` is not supported." (some "invalidValue"))
  let value := match value with
    | .obj fields => Json.field fields "displayName"
    | value => value
  match value with
  | .str name =>
    if name.strip = [] then
      throw (.scim 400 "`displayName` value must be a non-empty string." (some "invalidValue"))
    else pure (.rename name.strip)
  | _ => throw (.scim 400 "`displayName` value must be a non-empty string." (some "invalidValue"))

def groupOperation (rawOp : Json) : Except Error GroupOperation := do
  let (op, rawPath, fields) ← parsePatchOp env rawOp
  match ← patchAssertPath env rawPath with
  | .displayName => patchDisplayName op (Json.field fields "value")
  | .externalId => pure .ignore
  | .members filter => pure (.members op (Json.field fields "value") filter)

def applyGroupOperations (idpId groupId : Id) : List Json → Option Text → Service (Option Text)
  | [], newName => pure newName
  | rawOp :: ops, newName => do
    let operation ← lookup fun _ => groupOperation env rawOp
    match operation with
    | .rename name => applyGroupOperations idpId groupId ops (some name)
    | .ignore => applyGroupOperations idpId groupId ops newName
    | .members op value filter => do
      patchOpMembers env idpId groupId op value filter
      applyGroupOperations idpId groupId ops newName

def applyNewName (idpId groupId : Id) : Option Text → Service Unit
  | none => pure ()
  | some newName => do
    let existing ← read (·.getGroupForIdp idpId groupId)
    whenever (∃ group ∈ existing, newName ≠ group.name) (renameGroup idpId groupId newName)

def patchGroup (idpId groupId : Id) (patchBody : Json) : Service GroupResource := do
  let _ ← ensureGroupForIdp idpId groupId
  let ops ← lookup fun _ => patchOperations patchBody
  let newName ← applyGroupOperations env idpId groupId ops none
  applyNewName idpId groupId newName
  groupPayload idpId groupId

section Spec

variable {env} {db : Db} {idpId groupId userId : Id} {op : PatchOp} {value : Json} {filter : Option (Text × Text)}

theorem boundUser_eq_some {found : Id} (h : boundUser db idpId userId = some found) :
    found = userId ∧ (db.getUserById userId).isSome := by
  obtain ⟨u, hu, rfl⟩ := Option.map_eq_some_iff.mp h
  have hget := (Option.filter_eq_some_iff.mp hu).1
  have hid : u.id = userId := by simpa using find?_some hget
  exact ⟨hid, by simp [hget]⟩

theorem isSome_of_resolveExternalId {candidate : Text} (h : resolveExternalId db idpId candidate = .ok userId) :
    (db.getUserById userId).isSome := by
  unfold resolveExternalId at h
  cases hbind : (db.getUserIdByExternalId idpId candidate).bind (boundUser db idpId) with
  | none => simp [hbind] at h
  | some found =>
    obtain rfl : found = userId := by simpa [hbind] using h
    obtain ⟨u, -, hbound⟩ := Option.bind_eq_some_iff.mp hbind
    obtain ⟨rfl, hsome⟩ := boundUser_eq_some hbound
    exact hsome

theorem isSome_of_resolveMemberRef {value : Text} (h : resolveMemberRef env db idpId value = .ok userId) :
    (db.getUserById userId).isSome := by
  unfold resolveMemberRef at h
  split_ifs at h with hempty huuid
  · cases hread : Numeral.readUuid value.strip with
    | none => simp [hread] at h
    | some parsed =>
      cases hbound : boundUser db idpId parsed with
      | none =>
        simp only [hread, hbound] at h
        exact isSome_of_resolveExternalId h
      | some found =>
        obtain ⟨rfl, hsome⟩ := boundUser_eq_some hbound
        obtain rfl : found = userId := by simpa [hread, hbound] using h
        exact hsome
  · exact isSome_of_resolveExternalId h

theorem isSome_of_mem_listGroupMembersForScim (h : userId ∈ db.listGroupMembersForScim groupId) :
    (db.getUserById userId).isSome := by
  obtain ⟨m, ⟨-, -, hm⟩, rfl⟩ := by simpa [Db.listGroupMembersForScim] using h
  exact hm

theorem isSome_of_resolveMemberEntry {entry : Json} (h : resolveMemberEntry env db idpId entry = .ok userId) :
    (db.getUserById userId).isSome := by
  unfold resolveMemberEntry at h
  split at h
  · split at h
    · exact isSome_of_resolveMemberRef h
    · simp at h
  · simp at h

theorem isSome_of_mapM_resolveMemberEntry {items : List Json} {ids : List Id}
    (h : items.mapM (resolveMemberEntry env db idpId) = .ok ids) (hmem : userId ∈ ids) :
    (db.getUserById userId).isSome := by
  induction items generalizing ids with
  | nil =>
    obtain rfl : [] = ids := by simpa using h
    simp at hmem
  | cons entry items ih =>
    rw [mapM_cons] at h
    obtain ⟨first, hentry, h⟩ := Check.bind_eq_ok.mp h
    obtain ⟨rest, hrest, h⟩ := Check.bind_eq_ok.mp h
    obtain rfl := Except.ok.inj h
    rcases mem_cons.mp hmem with rfl | hmem
    · exact isSome_of_resolveMemberEntry hentry
    · exact ih hrest hmem

theorem isSome_of_resolveMembers {members : Json} {ids : List Id} (h : resolveMembers env db idpId members = .ok ids)
    (hmem : userId ∈ ids) : (db.getUserById userId).isSome := by
  unfold resolveMembers at h
  by_cases htruthy : members.truthy = true
  · rw [if_neg (not_not.mpr htruthy)] at h
    cases members with
    | arr items =>
      dsimp only at h
      by_cases hmax : maxMembersPerRequest < items.length
      · rw [if_pos hmax] at h
        simp at h
      · rw [if_neg hmax] at h
        cases hall : items.mapM (resolveMemberEntry env db idpId) with
        | error e => simp [hall, Except.map] at h
        | ok all =>
          obtain rfl : all.dedup = ids := by simpa [hall, Except.map] using h
          exact isSome_of_mapM_resolveMemberEntry hall (mem_dedup.mp hmem)
    | _ => simp at h
  · rw [if_pos htruthy] at h
    obtain rfl : [] = ids := Except.ok.inj h
    simp at hmem

/-- The members that a `remove` takes out: the addressed one, the listed ones or, with neither, all. -/
def removedMembers (env : Env) (db : Db) (idpId : Id) (value : Json) (filter : Option (Text × Text))
    (currentIds : List Id) : Except Error (List Id) :=
  match filter, value with
  | some (attr, refValue), _ =>
    if env.lower attr = "value" then (resolveMemberRef env db idpId refValue).map ([·])
    else .error (.scim 400 ("Unsupported member filter attribute `" ++ String.ofList attr ++ "` (expected `value`).")
      (some "invalidFilter"))
  | none, .null | none, .arr [] => .ok currentIds
  | none, .arr items => resolveMembers env db idpId (.arr items)
  | none, _ => .error (.scim 400 "`remove` on `members` requires an element filter or an array value."
      (some "invalidValue"))

theorem memberTarget_remove (env : Env) (db : Db) (idpId : Id) (value : Json) (filter : Option (Text × Text))
    (currentIds : List Id) : memberTarget env db idpId .remove value filter currentIds =
      (removedMembers env db idpId value filter currentIds).map fun removed => currentIds.filter (· ∉ removed) := by
  cases filter with
  | some kv =>
    obtain ⟨attr, refValue⟩ := kv
    by_cases hattr : env.lower attr = "value"
    · cases href : resolveMemberRef env db idpId refValue <;>
        simp [memberTarget, removedMembers, hattr, href, Except.map]
    · simp only [memberTarget, removedMembers, if_neg hattr, if_pos (show env.lower attr ≠ "value" from hattr)]
      rfl
  | none =>
    cases value with
    | null => simp [memberTarget, removedMembers, Except.map]
    | arr items =>
      cases items with
      | nil => simp [memberTarget, removedMembers, Except.map]
      | cons => rfl
    | _ => rfl

theorem isSome_of_memberTarget {target : List Id}
    (h : memberTarget env db idpId op value filter (db.listGroupMembersForScim groupId) = .ok target)
    (hmem : userId ∈ target) : (db.getUserById userId).isSome := by
  have hkept : ∀ kept, userId ∈ (db.listGroupMembersForScim groupId).filter kept →
      (db.getUserById userId).isSome := fun _ h => isSome_of_mem_listGroupMembersForScim (mem_of_mem_filter h)
  cases op with
  | replace => exact isSome_of_resolveMembers h hmem
  | add =>
    obtain ⟨new, hnew, h⟩ := Check.bind_eq_ok.mp h
    rw [← Except.ok.inj h] at hmem
    rcases mem_append.mp hmem with hmem | hmem
    · exact isSome_of_mem_listGroupMembersForScim hmem
    · exact isSome_of_resolveMembers hnew (mem_of_mem_filter hmem)
  | remove =>
    rw [memberTarget_remove] at h
    cases hremoved : removedMembers env db idpId value filter (db.listGroupMembersForScim groupId) with
    | error e => simp [hremoved, Except.map] at h
    | ok =>
      simp only [hremoved, Except.map, Except.ok.injEq] at h
      subst h
      exact hkept _ hmem

theorem isSome_getGroupById_of_getGroupForIdp (h : (db.getGroupForIdp idpId groupId).isSome) :
    (db.getGroupById groupId).isSome := by
  obtain ⟨g, hg, hid, -⟩ := by simpa [Db.getGroupForIdp] using h
  exact find?_isSome.mpr ⟨g, hg, by simpa using hid⟩

theorem patchOpMembers_of_error {e : Error}
    (h : memberTarget env db idpId op value filter (db.listGroupMembersForScim groupId) = .error e) :
    patchOpMembers env idpId groupId op value filter db = (.error e, db) :=
  bind_apply_of_error (show lookup _ db = (.error e, db) by rw [lookup, h]) _

theorem patchOpMembers_of_ok {target : List Id} (hgroup : (db.getGroupForIdp idpId groupId).isSome)
    (h : memberTarget env db idpId op value filter (db.listGroupMembersForScim groupId) = .ok target) :
    ∃ memberships, patchOpMembers env idpId groupId op value filter db = (.ok (), { db with memberships }) ∧
      ∀ m, m ∈ memberships ↔ m.groupId = groupId ∧ m.userId ∈ target ∨
        m ∈ db.memberships ∧ ¬ (m.groupId = groupId ∧ m.userId ∈ db.listGroupMembersForScim groupId) := by
  obtain ⟨memberships, hdiff, hmem⟩ := applyMembershipDiff_apply (isSome_getGroupById_of_getGroupForIdp hgroup)
    fun userId huser => isSome_of_memberTarget h huser
  refine ⟨memberships, ?_, hmem⟩
  rw [patchOpMembers, bind_apply_of_ok (show lookup _ db = (.ok target, db) by rw [lookup, h])]
  exact hdiff

theorem groupPayload_apply (h : (db.getGroupForIdp idpId groupId).isSome) :
    ∃ resource, groupPayload idpId groupId db = (.ok resource, db) := by
  obtain ⟨g, hg⟩ := Option.isSome_iff_exists.mp h
  exact ⟨{ id := g.id, displayName := g.name, members := db.listGroupMembersForScim g.id }, by
    simp [groupPayload, orRaise, readGroup, hg]⟩

end Spec

end Scim

end WeftId
