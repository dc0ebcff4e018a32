import WeftId.Db

/-!
Groups, their parent and child relationships and the `group_lineage` closure table, as the database
layer and the group services maintain them.
-/

namespace WeftId

open Proc ClosureTable

namespace Db

def getGroupById (db : Db) (groupId : Id) : Option Group := db.groups.find? (·.id = groupId)

def getWeftidGroupByName (db : Db) (name : Text) : Option Group :=
  db.groups.find? fun g => g.name = name ∧ g.groupType = .weftid

def providerName (db : Db) (source : Source) (providerId : Id) : Option Text :=
  match source with
  | .saml => (db.identityProviders.find? (·.id = providerId)).map (·.name)
  | .oidc => (db.oidcConnections.find? (·.id = providerId)).map (·.name)

def getIdpBaseGroupId (db : Db) (idpId : Id) (source : Source) : Option Id :=
  (db.groups.find? fun g =>
    g.sourceId source = some idpId ∧ db.providerName source idpId = some g.name ∧ g.isValid).map (·.id)

def getGroupsByIdp (db : Db) (idpId : Id) (source : Source) : List Group :=
  db.groups.filter (·.sourceId source = some idpId)

def getGroupByIdpAndName (db : Db) (idpId : Id) (name : Text) (source : Source) : Option Group :=
  db.groups.find? fun g => g.sourceId source = some idpId ∧ g.name = name

def insertGroup (db : Db) (group : Id → Group) : Except DbError (Id × Db) :=
  let g := group db.nextId
  if 200 < g.name.length then .error (.checkViolation "groups_name_check")
  else if g.idpId.isSome ∧ g.oidcConnectionId.isSome then .error (.checkViolation "chk_groups_single_source")
  else if g.idpId = none ∧ g.oidcConnectionId = none ∧
      db.groups.any (fun h => h.idpId = none ∧ h.oidcConnectionId = none ∧ h.name = g.name) then
    .error (.uniqueViolation "idx_groups_weftid_name_unique")
  else if g.idpId.isSome ∧ db.groups.any (fun h => h.idpId = g.idpId ∧ h.name = g.name) then
    .error (.uniqueViolation "idx_groups_idp_name_unique")
  else if g.oidcConnectionId.isSome ∧
      db.groups.any (fun h => h.oidcConnectionId = g.oidcConnectionId ∧ h.name = g.name) then
    .error (.uniqueViolation "idx_groups_oidc_name_unique")
  else if ∃ p, g.idpId = some p ∧ db.providerName .saml p = none then
    .error (.foreignKeyViolation "fk_groups_idp")
  else if ∃ p, g.oidcConnectionId = some p ∧ db.providerName .oidc p = none then
    .error (.foreignKeyViolation "fk_groups_oidc_connection")
  else if (depthOf db.lineage g.id g.id).isSome then .error (.uniqueViolation "group_lineage_pkey")
  else .ok (g.id, { db with
    nextId := db.nextId + 1
    groups := db.groups ++ [g]
    lineage := db.lineage ++ [⟨g.id, g.id, 0⟩] })

def createGroup (db : Db) (name : Text) : Except DbError (Id × Db) :=
  db.insertGroup fun id => { id, name, groupType := .weftid }

def createIdpGroup (db : Db) (idpId : Id) (name : Text) (source : Source) : Except DbError (Id × Db) :=
  db.insertGroup fun id =>
    match source with
    | .saml => { id, name, groupType := .idp, idpId := some idpId }
    | .oidc => { id, name, groupType := .idp, oidcConnectionId := some idpId }

def wouldCreateCycle (db : Db) (parentGroupId childGroupId : Id) : Bool :=
  (depthOf db.lineage childGroupId parentGroupId).isSome

def relationshipExists (db : Db) (parentGroupId childGroupId : Id) : Bool :=
  ⟨parentGroupId, childGroupId⟩ ∈ db.relationships

def getGroupParents (db : Db) (groupId : Id) : List Group :=
  (db.relationships.filter (·.childGroupId = groupId)).filterMap fun gr => db.getGroupById gr.parentGroupId

def getGroupChildren (db : Db) (groupId : Id) : List Group :=
  (db.relationships.filter (·.parentGroupId = groupId)).filterMap fun gr => db.getGroupById gr.childGroupId

def crossLineage (lineage : List (Row Id)) (parentGroupId childGroupId : Id) : List (Row Id) :=
  (lineage.filter (·.descendant = parentGroupId)).flatMap fun p =>
    (lineage.filter (·.ancestor = childGroupId)).map fun c =>
      ⟨p.ancestor, c.descendant, p.depth + c.depth + 1⟩

/-- `false` when the relationship was there before. -/
def addGroupRelationship (db : Db) (parentGroupId childGroupId : Id) : Except DbError (Bool × Db) :=
  if parentGroupId = childGroupId then .error (.checkViolation "chk_no_self_relationship")
  else if db.relationshipExists parentGroupId childGroupId then .ok (false, db)
  else if db.getGroupById parentGroupId = none then .error (.foreignKeyViolation "fk_group_relationships_parent")
  else if db.getGroupById childGroupId = none then .error (.foreignKeyViolation "fk_group_relationships_child")
  else
    let new := crossLineage db.lineage parentGroupId childGroupId
    -- one statement may not update the same row twice
    if ¬ Keyed new then .error .cardinalityViolation
    else .ok (true, { db with
      relationships := db.relationships ++ [⟨parentGroupId, childGroupId⟩]
      lineage := upsertLeast db.lineage new })

def reachableBase (relationships : List Relationship) (descendants : List Id) : List (Row Id) :=
  ((relationships.filter (·.childGroupId ∈ descendants)).map fun gr =>
    ⟨gr.parentGroupId, gr.childGroupId, 1⟩).dedup

def reachableNext (relationships : List Relationship) (working : List (Row Id)) : List (Row Id) :=
  working.flatMap fun r =>
    (relationships.filter (·.childGroupId = r.ancestor)).map fun gr =>
      ⟨gr.parentGroupId, r.descendant, r.depth + 1⟩

def reachable (relationships : List Relationship) (descendants : List Id) : Option (List (Row Id)) :=
  let base := reachableBase relationships descendants
  recursiveUnion (reachableNext relationships) (relationships.length + 1) base base

def getDescendantIds (db : Db) (childGroupId : Id) : List Id :=
  (db.lineage.filter (·.ancestor = childGroupId)).map (·.descendant)

def keptLineage (lineage : List (Row Id)) (descendants : List Id) : List (Row Id) :=
  lineage.filter fun r => ¬ (r.descendant ∈ descendants ∧ r.ancestor ≠ r.descendant)

/-- The insert of the rebuild: derived rows joined with the self row of their descendant, least depth first. -/
def rebuildLineage (kept rows : List (Row Id)) : List (Row Id) :=
  upsertLeast kept (distinctOnLeast
    (rows.filter fun r => kept.any fun gl => gl.descendant = r.descendant ∧ gl.depth = 0))

def removeGroupRelationship (db : Db) (parentGroupId childGroupId : Id) : Except DbError (Nat × Db) :=
  if ¬ db.relationshipExists parentGroupId childGroupId then .ok (0, db)
  else
    let relationships := db.relationships.filter (· ≠ ⟨parentGroupId, childGroupId⟩)
    let descendants := db.getDescendantIds childGroupId
    if descendants = [] then .ok (1, { db with relationships })
    else
      let kept := keptLineage db.lineage descendants
      match reachable relationships descendants with
      | none => .error .statementTimeout
      | some rows => .ok (1, { db with relationships, lineage := rebuildLineage kept rows })

def deleteGroupsWhere (db : Db) (selected : Group → Bool) : Nat × Db :=
  let gone := (db.groups.filter selected).map (·.id)
  (gone.length, { db with
    groups := db.groups.filter fun g => ¬ selected g
    relationships := db.relationships.filter fun r => r.parentGroupId ∉ gone ∧ r.childGroupId ∉ gone
    lineage := db.lineage.filter fun r => r.ancestor ∉ gone ∧ r.descendant ∉ gone
    memberships := db.memberships.filter fun m => m.groupId ∉ gone
    domainGroupLinks := db.domainGroupLinks.filter fun l => l.groupId ∉ gone
    spGroupAssignments := db.spGroupAssignments.filter fun a => a.groupId ∉ gone
    clientGroupAssignments := db.clientGroupAssignments.filter fun a => a.groupId ∉ gone })

def deleteGroup (db : Db) (groupId : Id) : Nat × Db := db.deleteGroupsWhere (·.id = groupId)

def deleteGroupsByIdp (db : Db) (idpId : Id) (source : Source) : Nat × Db :=
  db.deleteGroupsWhere (·.sourceId source = some idpId)

end Db

def isIdpGroup (group : Group) : Bool := group.groupType = .idp

def idpSourceRef (group : Group) : Option (Source × Id) :=
  if ¬ isIdpGroup group then none
  else match group.idpId, group.oidcConnectionId with
    | some idpId, _ => some (.saml, idpId)
    | none, some connectionId => some (.oidc, connectionId)
    | none, none => none

def isIdpUmbrellaGroup (db : Db) (group : Group) : Bool :=
  match idpSourceRef group with
  | none => false
  | some (source, providerId) => db.getIdpBaseGroupId providerId source = some group.id

def isIdpManagedRelationship (db : Db) (parent child : Group) : Bool :=
  match idpSourceRef parent, idpSourceRef child with
  | some parentRef, some childRef => parentRef = childRef ∧ isIdpUmbrellaGroup db parent
  | _, _ => false

/-- The service `create_group`; the new group's id is what callers read from the returned detail. -/
def createGroup (user : RequestingUser) (name : Text) : Service Id := do
  requireAdmin user
  let name := name.strip
  require (name ≠ []) (.validation "Group name is required" "name_required" (some "name"))
  let existing ← read (·.getWeftidGroupByName name)
  require (existing = none) (.validation "A group with this name already exists" "group_name_exists" (some "name"))
  tx (·.createGroup name)

def createIdpBaseGroup (idpId : Id) (idpName : Text) (source : Source) : Service Id := do
  let existing ← read (·.getGroupByIdpAndName idpId idpName source)
  require (existing = none)
    (.conflict ("A group named '" ++ String.ofList idpName ++ "' already exists for this IdP") "group_name_exists")
  tx (·.createIdpGroup idpId idpName source)

def addChild (user : RequestingUser) (parentGroupId childGroupId : Id) : Service Unit := do
  requireAdmin user
  require (parentGroupId ≠ childGroupId) (.validation "A group cannot be a child of itself" "self_reference")
  let parent ← orRaise (·.getGroupById parentGroupId) (.notFound "Parent group not found" "parent_not_found")
  let _ ← orRaise (·.getGroupById childGroupId) (.notFound "Child group not found" "child_not_found")
  let umbrella ← read (isIdpUmbrellaGroup · parent)
  require (¬ (isIdpGroup parent ∧ ¬ umbrella)) (.validation "IdP groups cannot have children" "idp_cannot_be_parent")
  let linked ← read (·.relationshipExists parentGroupId childGroupId)
  require (¬ linked) (.conflict "This relationship already exists" "relationship_exists")
  let cycle ← read (·.wouldCreateCycle parentGroupId childGroupId)
  require (¬ cycle) (.validation "Adding this relationship would create a cycle" "would_create_cycle")
  let _ ← tx (·.addGroupRelationship parentGroupId childGroupId)

def removeChild (user : RequestingUser) (parentGroupId childGroupId : Id) : Service Unit := do
  requireAdmin user
  let parent ← read (·.getGroupById parentGroupId)
  let child ← read (·.getGroupById childGroupId)
  let managed : Bool ← read fun db =>
    match parent, child with
    | some parent, some child => isIdpManagedRelationship db parent child
    | _, _ => false
  require (¬ managed) (.forbidden "Cannot remove IdP-managed relationship" "idp_managed_relationship")
  let rowsAffected ← tx (·.removeGroupRelationship parentGroupId childGroupId)
  require (rowsAffected ≠ 0) (.notFound "Relationship not found" "relationship_not_found")

def removeAllRelationships (user : RequestingUser) (groupId : Id) : Service Unit := do
  requireAdmin user
  let group ← orRaise (·.getGroupById groupId) (.notFound "Group not found" "group_not_found")
  let parents ← read (·.getGroupParents groupId)
  let children ← read (·.getGroupChildren groupId)
  forEach parents fun parent => do
    let parentData ← read (·.getGroupById parent.id)
    let managed ← read fun db => parentData.any (isIdpManagedRelationship db · group)
    whenever (¬ managed) do
      let _ ← tx (·.removeGroupRelationship parent.id groupId)
  forEach children fun child => do
    let childData ← read (·.getGroupById child.id)
    let managed ← read fun db => childData.any (isIdpManagedRelationship db group ·)
    whenever (¬ managed) do
      let _ ← tx (·.removeGroupRelationship groupId child.id)

def deleteGroup (user : RequestingUser) (groupId : Id) : Service Unit := do
  requireAdmin user
  let existing ← orRaise (·.getGroupById groupId) (.notFound "Group not found" "group_not_found")
  require (¬ (isIdpGroup existing ∧ existing.isValid))
    (.forbidden "Cannot delete IdP group while its identity provider exists" "idp_group_active")
  let parents ← read (·.getGroupParents groupId)
  let children ← read (·.getGroupChildren groupId)
  require (parents = [] ∧ children = [])
    (.validation "Remove all parent and child relationships before deleting this group" "has_relationships")
  write fun db => (db.deleteGroup groupId).2

inductive GroupCall
  | createGroup (user : RequestingUser) (name : Text)
  | createIdpBaseGroup (idpId : Id) (idpName : Text) (source : Source)
  | addChild (user : RequestingUser) (parentGroupId childGroupId : Id)
  | removeChild (user : RequestingUser) (parentGroupId childGroupId : Id)
  | removeAllRelationships (user : RequestingUser) (groupId : Id)
  | deleteGroup (user : RequestingUser) (groupId : Id)

def GroupCall.exec (db : Db) : GroupCall → Db
  | .createGroup user name => (WeftId.createGroup user name).exec db
  | .createIdpBaseGroup idpId idpName source => (WeftId.createIdpBaseGroup idpId idpName source).exec db
  | .addChild user parent child => (WeftId.addChild user parent child).exec db
  | .removeChild user parent child => (WeftId.removeChild user parent child).exec db
  | .removeAllRelationships user group => (WeftId.removeAllRelationships user group).exec db
  | .deleteGroup user group => (WeftId.deleteGroup user group).exec db

end WeftId
