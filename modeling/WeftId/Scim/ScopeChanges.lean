import WeftId.Oidc.Links
import WeftId.Saml.Provisioning
import WeftId.Scim.Dispatch

/-!
The services that change whom an application is granted to: memberships, assignments of applications to
groups, the flag that opens an application to everyone, the hierarchy, and the deletion of groups and of
providers with their groups.  Each logs what it has done.
-/

namespace WeftId

open Proc Scim

namespace Db

def bulkRemoveGroupMembers (db : Db) (groupId : Id) (userIds : List Id) : Nat × Db :=
  ((db.memberships.filter fun m => m.groupId = groupId ∧ m.userId ∈ userIds).length,
    { db with memberships := db.memberships.filter fun m => ¬ (m.groupId = groupId ∧ m.userId ∈ userIds) })

def bulkAddGroupMembers (db : Db) (groupId : Id) (userIds : List Id) : Except DbError (Nat × Db) :=
  db.insertMemberships (userIds.map (⟨groupId, ·⟩))

def getServiceProvider (db : Db) (spId : Id) : Option ServiceProvider := db.serviceProviders.find? (·.id = spId)

def createAssignment (db : Db) (spId groupId : Id) : Except DbError (Unit × Db) :=
  if (⟨spId, groupId⟩ : SpGroupAssignment) ∈ db.spGroupAssignments then
    .error (.uniqueViolation "uq_sp_group_assignment")
  else .ok ((), { db with spGroupAssignments := db.spGroupAssignments ++ [⟨spId, groupId⟩] })

def deleteAssignment (db : Db) (spId groupId : Id) : Nat × Db :=
  ((db.spGroupAssignments.filter (· = ⟨spId, groupId⟩)).length,
    { db with spGroupAssignments := db.spGroupAssignments.filter (· ≠ ⟨spId, groupId⟩) })

def bulkCreateAssignments (db : Db) (spId : Id) (groupIds : List Id) : Nat × Db :=
  let new := (groupIds.dedup.map fun groupId => (⟨spId, groupId⟩ : SpGroupAssignment)).filter
    (· ∉ db.spGroupAssignments)
  (new.length, { db with spGroupAssignments := db.spGroupAssignments ++ new })

def setAvailableToAll (db : Db) (spId : Id) (availableToAll : Bool) : Db :=
  { db with serviceProviders := db.serviceProviders.map fun sp =>
    if sp.id = spId then { sp with availableToAll } else sp }

def mirrorRows (db : Db) : Source → List UserIdpAttribute
  | .saml => db.userIdpAttributes
  | .oidc => db.userOidcIdpAttributes

def matchesMirror (db : Db) (source : Source) (idpId : Id) (ua : UserAttribute) : Bool :=
  (db.mirrorRows source).any fun uia =>
    uia.userId = ua.userId ∧ uia.attributeKey = ua.attributeKey ∧ uia.value = ua.value ∧ uia.idpId = idpId

def deleteIdentityProvider (db : Db) (idpId : Id) : Db :=
  { db with
    identityProviders := db.identityProviders.filter (·.id ≠ idpId)
    samlDomainBindings := db.samlDomainBindings.filter (·.idpId ≠ idpId)
    userIdpAttributes := db.userIdpAttributes.filter (·.idpId ≠ idpId) }

def deleteConnection (db : Db) (connectionId : Id) : Db :=
  { db with
    oidcConnections := db.oidcConnections.filter (·.id ≠ connectionId)
    oidcDomainBindings := db.oidcDomainBindings.filter (·.idpId ≠ connectionId)
    oidcIdpUserLinks := db.oidcIdpUserLinks.filter (·.idpId ≠ connectionId)
    oidcIdpSessions := db.oidcIdpSessions.filter (·.idpId ≠ connectionId)
    userOidcIdpAttributes := db.userOidcIdpAttributes.filter (·.idpId ≠ connectionId) }

end Db

section Membership

variable (user : RequestingUser)

def requireNotIdpGroup (group : Group) (operation : String) : Service Unit :=
  require (¬ isIdpGroup group)
    (.forbidden ("Cannot " ++ operation ++ ": this group is managed by an identity provider") "idp_group_readonly")

def membershipEvent (eventType : EventType) (groupId userId : Id) : Event where
  eventType := eventType
  artifactId := groupId
  metadata := { groupId := some groupId, userId := some userId }

def addMember (groupId userId : Id) : Service Unit := do
  requireAdmin user
  let group ← orRaise (·.getGroupById groupId) (.notFound "Group not found" "group_not_found")
  requireNotIdpGroup group "add member"
  let _ ← orRaise (·.getUserById userId) (.notFound "User not found" "user_not_found")
  let member ← read (·.isGroupMember groupId userId)
  require (¬ member) (.conflict "User is already a member of this group" "already_member")
  let _ ← tx (·.insertMembership groupId userId)
  logEvent (membershipEvent .groupMemberAdded groupId userId)

def removeMember (groupId userId : Id) : Service Unit := do
  requireAdmin user
  let group ← orRaise (·.getGroupById groupId) (.notFound "Group not found" "group_not_found")
  requireNotIdpGroup group "remove member"
  let rowsAffected ← read fun db => (db.bulkRemoveGroupMembers groupId [userId]).1
  write fun db => (db.bulkRemoveGroupMembers groupId [userId]).2
  require (rowsAffected ≠ 0) (.notFound "User is not a member of this group" "not_a_member")
  logEvent (membershipEvent .groupMemberRemoved groupId userId)

def bulkAddMembers (groupId : Id) (userIds : List Id) : Service Unit := do
  requireAdmin user
  let group ← orRaise (·.getGroupById groupId) (.notFound "Group not found" "group_not_found")
  requireNotIdpGroup group "bulk add members"
  let count ← tx (·.bulkAddGroupMembers groupId userIds)
  whenever (0 < count) do
    logEvent { eventType := .groupMembersBulkAdded, artifactId := groupId, metadata := { userIds } }

def bulkRemoveMembers (groupId : Id) (userIds : List Id) : Service Unit := do
  requireAdmin user
  let group ← orRaise (·.getGroupById groupId) (.notFound "Group not found" "group_not_found")
  requireNotIdpGroup group "bulk remove members"
  let count ← read fun db => (db.bulkRemoveGroupMembers groupId userIds).1
  write fun db => (db.bulkRemoveGroupMembers groupId userIds).2
  whenever (0 < count) do
    logEvent { eventType := .groupMembersBulkRemoved, artifactId := groupId, metadata := { userIds } }

def addUserToGroup (userId groupId : Id) : Service Unit := do
  let group ← read (·.getGroupById groupId)
  let member ← read (·.isGroupMember groupId userId)
  whenever ((group.any fun g => g.groupType ≠ .idp) ∧ ¬ member) do
    let _ ← tx (·.insertMembership groupId userId)

def bulkAddUserToGroups (userId : Id) (groupIds : List Id) : Service Unit := do
  requireAdmin user
  let _ ← orRaise (·.getUserById userId) (.notFound "User not found" "user_not_found")
  let before ← read (·.memberships.length)
  forEach groupIds (addUserToGroup userId)
  let after ← read (·.memberships.length)
  whenever (before < after) do
    logEvent { eventType := .userGroupsBulkAdded, artifactId := userId }

def bulkGroupAssignment (groupId : Id) (userIds : List Id) : Service Unit := do
  let group ← read (·.getGroupById groupId)
  whenever (group.any fun g => g.groupType ≠ .idp) do
    forEach userIds fun userId => rescue (do
      let found ← read (·.getUserById userId)
      let member ← read (·.isGroupMember groupId userId)
      whenever (found.isSome ∧ ¬ member) do
        let _ ← tx (·.insertMembership groupId userId)
        logEvent { eventType := .groupMemberAdded, artifactId := groupId, metadata := { userId := some userId } })
      fun _ => pure ()

def logMembershipAdditions (userId : Id) (groupIds : List Id) : Service Unit := do
  let _ ← applyMembershipAdditions userId groupIds
  forEach groupIds fun groupId => logEvent (membershipEvent .idpGroupMemberAdded groupId userId)

def logMembershipRemovals (userId : Id) (groupIds : List Id) : Service Unit := do
  let _ ← applyMembershipRemovals userId groupIds
  forEach groupIds fun groupId => logEvent (membershipEvent .idpGroupMemberRemoved groupId userId)

def logAutoAssignment (env : Env) (userId : Id) (email : Text) : Service Unit := do
  let before ← read (·.memberships.length)
  autoAssignUserToDomainGroups env userId email
  let after ← read (·.memberships.length)
  whenever (before < after) do
    logEvent { eventType := .domainGroupAutoAssigned, artifactId := userId }

end Membership

section Assignments

variable (user : RequestingUser)

def assignSpToGroup (spId groupId : Id) : Service Unit := do
  requireAdmin user
  let _ ← orRaise (·.getServiceProvider spId) (.notFound "Service provider not found" "sp_not_found")
  let _ ← orRaise (·.getGroupById groupId) (.notFound "Group not found" "group_not_found")
  tx (·.createAssignment spId groupId)
  logEvent { eventType := .spGroupAssigned, artifactId := spId, metadata := { groupId := some groupId } }

def removeSpGroupAssignment (spId groupId : Id) : Service Unit := do
  requireAdmin user
  let _ ← orRaise (·.getServiceProvider spId) (.notFound "Service provider not found" "sp_not_found")
  let deleted ← read fun db => (db.deleteAssignment spId groupId).1
  write fun db => (db.deleteAssignment spId groupId).2
  require (deleted ≠ 0) (.notFound "Group assignment not found" "sp_group_assignment_not_found")
  logEvent { eventType := .spGroupUnassigned, artifactId := spId, metadata := { groupId := some groupId } }

def bulkAssignSpToGroups (spId : Id) (groupIds : List Id) : Service Unit := do
  requireAdmin user
  let _ ← orRaise (·.getServiceProvider spId) (.notFound "Service provider not found" "sp_not_found")
  let known ← read fun db => groupIds.all fun groupId => (db.getGroupById groupId).isSome
  require (known) (.notFound "Group not found" "group_not_found")
  let count ← read fun db => (db.bulkCreateAssignments spId groupIds).1
  write fun db => (db.bulkCreateAssignments spId groupIds).2
  whenever (0 < count) do
    logEvent { eventType := .spGroupsBulkAssigned, artifactId := spId, metadata := { groupIds } }

/-- An update of an application: whether fields are given that nothing here depends on, and the flag. -/
structure SPUpdate where
  changesOther : Bool := false
  availableToAll : Option Bool := none

def accessModeEvent (spId : Id) (availableToAll : Option Bool) (previous : Bool) : Event where
  eventType := .spAccessModeUpdated
  artifactId := spId
  metadata := { availableToAll, previousAvailableToAll := some previous }

def updateServiceProvider (spId : Id) (data : SPUpdate) : Service Unit := do
  requireSuperAdmin user
  let existing ← orRaise (·.getServiceProvider spId) (.notFound "Service provider not found" "sp_not_found")
  require (data.changesOther ∨ data.availableToAll.isSome)
    (.validation "At least one field must be provided for update" "sp_update_no_fields")
  write fun db => (data.availableToAll.map (db.setAvailableToAll spId)).getD db
  logEvent { eventType := .serviceProviderUpdated, artifactId := spId }
  whenever (data.availableToAll.any (· ≠ existing.availableToAll)) do
    logEvent (accessModeEvent spId data.availableToAll existing.availableToAll)

end Assignments

section Structure

variable (user : RequestingUser)

def logAddChild (parentGroupId childGroupId : Id) : Service Unit := do
  addChild user parentGroupId childGroupId
  logEvent { eventType := .groupRelationshipCreated, artifactId := parentGroupId }

def logRemoveChild (parentGroupId childGroupId : Id) : Service Unit := do
  removeChild user parentGroupId childGroupId
  logEvent { eventType := .groupRelationshipDeleted, artifactId := parentGroupId }

def logDeleteGroup (groupId : Id) : Service Unit := do
  deleteGroup user groupId
  logEvent { eventType := .groupDeleted, artifactId := groupId }

def logInvalidateIdpGroups (idpId : Id) (source : Source) : Service Unit := do
  let groups ← read (·.getGroupsByIdp idpId source)
  forEach groups fun group => logEvent { eventType := .idpGroupInvalidated, artifactId := group.id }
  let _ ← invalidateIdpGroups idpId source

/-- Deletes the canonical values of all users that still equal what the provider has last sent. -/
def scrubAllCanonicalMatchesMirror (idpId : Id) (source : Source) : Service Unit := do
  let deleted ← read fun db => db.userAttributes.filter (db.matchesMirror source idpId)
  write fun db => { db with userAttributes := db.userAttributes.filter fun ua => ¬ db.matchesMirror source idpId ua }
  forEach (deleted.map (·.userId)).dedup fun userId =>
    logEvent { eventType := .userProfileUpdated, artifactId := userId }

def deleteIdentityProvider (idpId : Id) (scrubMirroredAttributes : Bool) : Service Unit := do
  requireSuperAdmin user
  let existing ← orRaise (·.getIdentityProvider idpId) (.notFound "Identity provider not found" "idp_not_found")
  require (¬ existing.isEnabled)
    (.conflict "Cannot delete an enabled identity provider. Disable it first." "idp_is_enabled")
  let userCount ← read fun db => (db.users.filter (·.samlIdpId = some idpId)).length
  require (userCount = 0) (.conflict ("Cannot delete IdP: " ++ toString userCount ++ " user(s) are assigned to it. " ++
    "Migrate users to another IdP or set them to 'password only' first.") "idp_has_assigned_users")
  let domainCount ← read fun db => (db.samlDomainBindings.filter (·.idpId = idpId)).length
  require (domainCount = 0) (.conflict ("Cannot delete IdP: " ++ toString domainCount ++
    " domain(s) are bound to it. Unbind or rebind domains first.") "idp_has_bound_domains")
  logInvalidateIdpGroups idpId .saml
  whenever scrubMirroredAttributes (scrubAllCanonicalMatchesMirror idpId .saml)
  write (·.deleteIdentityProvider idpId)
  logEvent { eventType := .samlIdpDeleted, artifactId := idpId }

def deleteConnection (connectionId : Id) : Service Unit := do
  requireSuperAdmin user
  let existing ← orRaise (·.getConnection connectionId)
    (.notFound "OIDC connection not found" "oidc_connection_not_found")
  require (¬ existing.isEnabled)
    (.conflict "Cannot delete an enabled OIDC connection. Disable it first." "oidc_connection_is_enabled")
  let linkCount ← read fun db => (db.oidcIdpUserLinks.filter (·.idpId = connectionId)).length
  require (linkCount = 0) (.conflict ("Cannot delete OIDC connection: " ++ toString linkCount ++
    " user(s) are linked to it. Unlink users first.") "oidc_connection_has_linked_users")
  scrubAllCanonicalMatchesMirror connectionId .oidc
  logInvalidateIdpGroups connectionId .oidc
  write (·.deleteConnection connectionId)
  logEvent { eventType := .oidcIdpConnectionDeleted, artifactId := connectionId }

end Structure

inductive ScopeCall
  | addMember (user : RequestingUser) (groupId userId : Id)
  | removeMember (user : RequestingUser) (groupId userId : Id)
  | bulkAddMembers (user : RequestingUser) (groupId : Id) (userIds : List Id)
  | bulkRemoveMembers (user : RequestingUser) (groupId : Id) (userIds : List Id)
  | bulkGroupAssignment (groupId : Id) (userIds : List Id)
  | addProviderMemberships (userId : Id) (groupIds : List Id)
  | removeProviderMemberships (userId : Id) (groupIds : List Id)
  | bulkAddUserToGroups (user : RequestingUser) (userId : Id) (groupIds : List Id)
  | autoAssign (userId : Id) (email : Text)
  | assignSpToGroup (user : RequestingUser) (spId groupId : Id)
  | removeSpGroupAssignment (user : RequestingUser) (spId groupId : Id)
  | bulkAssignSpToGroups (user : RequestingUser) (spId : Id) (groupIds : List Id)
  | updateServiceProvider (user : RequestingUser) (spId : Id) (data : SPUpdate)
  | addChild (user : RequestingUser) (parentGroupId childGroupId : Id)
  | removeChild (user : RequestingUser) (parentGroupId childGroupId : Id)
  | deleteGroup (user : RequestingUser) (groupId : Id)
  | deleteIdentityProvider (user : RequestingUser) (idpId : Id) (scrubMirroredAttributes : Bool)
  | deleteConnection (user : RequestingUser) (connectionId : Id)

def ScopeCall.run (env : Env) : ScopeCall → Service Unit
  | .addMember user groupId userId => WeftId.addMember user groupId userId
  | .removeMember user groupId userId => WeftId.removeMember user groupId userId
  | .bulkAddMembers user groupId userIds => WeftId.bulkAddMembers user groupId userIds
  | .bulkRemoveMembers user groupId userIds => WeftId.bulkRemoveMembers user groupId userIds
  | .bulkGroupAssignment groupId userIds => WeftId.bulkGroupAssignment groupId userIds
  | .addProviderMemberships userId groupIds => logMembershipAdditions userId groupIds
  | .removeProviderMemberships userId groupIds => logMembershipRemovals userId groupIds
  | .bulkAddUserToGroups user userId groupIds => WeftId.bulkAddUserToGroups user userId groupIds
  | .autoAssign userId email => logAutoAssignment env userId email
  | .assignSpToGroup user spId groupId => WeftId.assignSpToGroup user spId groupId
  | .removeSpGroupAssignment user spId groupId => WeftId.removeSpGroupAssignment user spId groupId
  | .bulkAssignSpToGroups user spId groupIds => WeftId.bulkAssignSpToGroups user spId groupIds
  | .updateServiceProvider user spId data => WeftId.updateServiceProvider user spId data
  | .addChild user parentGroupId childGroupId => logAddChild user parentGroupId childGroupId
  | .removeChild user parentGroupId childGroupId => logRemoveChild user parentGroupId childGroupId
  | .deleteGroup user groupId => logDeleteGroup user groupId
  | .deleteIdentityProvider user idpId scrub => WeftId.deleteIdentityProvider user idpId scrub
  | .deleteConnection user connectionId => WeftId.deleteConnection user connectionId

end WeftId
