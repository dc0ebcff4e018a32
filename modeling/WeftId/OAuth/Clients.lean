import WeftId.Groups.Hierarchy
import WeftId.OAuth.Tokens

/-!
Who may use an OAuth2 client, and the settings that decide it.  Only clients with OIDC enabled are gated: by
`available_to_all`, or by the groups assigned to the client.
-/

namespace WeftId

open Proc ClosureTable

namespace Db

/-- Available to everybody, or assigned to a group that one of the user's groups is or descends from. -/
def userCanAccessClient (db : Db) (userId clientId : Id) : Bool :=
  (db.getClientById clientId).any (·.availableToAll) ||
    db.memberships.any fun m => m.userId = userId ∧ db.clientGroupAssignments.any fun a =>
      a.oauth2ClientId = clientId ∧ (depthOf db.lineage a.groupId m.groupId).isSome

def updateClientOidcSettings (db : Db) (clientId : Id) (oidcEnabled availableToAll : Option Bool) : Db :=
  { db with oauth2Clients := db.oauth2Clients.map fun c =>
      if c.id = clientId then { c with
        oidcEnabled := oidcEnabled.getD c.oidcEnabled
        availableToAll := availableToAll.getD c.availableToAll }
      else c }

def createClientAssignment (db : Db) (clientId groupId : Id) : Bool × Db :=
  if db.clientGroupAssignments.any fun a => a.oauth2ClientId = clientId ∧ a.groupId = groupId then (false, db)
  else (true, { db with clientGroupAssignments := db.clientGroupAssignments ++ [⟨clientId, groupId⟩] })

def deleteClientAssignment (db : Db) (clientId groupId : Id) : Db :=
  { db with clientGroupAssignments := db.clientGroupAssignments.filter fun a =>
      ¬ (a.oauth2ClientId = clientId ∧ a.groupId = groupId) }

end Db

def authenticateClient (clientId : Id) : Service OAuth2Client := do
  let client ← orRaise (·.getClientById clientId) (.forbidden "Client authentication failed" "invalid_client")
  require client.isActive (.forbidden "Client is deactivated" "invalid_client")
  pure client

def getNormalClient (clientId : Id) : Service OAuth2Client := do
  let client ← orRaise (·.getClientById clientId) (.notFound "Application not found" "oauth2_client_not_found")
  require (client.clientType = .normal)
    (.validation "OIDC settings apply only to Apps (authorization-code clients)" "oidc_not_supported_for_client_type")
  pure client

/-- Narrowing a client from everybody to its groups revokes the tokens issued under the wider policy. -/
def setOidcSettings (user : RequestingUser) (clientId : Id) (oidcEnabled availableToAll : Option Bool) :
    Service Unit := do
  requireAdmin user
  let old ← getNormalClient clientId
  write (·.updateClientOidcSettings clientId oidcEnabled availableToAll)
  whenever (oidcEnabled.getD old.oidcEnabled ∧ availableToAll = some false ∧ old.availableToAll)
    (write (·.revokeAllClientTokens clientId))

def assignClientToGroup (user : RequestingUser) (clientId groupId : Id) : Service Unit := do
  requireAdmin user
  let _ ← getNormalClient clientId
  let _ ← orRaise (·.getGroupById groupId) (.notFound "Group not found" "group_not_found")
  let created ← tx fun db => .ok (db.createClientAssignment clientId groupId)
  require created (.conflict "Group is already assigned to this application" "oidc_client_group_already_assigned")

def removeClientGroupAssignment (user : RequestingUser) (clientId groupId : Id) : Service Unit := do
  requireAdmin user
  let client ← getNormalClient clientId
  let assigned ← read fun db => db.clientGroupAssignments.any fun a =>
    a.oauth2ClientId = clientId ∧ a.groupId = groupId
  write (·.deleteClientAssignment clientId groupId)
  require assigned (.notFound "Group assignment not found" "oidc_client_group_assignment_not_found")
  whenever (client.oidcEnabled ∧ ¬ client.availableToAll) (write (·.revokeAllClientTokens clientId))

end WeftId
