import WeftId.Auth.Session

/-!
Ending sessions from the server side, and disconnecting a user from an OIDC connection.
-/

namespace WeftId

open Proc

namespace Db

def getConnection (db : Db) (connectionId : Id) : Option OidcConnection :=
  db.oidcConnections.find? (·.id = connectionId)

def getLinkForUserIdp (db : Db) (userId idpId : Id) : Option OidcIdpUserLink :=
  db.oidcIdpUserLinks.find? fun l => l.userId = userId ∧ l.idpId = idpId

def listLinksForUser (db : Db) (userId : Id) : List OidcIdpUserLink :=
  db.oidcIdpUserLinks.filter fun l => l.userId = userId ∧ (db.getConnection l.idpId).isSome

def deleteLinkForUserIdp (db : Db) (userId idpId : Id) : Db :=
  { db with oidcIdpUserLinks := db.oidcIdpUserLinks.filter fun l => ¬ (l.userId = userId ∧ l.idpId = idpId) }

def deleteOidcForUserIdp (db : Db) (userId idpId : Id) : Db :=
  { db with userOidcIdpAttributes := db.userOidcIdpAttributes.filter fun r =>
      ¬ (r.userId = userId ∧ r.idpId = idpId) }

/-- Deletes the canonical values of one user that still equal what a connection last sent. -/
def scrubOidcCanonicalMatchesMirror (db : Db) (userId idpId : Id) : Db :=
  { db with userAttributes := db.userAttributes.filter fun ua =>
      ¬ (ua.userId = userId ∧ db.userOidcIdpAttributes.any fun uia =>
        uia.userId = ua.userId ∧ uia.attributeKey = ua.attributeKey ∧ uia.value = ua.value ∧ uia.idpId = idpId) }

def findUserIdpSessions (db : Db) (idpId userId : Id) : List OidcIdpSession :=
  db.oidcIdpSessions.filter fun s => s.idpId = idpId ∧ s.userId = userId

def deleteIdpSession (db : Db) (sid : Id) : Db :=
  { db with oidcIdpSessions := db.oidcIdpSessions.filter (·.sid ≠ sid) }

/-- A session ends: its cookie is refused, its clients are told and its refresh tokens are revoked. -/
def endOidcSession (db : Db) (sid : Id) : Db :=
  (((db.revokeSession sid).deleteIdpSession sid).consumeSessionClients sid).revokeSessionRefreshTokens sid

end Db

def endOidcSession (sid : Option Id) : Service Unit :=
  match sid with
  | none => pure ()
  | some sid => write (·.endOidcSession sid)

def endOidcSessions (sids : List Id) : Service Unit := forEach sids fun sid => endOidcSession (some sid)

/-- The tokens are revoked for every disconnection; losing the last link also inactivates the user. -/
def unlinkUserFromConnection (user : RequestingUser) (userId connectionId : Id) : Service Unit := do
  requireSuperAdmin user
  let _ ← orRaise (·.getUserById userId) (.notFound "User not found" "user_not_found")
  let _ ← orRaise (·.getConnection connectionId) (.notFound "OIDC connection not found" "oidc_connection_not_found")
  let _ ← orRaise (·.getLinkForUserIdp userId connectionId)
    (.notFound "User is not linked to this OIDC connection" "oidc_user_link_not_found")
  write (·.scrubOidcCanonicalMatchesMirror userId connectionId)
  write (·.deleteOidcForUserIdp userId connectionId)
  write (·.deleteLinkForUserIdp userId connectionId)
  let sessions ← read (·.findUserIdpSessions connectionId userId)
  endOidcSessions (sessions.map (·.sid))
  write (·.revokeAllUserTokens userId)
  let remainingLinks ← read (·.listLinksForUser userId)
  whenever (remainingLinks = []) do
    write (·.unverifyUserEmails userId)
    write (·.inactivateUser userId)
    write (·.consumeUserSessionClients userId)

end WeftId
