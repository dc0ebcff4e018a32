import WeftId.Scim.Payload
import WeftId.Users.State

/-!
Inbound SCIM writes of users.  The names, the upstream `externalId`, the copy of the provider's attributes
and the active flag are written in transactions of their own; a failure of the attribute copy is ignored.
-/

namespace WeftId

open Proc

namespace Db

def getUserIdByPrimaryEmail (db : Db) (env : Env) (email : Text) : Option Id :=
  (db.userEmails.find? fun e => sameEmail env e.email email ∧ e.isPrimary ∧ (db.getUserById e.userId).isSome).map
    (·.userId)

def getUserForIdp (db : Db) (idpId userId : Id) : Option User :=
  db.users.find? fun u => u.id = userId ∧ u.samlIdpId = some idpId

end Db

namespace Scim

structure UserResource where
  id : Id
  givenName : Text
  familyName : Text
  email : Option Text
  externalId : Option Text
  active : Bool
  deriving DecidableEq

def readUser (db : Db) (idpId userId : Id) : Option UserResource :=
  (db.getUserForIdp idpId userId).map fun user =>
    { id := user.id, givenName := user.firstName, familyName := user.lastName
      email := db.getPrimaryEmail user.id, externalId := db.getExternalId user.id idpId
      active := ¬ (user.isInactivated ∨ user.isAnonymized) }

def resolveUserPayload (idpId userId : Id) : Service UserResource :=
  orRaise (readUser · idpId userId) (.scim 500 "User written but could not be re-read for response.")

variable (env : Env)

def createUserFromScim (idpId : Id) (canonicalEmail firstName lastName externalId : Option Text) : Service Id := do
  match canonicalEmail with
  | none => raise (.scim 400 ("Payload missing a valid email address. Set `emails[].value` or a " ++
      "`userName` that is an email address.") (some "invalidValue"))
  | some email => do
    let userId ← tx (·.createUser (Text.orElse firstName "SCIM") (Text.orElse lastName "User") .member)
    let _ ← tx (·.addVerifiedEmail env userId email true)
    tx (·.setUserIdp userId idpId)
    match externalId with
    | some externalId => tx (·.setExternalId userId idpId externalId)
    | none => pure ()
    pure userId

def writeNames (userId : Id) (payload : Json.Dict) : Service Unit := do
  let (first, last) ← lookup fun _ => extractNames payload
  whenever (first ≠ none ∨ last ≠ none) do
    let current ← read (·.getUserById userId)
    tx (·.updateUserProfile userId (first.getD ((current.map (·.firstName)).getD []))
      (last.getD ((current.map (·.lastName)).getD [])))

def writeExternalId (idpId userId : Id) (payload : Json.Dict) : Service Unit :=
  match extractExternalId payload with
  | some externalId => tx (·.setExternalId userId idpId externalId)
  | none => pure ()

def mirrorAttributes (idpId userId : Id) (attributes : List (Text × Text)) : Service Unit :=
  rescue (applyIdpAttributes env userId idpId attributes) fun _ => pure ()

def applyPayloadWrites (idpId userId : Id) (payload : Json.Dict) (updateNames : Bool) : Service Unit := do
  whenever updateNames (writeNames userId payload)
  writeExternalId idpId userId payload
  let extraAttrs ← lookup fun _ => extractStandardAttributes env payload
  whenever (extraAttrs ≠ []) (mirrorAttributes env idpId userId extraAttrs)

/-- Inactivation as the provider asks for it; nothing about the role of the user is checked. -/
def deactivate (userId : Id) : Service Unit := do
  write (·.inactivateUser userId)
  write (·.revokeAllUserTokens userId)
  write (·.consumeUserSessionClients userId)

def handleActiveTransition (userId : Id) (newActive : Option Bool) : Service Unit := do
  match newActive with
  | none => pure ()
  | some newActive => do
    let current ← read (·.getUserById userId)
    match current with
    | none => pure ()
    | some current =>
      if ¬ newActive ∧ ¬ current.isInactivated then deactivate userId
      else whenever (newActive ∧ current.isInactivated ∧ ¬ current.isAnonymized) do
        write (·.reactivateUser userId)
        write (·.clearReactivationDenied userId)

def findUserForMerge (db : Db) (idpId : Id) (externalId canonicalEmail : Option Text) : Option Id :=
  (externalId.bind (db.getUserIdByExternalId idpId)) <|> (canonicalEmail.bind (db.getUserIdByPrimaryEmail env))

def createOrMergeUserAttempt (idpId : Id) (payload : Json.Dict) : Service (UserResource × Bool) := do
  lookup fun _ => ensureNoMutabilityViolation env payload "payload"
  let canonicalEmail ← lookup fun _ => extractPrimaryEmail env payload
  let externalId := extractExternalId payload
  let (firstName, lastName) ← lookup fun _ => extractNames payload
  let active ← lookup fun _ => extractActive payload
  let found ← read (findUserForMerge env · idpId externalId canonicalEmail)
  let userId ← match found with
    | none => createUserFromScim env idpId canonicalEmail firstName lastName externalId
    | some userId => do
      let existing ← read (·.getUserById userId)
      whenever (∃ user ∈ existing, user.samlIdpId ≠ some idpId) (tx (·.setUserIdp userId idpId))
      pure userId
  applyPayloadWrites env idpId userId payload found.isSome
  handleActiveTransition userId active
  let resource ← resolveUserPayload idpId userId
  pure (resource, found.isNone)

/-- A lost race against another POST shows as a violated unique constraint, and the merge is tried again. -/
def createOrMergeUser (idpId : Id) (payload : Json.Dict) : Service (UserResource × Bool) :=
  rescue (createOrMergeUserAttempt env idpId payload) fun
    | .database (.uniqueViolation _) => createOrMergeUserAttempt env idpId payload
    | e => raise e

def userNotFound : Error := .scim 404 "User not found"

def findUser (db : Db) (idpId userId : Id) : Option User :=
  (db.getUserById userId).filter (·.samlIdpId = some idpId)

def replaceUser (idpId userId : Id) (payload : Json.Dict) : Service UserResource := do
  lookup fun _ => ensureNoMutabilityViolation env payload "payload"
  let existing ← orRaise (findUser · idpId userId) userNotFound
  let active ← lookup fun _ => extractActive payload
  let (newFirst, newLast) := resolveReplaceNames payload existing
  tx (·.updateUserProfile userId newFirst newLast)
  writeExternalId idpId userId payload
  let extras ← lookup fun _ => extractStandardAttributes env payload
  mirrorAttributes env idpId userId extras
  handleActiveTransition userId active
  resolveUserPayload idpId userId

def patchUser (idpId userId : Id) (patchBody : Json) : Service UserResource := do
  let _ ← orRaise (findUser · idpId userId) userNotFound
  let ops ← lookup fun _ => patchOperations patchBody
  let payload ← lookup fun _ => accumulate env [] ops
  whenever (¬ payload.isEmpty) do
    applyPayloadWrites env idpId userId payload true
    -- the type of `active` is checked only now
    let active ← lookup fun _ => extractActive payload
    handleActiveTransition userId active
  resolveUserPayload idpId userId

def softDeleteUser (idpId userId : Id) : Service Unit := do
  let existing ← orRaise (findUser · idpId userId) userNotFound
  whenever (¬ existing.isInactivated) (deactivate userId)

end Scim

end WeftId
