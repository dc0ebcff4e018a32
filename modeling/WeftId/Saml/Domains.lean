import WeftId.Lib.Fiber
import WeftId.OAuth.Tokens
import WeftId.Users.Attributes

/-!
Binding privileged domains to SAML providers and assigning single users to them.  A request that binds a
domain is written as its database calls, between which other requests may run.  Stored password hashes are
kept by every path.
-/

namespace WeftId

open Proc
open Fiber (atomic toProc_bind toProc_require toProc_rescue)

namespace Db

def getPrivilegedDomainById (db : Db) (domainId : Id) : Option PrivilegedDomain :=
  db.privilegedDomains.find? (·.id = domainId)

def getSamlDomainBinding (db : Db) (domainId : Id) : Option DomainBinding :=
  db.samlDomainBindings.find? fun b => b.domainId = domainId ∧
    (db.getPrivilegedDomainById b.domainId).isSome ∧ (db.getIdentityProvider b.idpId).isSome

def getOidcDomainBinding (db : Db) (domainId : Id) : Option DomainBinding :=
  db.oidcDomainBindings.find? fun b => b.domainId = domainId ∧
    (db.getPrivilegedDomainById b.domainId).isSome ∧ db.oidcConnections.any (·.id = b.idpId)

def bindDomainToIdp (db : Db) (domainId idpId : Id) : Db :=
  { db with samlDomainBindings := db.samlDomainBindings.filter (·.domainId ≠ domainId) ++ [⟨domainId, idpId⟩] }

def unbindSamlDomain (db : Db) (domainId : Id) : Db :=
  { db with samlDomainBindings := db.samlDomainBindings.filter (·.domainId ≠ domainId) }

end Db

inductive BindingCall
  | keep
  | bindSaml (domainId : Id)
  | bindOidc (domainId : Id)
  | unbind

abbrev BindingFiber (α : Type) := Fiber BindingCall Db Error α

variable (env : Env)

def keeping {α : Type} (call : Service α) : BindingFiber α := atomic .keep call

def found {α : Type} (row : Db → Option α) (message code : String) : BindingFiber α :=
  keeping (orRaise row (.notFound message code))

def requireSuperAdminSteps (user : RequestingUser) : BindingFiber Unit :=
  Fiber.require (user.role = .superAdmin)
    (.forbidden "Super admin access required" "super_admin_required" (some "super_admin"))

def createIdpBaseGroupSteps (idpId : Id) (idpName : Text) (source : Source) : BindingFiber Id := do
  let existing ← keeping (read (·.getGroupByIdpAndName idpId idpName source))
  Fiber.require (existing = none)
    (.conflict ("A group named '" ++ String.ofList idpName ++ "' already exists for this IdP") "group_name_exists")
  keeping (tx (·.createIdpGroup idpId idpName source))

def baseGroupConflict (idpId : Id) (idpName : Text) (source : Source) : Error → BindingFiber Id
  | .conflict _ _ => keeping (orRaise (·.getIdpBaseGroupId idpId source)
      (.validation ("Failed to create or find base group for IdP " ++ String.ofList idpName)
        "base_group_creation_failed"))
  | e => Fiber.raise e

def getOrCreateBaseGroupIdSteps (idpId : Id) (idpName : Text) (source : Source) : BindingFiber Id := do
  let base ← keeping (read (·.getIdpBaseGroupId idpId source))
  match base with
  | some baseGroupId => pure baseGroupId
  | none => (createIdpBaseGroupSteps idpId idpName source).rescue (baseGroupConflict idpId idpName source)

theorem toProc_createIdpBaseGroupSteps (idpId : Id) (idpName : Text) (source : Source) :
    (createIdpBaseGroupSteps idpId idpName source).toProc = createIdpBaseGroup idpId idpName source := by
  simp only [createIdpBaseGroupSteps, toProc_bind, toProc_require]
  rfl

theorem toProc_getOrCreateBaseGroupIdSteps (idpId : Id) (idpName : Text) (source : Source) :
    (getOrCreateBaseGroupIdSteps idpId idpName source).toProc = getOrCreateBaseGroupId idpId idpName source := by
  simp only [getOrCreateBaseGroupIdSteps, toProc_bind]
  congr 1
  funext base
  cases base with
  | some => rfl
  | none =>
    simp only [toProc_rescue, toProc_createIdpBaseGroupSteps]
    congr 1
    funext e
    cases e <;> rfl

def ensureUsersInBaseGroup (userIds : List Id) (idpId : Id) (idpName : Text) : BindingFiber Unit :=
  Fiber.whenever (userIds ≠ []) do
    let baseGroupId ← getOrCreateBaseGroupIdSteps idpId idpName .saml
    Fiber.forEach userIds fun userId => do
      let _ ← keeping (tx (·.bulkAddUserToGroups userId [baseGroupId]))

def moveUsersBetweenIdps (userIds : List Id) (oldIdpId newIdpId : Id) (newIdpName : Text) : BindingFiber Unit := do
  Fiber.forEach userIds fun userId => do
    let oldGroupIds ← keeping (read (·.getUserIdpGroupIds userId oldIdpId .saml))
    Fiber.whenever (oldGroupIds ≠ []) (keeping (write (·.bulkRemoveUserFromGroups userId oldGroupIds)))
  ensureUsersInBaseGroup userIds newIdpId newIdpName

def bindDomainToIdp (user : RequestingUser) (idpId domainId : Id) : BindingFiber Unit := do
  requireSuperAdminSteps user
  let idp ← found (·.getIdentityProvider idpId) "Identity provider not found" "idp_not_found"
  let domain ← found (·.getPrivilegedDomainById domainId) "Privileged domain not found" "domain_not_found"
  let oidcBinding ← keeping (read (·.getOidcDomainBinding domainId))
  Fiber.require (oidcBinding = none)
    (.conflict ("Domain '" ++ String.ofList domain.domain ++
      "' is already bound to an OIDC connection. Unbind it from the OIDC connection first.")
      "domain_bound_to_oidc_connection")
  let usersInDomain ← keeping (read (·.getUsersByEmailDomain env domain.domain))
  let userIds := (usersInDomain.filter (·.samlIdpId ≠ some idpId)).map (·.id)
  Fiber.whenever (userIds ≠ []) do
    keeping (tx (·.bulkAssignUsersToIdp userIds idpId))
    ensureUsersInBaseGroup userIds idpId idp.name
  atomic (.bindSaml domainId) (write (·.bindDomainToIdp domainId idpId))

def unbindDomainFromIdp (user : RequestingUser) (domainId : Id) : BindingFiber Unit := do
  requireSuperAdminSteps user
  let _ ← found (·.getSamlDomainBinding domainId) "Domain binding not found" "domain_binding_not_found"
  let _ ← found (·.getPrivilegedDomainById domainId) "Privileged domain not found" "domain_not_found"
  atomic .unbind (write (·.unbindSamlDomain domainId))

def rebindDomainToIdp (user : RequestingUser) (domainId newIdpId : Id) : BindingFiber Unit := do
  requireSuperAdminSteps user
  let binding ← found (·.getSamlDomainBinding domainId) "Domain binding not found" "domain_binding_not_found"
  let newIdp ← found (·.getIdentityProvider newIdpId) "Target identity provider not found" "idp_not_found"
  let domain ← found (·.getPrivilegedDomainById domainId) "Privileged domain not found" "domain_not_found"
  let _ ← keeping (read (·.getIdentityProvider binding.idpId))
  let usersInDomain ← keeping (read (·.getUsersByEmailDomain env domain.domain))
  let userIds := (usersInDomain.filter (·.samlIdpId = some binding.idpId)).map (·.id)
  Fiber.whenever (userIds ≠ []) do
    Fiber.forEach userIds fun userId => keeping (tx (·.updateUserSamlIdp userId (some newIdpId)))
    moveUsersBetweenIdps userIds binding.idpId newIdpId newIdp.name
  atomic (.bindSaml domainId) (write (·.bindDomainToIdp domainId newIdpId))

/-- Group memberships after a change of provider from `current` to `target`. -/
def moveGroupMemberships (userId : Id) (current target : Option Id) (targetName : Text) : Service Unit :=
  match current, target with
  | some old, some new => whenever (old ≠ new) do
      removeUserFromAllIdpGroups userId old
      ensureUserInBaseGroup userId new targetName .saml
  | none, some new => ensureUserInBaseGroup userId new targetName .saml
  | some old, none => removeUserFromAllIdpGroups userId old
  | none, none => pure ()

/-- Leaving a provider for password sign-in unverifies the user's addresses and inactivates the user. -/
def assignUserIdp (user : RequestingUser) (userId : Id) (samlIdpId : Option Id) (scrubMirroredAttributes : Bool) :
    Service Unit := do
  requireSuperAdmin user
  let target ← orRaise (·.getUserById userId) (.notFound "User not found" "user_not_found")
  let idp ← read fun db => samlIdpId.bind db.getIdentityProvider
  require (samlIdpId.isSome → idp.isSome) (.notFound "Identity provider not found" "idp_not_found")
  let idpName := (idp.map (·.name)).getD []
  whenever (target.samlIdpId.isSome ∧ samlIdpId = none) do
    write (·.unverifyUserEmails userId)
    write (·.inactivateUser userId)
    write (·.revokeAllUserTokens userId)
    write (·.consumeUserSessionClients userId)
  tx (·.updateUserSamlIdp userId samlIdpId)
  match target.samlIdpId with
  | some old => whenever (scrubMirroredAttributes ∧ samlIdpId ≠ some old) do
      scrubCanonicalMatchesMirror userId old
      write (·.deleteForUserIdp userId old)
  | none => pure ()
  moveGroupMemberships userId target.samlIdpId samlIdpId idpName

end WeftId
