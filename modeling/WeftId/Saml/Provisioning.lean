import WeftId.Users.Attributes

/-!
Sign-ins through a SAML provider: the user behind the asserted address is linked to the provider, or
created by just-in-time provisioning, and group memberships and attributes follow the assertion.
-/

namespace WeftId

open Proc

structure SamlAuthResult where
  email : Text
  firstName : Option Text := none
  lastName : Option Text := none
  idpId : Id
  idpName : Option Text := none
  groups : List Text := []
  standardAttributes : List (Text × Text) := []

/-- One `@` with text on both sides, and a dotted domain without empty labels. -/
def isEmailLike (value : Text) : Bool :=
  match Text.split '@' value.strip with
  | [localPart, domain] => localPart ≠ [] ∧ domain.contains '.' ∧ (Text.split '.' domain).all (· ≠ [])
  | _ => false

def Db.getGroupIdsForDomain (db : Db) (env : Env) (domain : Text) : List Id :=
  (db.domainGroupLinks.filter fun link =>
    db.privilegedDomains.any (fun pd => pd.id = link.domainId ∧ pd.domain = env.lower domain) ∧
      db.groups.any fun g => g.id = link.groupId ∧ g.groupType = .weftid).map (·.groupId)

variable (env : Env)

def autoAssignUserToDomainGroups (userId : Id) (email : Text) : Service Unit :=
  whenever (email.contains '@') do
    let linked ← read (·.getGroupIdsForDomain env (env.lower (Text.afterFirst '@' email)))
    forEach linked fun groupId => do
      let _ ← tx (·.insertMembership groupId userId)

def jitProvisionUser (result : SamlAuthResult) (idp : IdentityProvider) : Service User := do
  let firstName := Text.orElse result.firstName "SAML"
  let lastName := Text.orElse result.lastName "User"
  let email := result.email
  require (isEmailLike email)
    (.validation "SAML assertion did not provide a valid email address" "jit_invalid_email")
  let taken ← read (·.emailExists env email)
  if taken then do
    let (row, user) ← orRaise (·.getUserByEmailForSaml env email)
      (.validation "Failed to retrieve user after race condition" "jit_user_retrieval_failed")
    whenever (row.verifiedAt = none) (write (·.verifyEmail row.id))
    pure user
  else do
    let userId ← tx (·.createUser firstName lastName .member)
    let _ ← tx (·.addVerifiedEmail env userId email true)
    tx (·.setUserIdp userId result.idpId)
    ensureUserInBaseGroup userId result.idpId idp.name .saml
    autoAssignUserToDomainGroups env userId email
    orRaise (·.getUserByEmailWithStatus env email)
      (.validation "Failed to retrieve created user" "jit_user_retrieval_failed")

def applyIdpAttributesSafe (userId : Id) (result : SamlAuthResult) : Service Unit :=
  rescue (applyIdpAttributes env userId result.idpId result.standardAttributes) fun _ => pure ()

def syncClaimedGroups (userId idpId : Id) (groups : List Text) : Service Unit :=
  whenever (groups ≠ []) do
    let _ ← syncUserIdpGroups userId idpId groups .saml

def syncUserNames (user : User) (firstName lastName : Option Text) : Service Unit :=
  let newFirst := Text.orElse firstName user.firstName
  let newLast := Text.orElse lastName user.lastName
  whenever (newFirst ≠ user.firstName ∨ newLast ≠ user.lastName)
    (tx (·.updateUserProfile user.id newFirst newLast))

def authenticateViaSaml (result : SamlAuthResult) : Service User := do
  let found ← read (·.getUserByEmailForSaml env result.email)
  match found with
  | none => do
    let idp ← read (·.getIdentityProvider result.idpId)
    match idp with
    | none => raise (.notFound "User account not found" "user_not_found")
    | some idp => do
      require idp.jitProvisioning (.notFound "User account not found" "user_not_found")
      let user ← jitProvisionUser env result idp
      syncClaimedGroups user.id result.idpId result.groups
      applyIdpAttributesSafe env user.id result
      pure user
  | some (row, user) => do
    whenever (row.verifiedAt = none) (write (·.verifyEmail row.id))
    require (user.inactivatedAt = none) (.forbidden "User account is inactivated" "user_inactivated")
    syncUserNames user result.firstName result.lastName
    whenever (user.samlIdpId ≠ some result.idpId) (tx (·.setUserIdp user.id result.idpId))
    let idp ← read (·.getIdentityProvider result.idpId)
    let idpName := (idp.map (·.name)).getD "Unknown".toList
    ensureUserInBaseGroup user.id result.idpId (Text.orElse result.idpName idpName) .saml
    syncClaimedGroups user.id result.idpId result.groups
    applyIdpAttributesSafe env user.id result
    pure user

end WeftId
