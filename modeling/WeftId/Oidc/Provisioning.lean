import WeftId.Groups.Regroup
import WeftId.Oidc.Links
import WeftId.Saml.Provisioning

/-!
Sign-ins through an upstream OIDC connection.  A subject is correlated by its link; without one it may be
linked to the account behind a verified address, or provisioned as a new user.
-/

namespace WeftId

open Proc

structure UpstreamConnection extends OidcConnection where
  providerType : Text := "generic"
  claimMapping : List (Text × Text) := []
  allowEmailLinking : Bool := false
  jitProvisioning : Bool := false
  groupClaimSource : Option Text := none
  groupClaimNameKey : Option Text := none

/-- The presets, with whether a provider's verified flag proves that the user controls the address. -/
def presets : List (Text × Bool) :=
  [("generic", true), ("google", true), ("entra", true), ("microsoft", false),
    ("linkedin", true), ("gitlab", true), ("github", true), ("discord", true),
    ("facebook", false), ("apple", true)]

def emailLinkingTrusted (providerType : Text) : Bool := (presets.lookup providerType).getD false

def requiresConfirmedEmail (providerType : Text) : Bool := ¬ emailLinkingTrusted providerType

def getClaim (claims : Json.Dict) (claim : Text) : Json := ((claims.find? (·.1 = claim)).map (·.2)).getD .null

def extractClaim (claims : Json.Dict) (claimMapping : List (Text × Text)) (attr : String) : Option Text := do
  let claim ← claimMapping.lookup attr.toList
  match getClaim claims claim with
  | .str value => some value
  | _ => none

def extractStandardAttributes (claims : Json.Dict) (claimMapping : List (Text × Text)) : List (Text × Text) :=
  standardAttributes.filterMap fun attr => do
    let claim ← claimMapping.lookup attr.key
    match getClaim claims claim with
    | .str value => if claim ≠ [] ∧ value.strip ≠ [] then some (attr.key, value) else none
    | _ => none

def groupNameOf (key : Text) (item : Json) : Option Text :=
  let candidate := match item with
    | .obj fields => getClaim fields key
    | item => item
  let name := match candidate with
    | .int n => some (Numeral.showInt n)
    | .str s => some s
    | _ => none
  (name.map (·.strip)).filter fun name => name ≠ [] ∧ name.length ≤ 200

def collectGroupNames (key : Text) : List Json → List Text → List Text
  | [], names => names
  | item :: items, names =>
    match groupNameOf key item with
    | none => collectGroupNames key items names
    | some name =>
      if name ∈ names then collectGroupNames key items names
      else if 500 ≤ names.length + 1 then names ++ [name]
      else collectGroupNames key items (names ++ [name])

/-- `none` when the claim says nothing about groups. -/
def extractGroupNames (claims : Json.Dict) (claimName : Text) (nameKey : Option Text) : Option (List Text) :=
  let key := Text.orElse (nameKey.map (·.strip)) "name"
  match getClaim claims claimName with
  | .str s => some (collectGroupNames key [.str s] [])
  | .arr items => some (collectGroupNames key items [])
  | _ => none

def hasGroupClaimOverage (claims : Json.Dict) (claimName : Text) : Bool :=
  match getClaim claims "_claim_names" with
  | .obj marker => marker.any (·.1 = claimName)
  | _ => false

def syncGroupsFromClaims (userId : Id) (connection : UpstreamConnection) (claims : Json.Dict) : Service Unit := do
  ensureUserInBaseGroup userId connection.id connection.name .oidc
  let claimName := (connection.groupClaimSource.getD []).strip
  if claimName = [] ∨ hasGroupClaimOverage claims claimName then pure ()
  else
    match extractGroupNames claims claimName connection.groupClaimNameKey with
    | none => pure ()
    | some names => do
      let _ ← syncUserIdpGroups userId connection.id names .oidc

namespace Db

/-- The statements of `replaceIdpAttributes` on the table of the OIDC connections. -/
def replaceOidcIdpAttributes (db : Db) (userId idpId : Id) (serialized : List (Text × Text)) : Db :=
  let replaced := { db with userIdpAttributes := db.userOidcIdpAttributes }.replaceIdpAttributes userId idpId serialized
  { replaced with userIdpAttributes := db.userIdpAttributes, userOidcIdpAttributes := replaced.userIdpAttributes }

def createLink (db : Db) (idpId : Id) (sub : Text) (userId : Id) : Except DbError (Unit × Db) :=
  if 255 < sub.length then .error (.checkViolation "chk_oidc_user_link_sub_length")
  else if db.oidcIdpUserLinks.any fun l => l.idpId = idpId ∧ l.sub = sub then
    .error (.uniqueViolation "uq_oidc_user_link_idp_sub")
  else if db.oidcIdpUserLinks.any fun l => l.idpId = idpId ∧ l.userId = userId then
    .error (.uniqueViolation "uq_oidc_user_link_idp_user")
  else if db.getConnection idpId = none then .error (.foreignKeyViolation "oidc_idp_user_links_idp_id_fkey")
  else if db.getUserById userId = none then .error (.foreignKeyViolation "oidc_idp_user_links_user_tenant_fkey")
  else .ok ((), { db with oidcIdpUserLinks := db.oidcIdpUserLinks ++ [⟨idpId, sub, userId⟩] })

def getUserIdBySub (db : Db) (idpId : Id) (sub : Text) : Option Id :=
  (db.oidcIdpUserLinks.find? fun l => l.idpId = idpId ∧ l.sub = sub).map (·.userId)

def setPrimaryEmail (db : Db) (emailId : Id) : Except DbError (Unit × Db) :=
  if db.userEmails.any fun e => e.id = emailId ∧ db.userEmails.any fun e' =>
      e'.id ≠ emailId ∧ e'.userId = e.userId ∧ e'.isPrimary then
    .error (.uniqueViolation "user_emails_primary_per_user")
  else .ok ((), { db with userEmails := db.userEmails.map fun e =>
      if e.id = emailId then { e with isPrimary := true } else e })

end Db

variable (env : Env)

def applyOidcIdpAttributes (userId idpId : Id) (attributes : List (Text × Text)) : Service Unit := do
  let _ ← orRaise (·.getConnection idpId) (.notFound "OIDC connection not found" "oidc_connection_not_found")
  let serialized := serializedAttributes env attributes
  tx fun db =>
    if serialized ≠ [] ∧ db.getUserById userId = none then
      .error (.foreignKeyViolation "user_oidc_idp_attributes_user_tenant_fkey")
    else .ok ((), db.replaceOidcIdpAttributes userId idpId serialized)

def applyOidcIdpAttributesSafe (userId : Id) (connection : UpstreamConnection) (claims : Json.Dict) : Service Unit :=
  rescue (applyOidcIdpAttributes env userId connection.id (extractStandardAttributes claims connection.claimMapping))
    fun _ => pure ()

/-- What every successful sign-in ends with; `last_used_at` of the link is not modelled. -/
def completeOidcSignIn (userId : Id) (connection : UpstreamConnection) (claims : Json.Dict) : Service Unit := do
  applyOidcIdpAttributesSafe env userId connection claims
  syncGroupsFromClaims userId connection claims

def storeProvisionedEmail (userId : Id) (email : Text) (unconfirmed : Bool) : Service Unit :=
  if unconfirmed then do
    let emailId ← tx (·.addEmail env userId email)
    tx (·.setPrimaryEmail emailId)
  else do
    let _ ← tx (·.addVerifiedEmail env userId email true)

def jitProvisionOidcUser (connection : UpstreamConnection) (sub : Text) (claims : Json.Dict) : Service User := do
  let email := (extractClaim claims connection.claimMapping "email").getD []
  let firstName := Text.orElse (extractClaim claims connection.claimMapping "first_name") "OIDC"
  let lastName := Text.orElse (extractClaim claims connection.claimMapping "last_name") "User"
  require (email ≠ [] ∧ isEmailLike email)
    (.validation "OIDC claims did not provide a valid email address" "oidc_jit_invalid_email")
  let taken ← read (·.emailExists env email)
  require (¬ taken) (.validation "Email already exists for another account" "oidc_jit_email_exists")
  let userId ← tx (·.createUser firstName lastName .member)
  let unconfirmed := requiresConfirmedEmail connection.providerType
  storeProvisionedEmail env userId email unconfirmed
  tx (·.createLink connection.id sub userId)
  whenever (¬ unconfirmed) (autoAssignUserToDomainGroups env userId email)
  orRaise (fun db => if unconfirmed then (db.getUserByEmailForSaml env email).map (·.2)
      else db.getUserByEmailWithStatus env email)
    (.validation "Failed to retrieve created user" "oidc_jit_user_retrieval_failed")

def refuseOidcSignIn (user : User) : Service Unit := do
  require (user.inactivatedAt = none) (.forbidden "User account is inactivated" "user_inactivated")
  require (user.samlIdpId = none)
    (.forbidden "User signs in through a SAML identity provider" "saml_assigned_user")

def signInLinkedUser (connection : UpstreamConnection) (claims : Json.Dict) (linkedUserId : Id) : Service User := do
  let user ← orRaise (·.getUserById linkedUserId)
    (.notFound "Linked user account not found" "oidc_linked_user_not_found")
  refuseOidcSignIn user
  completeOidcSignIn env user.id connection claims
  pure user

def Db.emailLinkCandidate (db : Db) (env : Env) (connection : UpstreamConnection) (claims : Json.Dict) :
    Option (UserEmail × User) := do
  let email ← extractClaim claims connection.claimMapping "email"
  match getClaim claims "email_verified" with
  | .bool true =>
    if connection.allowEmailLinking ∧ emailLinkingTrusted connection.providerType ∧ email ≠ [] then
      db.getUserByEmailForSaml env email
    else none
  | _ => none

def linkByEmail (connection : UpstreamConnection) (sub : Text) (claims : Json.Dict) (row : UserEmail)
    (existing : User) :
    Service User := do
  refuseOidcSignIn existing
  let link ← read (·.getLinkForUserIdp existing.id connection.id)
  require (link = none) (.forbidden "User is already linked to this connection" "oidc_connection_already_linked")
  whenever (row.verifiedAt = none) do
    let links ← read (·.listLinksForUser existing.id)
    require (links = [])
      (.forbidden "Matched account has an unconfirmed email address" "oidc_email_unconfirmed")
    write (·.verifyEmail row.id)
  tx (·.createLink connection.id sub existing.id)
  completeOidcSignIn env existing.id connection claims
  pure existing

def provisionOidcUser (connection : UpstreamConnection) (sub : Text) (claims : Json.Dict) : Service User := do
  require connection.jitProvisioning (.notFound "User account not found" "user_not_found")
  let user ← jitProvisionOidcUser env connection sub claims
  completeOidcSignIn env user.id connection claims
  pure user

def authenticateViaOidc (connection : UpstreamConnection) (sub : Text) (claims : Json.Dict) : Service User := do
  let linkedUserId ← read (·.getUserIdBySub connection.id sub)
  let candidate ← read (·.emailLinkCandidate env connection claims)
  match linkedUserId, candidate with
  | some linkedUserId, _ => signInLinkedUser env connection claims linkedUserId
  | none, some (row, existing) => linkByEmail env connection sub claims row existing
  | none, none => provisionOidcUser env connection sub claims

end WeftId
