import WeftId.OAuth.ClientMetadata

/-!
Dynamic client registration and the configuration endpoint.  A client registers itself, replaces its metadata
under its registration access token, and administrators change its settings.  What an administrator narrowed
is meant to be a ceiling for the client's own updates.
-/

namespace WeftId

open Proc Check

namespace Registration

structure RegisteredClient extends OAuth2Client where
  clientId : Text
  clientSecret : Text
  name : Text
  postLogoutRedirectUris : List Text := []
  frontchannelLogoutUri : Option Text := none
  frontchannelLogoutSessionRequired : Bool := true
  backchannelLogoutUri : Option Text := none
  backchannelLogoutSessionRequired : Bool := true
  logoUri : Option Text := none
  clientUri : Option Text := none
  policyUri : Option Text := none
  tosUri : Option Text := none
  initiateLoginUri : Option Text := none
  clientAuthMethod : ClientAssertion.ClientAuthMethod := .clientSecret
  jwks : Option Json.Dict := none
  jwksUri : Option Text := none
  tokenEndpointAuthSigningAlg : Option Text := none
  requirePushedAuthorizationRequests : Bool := false
  subjectType : SubjectType := .publicSubject
  sectorIdentifierUri : Option Text := none
  dynamicallyRegistered : Bool := false
  registrationMetadata : Option Extra := none
  registrationAccessToken : Option Text := none
  registeredWithTokenId : Option Id := none

inductive Policy
  | off
  | tokenRequired
  | openToAll
  deriving DecidableEq

structure InitialAccessToken where
  id : Id
  token : Text
  expiresAt : Option Nat := none
  revokedAt : Option Nat := none
  lastUsedAt : Option Nat := none

/-- The clients of one tenant and its registration settings; a missing settings row means the defaults. -/
structure Registry where
  now : Nat := 0
  nextId : Id := 0
  policy : Policy := .off
  defaultAccessAll : Bool := false
  initialAccessTokens : List InitialAccessToken := []
  clients : List RegisteredClient := []

abbrev RegistryCall (α : Type) := Proc Registry Error α

def unauthorized (message : String) : Error := .forbidden message "invalid_token"

def notFound : Error := .notFound "Client not found" "oauth2_client_not_found"

def RegisteredClient.askedForPar (client : RegisteredClient) : Bool :=
  client.registrationMetadata.any (·.requirePushedAuthorizationRequests)

def RegisteredClient.askedForPairwise (client : RegisteredClient) : Bool :=
  client.registrationMetadata.any (·.pairwise)

def RegisteredClient.usesCode (client : RegisteredClient) : Bool :=
  client.registrationMetadata.any fun extra => .authorizationCode ∈ extra.grantTypes

namespace Registry

def getClientByClientId (r : Registry) (clientId : Text) : Option RegisteredClient :=
  r.clients.find? (·.clientId = clientId)

def updateClients (r : Registry) (p : RegisteredClient → Bool) (f : RegisteredClient → RegisteredClient) : Registry :=
  { r with clients := r.clients.map fun c => if p c then f c else c }

end Registry

section Sector

variable (env : RegistrationEnv)

def sectorHost (client : RegisteredClient) : Option Text :=
  match client.sectorIdentifierUri with
  | some (c :: uri) => host env (c :: uri)
  | _ =>
    match (client.redirectUris.filterMap (host env)).eraseDups with
    | [found] => some found
    | _ => none

end Sector

section Register

variable (env : RegistrationEnv)

def authorizeRegistration (r : Registry) (initialAccessToken : Option Text) : Except Error (Option Id) :=
  if r.policy = .off then
    .error (.notFound "Dynamic client registration is not enabled" "registration_disabled")
  else
    match initialAccessToken with
    | none =>
      if r.policy = .tokenRequired then .error (unauthorized "An initial access token is required") else .ok none
    | some token =>
      match r.initialAccessTokens.find? (·.token = token) with
      | none => .error (unauthorized "The initial access token is not valid")
      | some row =>
        if row.revokedAt.isSome ∨ row.expiresAt.any (· ≤ r.now) then
          .error (unauthorized "The initial access token is not valid")
        else .ok (some row.id)

def RegisteredClient.withMetadata (client : RegisteredClient) (accepted : Accepted) : RegisteredClient :=
  { client with
    name := accepted.clientName
    redirectUris := accepted.redirectUris
    postLogoutRedirectUris := accepted.postLogoutRedirectUris
    frontchannelLogoutUri := accepted.frontchannelLogoutUri
    frontchannelLogoutSessionRequired := accepted.frontchannelLogoutSessionRequired
    backchannelLogoutUri := accepted.backchannelLogoutUri
    backchannelLogoutSessionRequired := accepted.backchannelLogoutSessionRequired
    logoUri := accepted.logoUri
    clientUri := accepted.clientUri
    policyUri := accepted.policyUri
    tosUri := accepted.tosUri
    initiateLoginUri := accepted.initiateLoginUri
    deviceGrantEnabled := accepted.deviceGrantEnabled
    jwks := accepted.jwks
    jwksUri := accepted.jwksUri
    tokenEndpointAuthSigningAlg := accepted.tokenEndpointAuthSigningAlg
    requirePushedAuthorizationRequests := accepted.requirePushedAuthorizationRequests
    subjectType := accepted.subjectType
    sectorIdentifierUri := accepted.sectorIdentifierUri
    registrationMetadata := some accepted.extra }

def newClient (r : Registry) (accepted : Accepted) (tokenId : Option Id) : RegisteredClient :=
  let blank : RegisteredClient := {
    id := r.nextId
    clientType := .normal
    oidcEnabled := true
    availableToAll := r.defaultAccessAll
    isPublic := accepted.isPublic
    clientId := env.opaqueToken r.nextId
    clientSecret := env.opaqueToken (r.nextId + 1)
    name := accepted.clientName
    clientAuthMethod := accepted.clientAuthMethod
    dynamicallyRegistered := true
    registrationAccessToken := some (env.opaqueToken (r.nextId + 2))
    registeredWithTokenId := tokenId }
  blank.withMetadata accepted

def createRegisteredClient (r : Registry) (accepted : Accepted) (tokenId : Option Id) : Registry :=
  { r with
    nextId := r.nextId + 3
    clients := r.clients ++ [newClient env r accepted tokenId]
    initialAccessTokens := r.initialAccessTokens.map fun row =>
      if some row.id = tokenId then { row with lastUsedAt := some r.now } else row }

def registerClient (documents : SectorDocuments) (metadata : Json) (initialAccessToken : Option Text) :
    RegistryCall RegisteredClient := do
  let tokenId ← lookup fun r => authorizeRegistration r initialAccessToken
  let accepted ← lookup fun _ => validateClientMetadata env documents metadata
  let client ← read fun r => newClient env r accepted tokenId
  let taken ← read fun r => r.clients.any (·.clientId = client.clientId)
  require (¬ taken) (.database (.uniqueViolation "oauth2_clients_client_id_key"))
  write fun r => createRegisteredClient env r accepted tokenId
  pure client

end Register

section Configuration

variable (env : RegistrationEnv)

def authenticateRegistration (r : Registry) (clientId : Text) (registrationAccessToken : Option Text) :
    Except Error RegisteredClient :=
  match registrationAccessToken with
  | none | some [] => .error (unauthorized "A registration access token is required")
  | some token =>
    match r.getClientByClientId clientId with
    | none => .error (unauthorized "The registration access token is not valid")
    | some client =>
      if client.dynamicallyRegistered ∧ client.isActive ∧ client.registrationAccessToken = some token then .ok client
      else .error (unauthorized "The registration access token is not valid")

def authMethodFamily : AuthMethod → AuthMethod
  | .clientSecretPost => .clientSecretBasic
  | method => method

/-- What an update writes: the accepted metadata with the settings that an administrator keeps, and the sector
documents that were fetched and accepted on the way. -/
structure Replacement where
  accepted : Accepted
  documents : List Text

/-- An administrator required pushed authorization requests of a client that has not asked for them. -/
def RegisteredClient.adminRequiredPar (client : RegisteredClient) : Bool :=
  client.requirePushedAuthorizationRequests && !client.askedForPar

def RegisteredClient.adminSetPairwise (client : RegisteredClient) : Bool :=
  client.subjectType = .pairwise && !client.askedForPairwise

def keepSubject (documents : SectorDocuments) (client : RegisteredClient) (accepted : Accepted) :
    Except Error Replacement := do
  if client.adminSetPairwise then
    let (subjectType, sectorIdentifierUri) ← (validateSubjectSettings env documents (some "pairwise")
      client.sectorIdentifierUri accepted.redirectUris).mapError asMetadataError
    pure {
      accepted := { accepted with
        subjectType
        sectorIdentifierUri
        extra := { accepted.extra with pairwise := false } }
      documents := accepted.sectorIdentifierUri.toList ++ sectorIdentifierUri.toList }
  else pure { accepted, documents := accepted.sectorIdentifierUri.toList }

/-- Everything an update checks; `stored` is the row that the secret is compared with. -/
def resolveUpdate (documents : SectorDocuments) (client : RegisteredClient) (stored : Option RegisteredClient)
    (metadata : Json) : Except Error Replacement := do
  match metadata with
  | .obj fields =>
    ensure (strItem (Json.field fields "client_id") = some client.clientId)
      (metadataError "client_id must be present and match the client")
    ensure ((Json.field fields "client_secret").isNull ∨
        ∃ secret ∈ strItem (Json.field fields "client_secret"), stored.map (·.clientSecret) = some secret)
      (metadataError "client_secret does not match")
    let accepted ← validateClientMetadata env documents metadata
    let currentMethod := (client.registrationMetadata.map (·.tokenEndpointAuthMethod)).getD .clientSecretBasic
    ensure (authMethodFamily accepted.extra.tokenEndpointAuthMethod = authMethodFamily currentMethod) (metadataError
      "token_endpoint_auth_method cannot switch between none, a client secret, and private_key_jwt")
    ensure (accepted.deviceGrantEnabled → client.deviceGrantEnabled)
      (metadataError "The device_code grant is not enabled for this client")
    let requirePar := accepted.requirePushedAuthorizationRequests ||
      (client.adminRequiredPar && decide (.authorizationCode ∈ accepted.extra.grantTypes))
    keepSubject env documents client { accepted with requirePushedAuthorizationRequests := requirePar }
  | _ => .error (metadataError "The request body must be a JSON object")

def Registry.replaceRegisteredClient (r : Registry) (clientId : Text) (accepted : Accepted)
    (previousToken : Option Text) (newToken : Text) : Bool × Registry :=
  let current := fun c : RegisteredClient =>
    c.clientId = clientId ∧ c.dynamicallyRegistered ∧ c.registrationAccessToken = previousToken
  (r.clients.any (current ·), { r.updateClients (current ·) (fun c =>
    { c.withMetadata accepted with registrationAccessToken := some newToken }) with nextId := r.nextId + 1 })

def updateClientConfiguration (documents : SectorDocuments) (client : RegisteredClient) (metadata : Json) :
    RegistryCall Replacement := do
  let replacement ← lookup fun r =>
    resolveUpdate env documents client (r.getClientByClientId client.clientId) metadata
  let replaced ← fun r =>
    let (replaced, r) := r.replaceRegisteredClient client.clientId replacement.accepted client.registrationAccessToken
      (env.opaqueToken r.nextId)
    (.ok replaced, r)
  require replaced (unauthorized "The registration access token is not valid")
  pure replacement

def putClient (documents : SectorDocuments) (clientId : Text) (registrationAccessToken : Option Text)
    (metadata : Json) :
    RegistryCall Replacement := do
  let client ← lookup fun r => authenticateRegistration r clientId registrationAccessToken
  updateClientConfiguration env documents client metadata

end Configuration

section Administration

variable (env : RegistrationEnv)

def requireAdmin (user : RequestingUser) : RegistryCall Unit :=
  require (user.role = .admin ∨ user.role = .superAdmin)
    (.forbidden "Admin access required" "admin_required" (some "admin"))

def setClientSubjectType (documents : SectorDocuments) (user : RequestingUser) (clientId : Text) (subjectType : Text)
    (sectorIdentifierUri : Option Text) : RegistryCall Unit := do
  requireAdmin user
  let old ← orRaise (fun r => (r.getClientByClientId clientId).filter (·.clientType = .normal)) notFound
  let (subjectType, sectorUri) ← lookup fun _ =>
    validateSubjectSettings env documents (some subjectType) sectorIdentifierUri old.redirectUris
  whenever (¬ (subjectType = old.subjectType ∧ sectorUri = old.sectorIdentifierUri)) (write fun r =>
    r.updateClients (fun c => c.clientId = clientId ∧ c.clientType = .normal) fun c => { c with
      subjectType
      sectorIdentifierUri := sectorUri
      -- the setting is the administrator's from now on
      registrationMetadata := c.registrationMetadata.map fun extra => { extra with pairwise := false } })

/-- What an administrator's update gives; a field left out stays, and a blank URI is cleared. -/
structure ClientUpdate where
  name : Option Text := none
  redirectUris : Option (List Text) := none
  postLogoutRedirectUris : Option (List Text) := none
  frontchannelLogoutUri : Option Text := none
  frontchannelLogoutSessionRequired : Option Bool := none
  backchannelLogoutUri : Option Text := none
  backchannelLogoutSessionRequired : Option Bool := none
  initiateLoginUri : Option Text := none
  deviceGrantEnabled : Option Bool := none
  requirePushedAuthorizationRequests : Option Bool := none

def onlyForApps (client : RegisteredClient) (given : Bool) (message : String)
    (code : String := "redirect_uris_not_allowed") : Except Error Unit :=
  ensure (given → client.clientType = .normal) (.validation message code)

def ClientUpdate.setsBrowser (update : ClientUpdate) : Bool :=
  update.redirectUris.any (· ≠ []) || update.postLogoutRedirectUris.any (· ≠ []) ||
    update.frontchannelLogoutUri.any (· ≠ []) || update.initiateLoginUri.any (· ≠ [])

def cleaned (validate : Option Text → Except Error (Option Text)) (given : Option Text) : Except Error (Option Text) :=
  match given with
  | some uri => (validate (some uri)).map fun uri => some (uri.getD [])
  | none => .ok none

def checkSector (documents : SectorDocuments) (old : RegisteredClient) (redirectUris : Option (List Text)) :
    Except Error Unit :=
  match redirectUris with
  | some redirectUris =>
    if old.subjectType = .pairwise then
      (validateSubjectSettings env documents (some "pairwise") old.sectorIdentifierUri redirectUris).map fun _ => ()
    else .ok ()
  | none => .ok ()

def checkFrontchannel (old : RegisteredClient) (update : ClientUpdate) : Except Error (Option Text) := do
  if update.frontchannelLogoutUri.isSome ∨ update.redirectUris.isSome then
    let validated ← validateFrontchannelLogoutUri env (update.frontchannelLogoutUri <|> old.frontchannelLogoutUri)
      (update.redirectUris.getD old.redirectUris)
    pure (update.frontchannelLogoutUri.map fun _ => validated.getD [])
  else pure update.frontchannelLogoutUri

def validateClientUpdate (documents : SectorDocuments) (old : RegisteredClient) (update : ClientUpdate) :
    Except Error ClientUpdate := do
  onlyForApps old update.redirectUris.isSome "Redirect URIs can only be set for Apps, not service accounts"
  onlyForApps old update.postLogoutRedirectUris.isSome
    "Post-logout redirect URIs can only be set for Apps, not service accounts"
  let postLogout ← (validatePostLogoutRedirectUris env (update.postLogoutRedirectUris.getD []))
  onlyForApps old (update.frontchannelLogoutUri.isSome || update.frontchannelLogoutSessionRequired.isSome)
    "Front-channel logout can only be set for Apps, not service accounts"
  onlyForApps old (update.backchannelLogoutUri.isSome || update.backchannelLogoutSessionRequired.isSome)
    "Back-channel logout can only be set for Apps, not service accounts"
  let backchannel ← cleaned (validateBackchannelLogoutUri env) update.backchannelLogoutUri
  onlyForApps old update.initiateLoginUri.isSome "A login initiation URI can only be set for Apps, not service accounts"
  let initiateLogin ← cleaned (validateInitiateLoginUri env) update.initiateLoginUri
  let update := { update with
    postLogoutRedirectUris := update.postLogoutRedirectUris.map fun _ => postLogout
    backchannelLogoutUri := backchannel
    initiateLoginUri := initiateLogin }
  onlyForApps old (update.deviceGrantEnabled.getD false)
    "The device authorization grant can only be enabled for Apps, not service accounts" "device_grant_not_allowed"
  ensure (update.requirePushedAuthorizationRequests.getD false → old.clientType = .normal ∧ ¬ old.isPublic)
    (.validation "Only a confidential app can be required to use pushed authorization requests" "par_not_allowed")
  ensure (old.isPublic → ¬ update.setsBrowser) (.validation
    ("A public client uses the device grant only, so it has no redirect URIs, " ++
      "post-logout redirect URIs, front-channel logout URI, or login initiation URI") "public_client_browser_settings")
  ensure (old.isPublic → update.deviceGrantEnabled ≠ some false) (.validation
    "A public client uses the device grant only, so it cannot be switched off" "public_client_requires_device_grant")
  checkSector env documents old update.redirectUris
  let frontchannel ← checkFrontchannel env old update
  pure { update with frontchannelLogoutUri := frontchannel }

def setUri (given stored : Option Text) : Option Text :=
  match given with
  | none => stored
  | some [] => none
  | some uri => some uri

def RegisteredClient.withUpdate (client : RegisteredClient) (update : ClientUpdate) : RegisteredClient :=
  { client with
    name := update.name.getD client.name
    redirectUris := update.redirectUris.getD client.redirectUris
    postLogoutRedirectUris := update.postLogoutRedirectUris.getD client.postLogoutRedirectUris
    frontchannelLogoutUri := setUri update.frontchannelLogoutUri client.frontchannelLogoutUri
    frontchannelLogoutSessionRequired :=
      update.frontchannelLogoutSessionRequired.getD client.frontchannelLogoutSessionRequired
    backchannelLogoutUri := setUri update.backchannelLogoutUri client.backchannelLogoutUri
    backchannelLogoutSessionRequired :=
      update.backchannelLogoutSessionRequired.getD client.backchannelLogoutSessionRequired
    initiateLoginUri := setUri update.initiateLoginUri client.initiateLoginUri
    deviceGrantEnabled := update.deviceGrantEnabled.getD client.deviceGrantEnabled
    requirePushedAuthorizationRequests :=
      update.requirePushedAuthorizationRequests.getD client.requirePushedAuthorizationRequests }

def updateClient (documents : SectorDocuments) (clientId : Text) (update : ClientUpdate) : RegistryCall Unit := do
  let found ← read fun r => r.getClientByClientId clientId
  match found with
  | none => pure ()
  | some old => do
    let update ← lookup fun _ => validateClientUpdate env documents old update
    write fun r => r.updateClients (·.clientId = clientId) (·.withUpdate update)

def resetRegistrationAccessToken (user : RequestingUser) (clientId : Text) : RegistryCall Text := do
  requireAdmin user
  let token ← read fun r => env.opaqueToken r.nextId
  let _ ← orRaise (fun r => r.clients.find? fun c => c.clientId = clientId ∧ c.dynamicallyRegistered)
    (.notFound "No dynamically registered client has this client ID" "registered_client_not_found")
  write fun r => { r.updateClients (fun c => c.clientId = clientId ∧ c.dynamicallyRegistered) (fun c =>
    { c with registrationAccessToken := some token }) with nextId := r.nextId + 1 }
  pure token

end Administration

inductive RegistrationEvent
  | register (documents : SectorDocuments) (metadata : Json) (initialAccessToken : Option Text)
  | put (documents : SectorDocuments) (clientId : Text) (registrationAccessToken : Option Text) (metadata : Json)
  | setSubjectType (documents : SectorDocuments) (user : RequestingUser) (clientId subjectType : Text)
    (sectorIdentifierUri : Option Text)
  | update (documents : SectorDocuments) (clientId : Text) (update : ClientUpdate)
  | resetToken (user : RequestingUser) (clientId : Text)

def Registry.step (env : RegistrationEnv) (r : Registry) : RegistrationEvent → Registry
  | .register documents metadata token => (registerClient env documents metadata token).exec r
  | .put documents clientId token metadata => (putClient env documents clientId token metadata).exec r
  | .setSubjectType documents user clientId subjectType sectorUri =>
    (setClientSubjectType env documents user clientId subjectType sectorUri).exec r
  | .update documents clientId update => (updateClient env documents clientId update).exec r
  | .resetToken user clientId => (resetRegistrationAccessToken env user clientId).exec r

end Registration
end WeftId
