import WeftId.Env
import WeftId.Lib.JsonText
import WeftId.Lib.Url
import WeftId.OAuth.ClientAssertion

/-!
The metadata of a client that registers itself.  What cannot be honoured is refused, and what is left out
takes its default.  A sector identifier URI is fetched as part of the validation.
-/

namespace WeftId

open Check

structure RegistrationEnv extends Env where
  /-- Whether a URL may have this authority: `urlsplit` refuses some by their brackets or their normal form. -/
  acceptsNetloc : Text → Bool
  /-- `ipaddress.ip_address`: whether the address is a loopback one, none for a text that is no address. -/
  ipAddress : Text → Option Bool
  /-- Whether the token library can build a key. -/
  buildsJwk : Json.Dict → Bool

inductive GrantType
  | authorizationCode
  | refreshToken
  | deviceCode
  deriving DecidableEq

inductive ResponseType
  | code
  deriving DecidableEq

inductive AuthMethod
  | clientSecretBasic
  | clientSecretPost
  | privateKeyJwt
  | none
  deriving DecidableEq

inductive ApplicationType
  | web
  | native
  deriving DecidableEq

inductive SubjectType
  | publicSubject
  | pairwise
  deriving DecidableEq

namespace Registration

def deviceCodeGrantType : String := "urn:ietf:params:oauth:grant-type:device_code"

def supportedResponseTypes : List (String × ResponseType) := [("code", .code)]

def supportedGrantTypes : List (String × GrantType) :=
  [("authorization_code", .authorizationCode), ("refresh_token", .refreshToken), (deviceCodeGrantType, .deviceCode)]

def supportedAuthMethods : List (String × AuthMethod) :=
  [("client_secret_basic", .clientSecretBasic), ("client_secret_post", .clientSecretPost),
    ("private_key_jwt", .privateKeyJwt), ("none", .none)]

def supportedApplicationTypes : List (String × ApplicationType) := [("web", .web), ("native", .native)]

def subjectTypes : List (String × SubjectType) := [("public", .publicSubject), ("pairwise", .pairwise)]

def unsupportedAlgFields : List String :=
  ["id_token_encrypted_response_alg", "id_token_encrypted_response_enc", "userinfo_encrypted_response_alg",
    "userinfo_encrypted_response_enc", "request_object_encryption_alg", "request_object_encryption_enc"]

def maxRedirectUris : Nat := 50

def maxUriLength : Nat := 2048

def maxNameLength : Nat := 255

def maxContacts : Nat := 10

def maxContactLength : Nat := 320

def maxRequestUris : Nat := 20

def maxPostLogoutRedirectUris : Nat := 50

def maxJwksKeys : Nat := 20

def maxJwksBytes : Nat := 32768

def metadataError (message : String) (code : String := "invalid_client_metadata") : Error := .validation message code

def asMetadataError : Error → Error
  | .validation message _ _ => metadataError message
  | e => e

section Fields

variable {α : Type} (metadata : Json.Dict)

def optionalStr (name : String) (maxLength : Nat) : Except Error (Option Text) :=
  match Json.field metadata name with
  | .null => .ok none
  | .str value =>
    if value.length ≤ maxLength then .ok (if value.strip = [] then none else some value.strip)
    else .error (metadataError (name ++ " must be a string of at most " ++ toString maxLength ++ " characters"))
  | _ => .error (metadataError (name ++ " must be a string of at most " ++ toString maxLength ++ " characters"))

def strItem : Json → Option Text
  | .str value => some value
  | _ => none

def strList (name : String) (maxItems maxLength : Nat) (code : String := "invalid_client_metadata") :
    Except Error (Option (List Text)) :=
  let refused := metadataError (name ++ " must be a list of at most " ++ toString maxItems ++ " strings of at most " ++
    toString maxLength ++ " characters") code
  match Json.field metadata name with
  | .null => .ok none
  | .arr items =>
    match items.mapM strItem with
    | some values =>
      if values.length ≤ maxItems ∧ values.all (·.length ≤ maxLength) then .ok (some values) else .error refused
    | none => .error refused
  | _ => .error refused

def namesOf (supported : List (String × α)) : String := ", ".intercalate (supported.map (·.1))

def findChoice (supported : List (String × α)) (value : Text) : Option α :=
  (supported.find? (·.1.toList = value)).map (·.2)

def choiceList [BEq α] (name : String) (supported : List (String × α)) (default : List α) : Except Error (List α) := do
  match ← strList metadata name 10 100 with
  | none | some [] => pure default
  | some values =>
    match values.mapM (findChoice supported) with
    | some choices => pure choices.eraseDups
    | none =>
      let unsupported := values.filter fun value => (findChoice supported value).isNone
      let shown := ", ".intercalate (unsupported.map String.ofList)
      .error (metadataError ("Unsupported " ++ name ++ ": " ++ String.ofList (shown.toList.take 200) ++
        ". Supported: " ++ namesOf supported))

def choice (name : String) (supported : List (String × α)) (default : α) : Except Error α :=
  let refused := metadataError ("Unsupported " ++ name ++ ". Supported: " ++ namesOf supported)
  match Json.field metadata name with
  | .null => .ok default
  | .str value =>
    match findChoice supported value with
    | some found => .ok found
    | none => .error refused
  | _ => .error refused

/-- `metadata.get(name, default)` for a flag: an explicit null is no boolean. -/
def flag (name : String) (default : Bool) : Except Error Bool :=
  if ¬ Json.hasField metadata name then .ok default
  else
    match Json.field metadata name with
    | .bool value => .ok value
    | _ => .error (metadataError (name ++ " must be a boolean"))

def signingAlg (name : String) (supported : List Text) : Except Error (Option Text) :=
  let refused := metadataError ("Unsupported " ++ name ++ ". Supported: " ++
    ", ".intercalate (supported.map String.ofList))
  match Json.field metadata name with
  | .null => .ok none
  | .str value => if value ∈ supported then .ok (some value) else .error refused
  | _ => .error refused

end Fields

section Uris

variable (env : RegistrationEnv)

def urlsplit (url : Text) : Option SplitUrl := Url.split env.acceptsNetloc url

def hostname (url : SplitUrl) : Option Text := Url.hostname env.lower url

def isPlainHostChar (c : Char) : Bool := Text.isAsciiAlpha c || Text.isAsciiDigit c || c = '.' || c = '-'

def hasPlainAuthority (url : SplitUrl) : Bool :=
  match hostname env url, Url.port url with
  | some host, some _ => ¬ Url.hasUserinfo url ∧ (host.all isPlainHostChar ∨ (env.ipAddress host).isSome)
  | _, _ => false

def isLoopback (host : Text) : Bool := env.lower host = "localhost" || env.ipAddress host = some true

def redirectUriAllowed (applicationType : ApplicationType) (uri : Text) : Bool :=
  match urlsplit env uri with
  | none => false
  | some url => hasPlainAuthority env url ∧ url.fragment = [] ∧ '#' ∉ uri ∧
      (url.scheme = "https" ∨
        (url.scheme = "http" ∧ applicationType = .native ∧ (hostname env url).any (isLoopback env)))

def validateRedirectUris (metadata : Json.Dict) (applicationType : ApplicationType) : Except Error (List Text) := do
  match ← strList metadata "redirect_uris" maxRedirectUris maxUriLength "invalid_redirect_uri" with
  | none | some [] => .error (metadataError "redirect_uris is required" "invalid_redirect_uri")
  | some uris =>
    match uris.find? (¬ redirectUriAllowed env applicationType ·) with
    | some uri => .error (metadataError ("Invalid redirect URI: " ++ String.ofList (uri.take 200) ++
        ". Use an absolute https URI without a fragment (native clients may also use http on a loopback address).")
        "invalid_redirect_uri")
    | none => pure uris.eraseDups

/-- An absolute https URL with a plain authority; `fragments` are allowed in some. -/
def isHttps (fragments : Bool) (uri : Text) : Bool :=
  (urlsplit env uri).any fun url =>
    url.scheme = "https".toList ∧ hasPlainAuthority env url ∧ (fragments ∨ url.fragment = [])

def httpsUri (metadata : Json.Dict) (name : String) : Except Error (Option Text) := do
  match ← optionalStr metadata name maxUriLength with
  | none => pure none
  | some value =>
    ensure (isHttps env false value) (metadataError (name ++ " must be an absolute https URI without a fragment"))
    pure (some value)

def validateRequestUris (metadata : Json.Dict) : Except Error (Option (List Text)) := do
  match ← strList metadata "request_uris" maxRequestUris maxUriLength with
  | none | some [] => pure none
  | some values =>
    ensure (values.all (isHttps env true)) (metadataError "request_uris must be absolute https URIs")
    pure (some values)

def isAbsolute (schemes : List Text) (uri : Text) : Bool :=
  (urlsplit env uri).any fun url => url.scheme ∈ schemes ∧ hasPlainAuthority env url ∧ url.fragment = [] ∧ '#' ∉ uri

def webSchemes : List Text := ["http", "https"]

def validatePostLogoutRedirectUris (uris : List Text) : Except Error (List Text) := do
  let cleaned := (uris.map Text.strip).filter (· ≠ [])
  match cleaned.find? (¬ isAbsolute env webSchemes ·) with
  | some uri => .error (.validation ("Invalid post-logout redirect URI: " ++ String.ofList (uri.take 200))
      "invalid_post_logout_redirect_uri")
  | none =>
    ensure (cleaned.eraseDups.length ≤ maxPostLogoutRedirectUris)
      (.validation ("At most " ++ toString maxPostLogoutRedirectUris ++ " post-logout redirect URIs are allowed")
        "invalid_post_logout_redirect_uri")
    pure cleaned.eraseDups

def origin (url : SplitUrl) : Option (Text × Option Text × Option Nat) :=
  if ¬ hasPlainAuthority env url then none
  else
    let default := if url.scheme = "http" then some 80 else if url.scheme = "https" then some 443 else none
    some (url.scheme, (hostname env url).map env.lower, ((Url.port url).getD none).filter (· ≠ 0) <|> default)

def cleanUri (uri : Option Text) : Option Text := uri.bind fun uri => if uri.strip = [] then none else some uri.strip

def validateFrontchannelLogoutUri (uri : Option Text) (redirectUris : List Text) : Except Error (Option Text) := do
  match cleanUri uri with
  | none => pure none
  | some cleaned =>
    ensure (isAbsolute env webSchemes cleaned) (.validation
      ("Invalid front-channel logout URI: " ++ String.ofList (cleaned.take 200)) "invalid_frontchannel_logout_uri")
    let origins := redirectUris.filterMap fun uri => (urlsplit env uri).bind (origin env)
    ensure (∃ o ∈ (urlsplit env cleaned).bind (origin env), o ∈ origins) (.validation
      ("The front-channel logout URI must use the scheme, host and port of one of " ++ "the client's redirect URIs")
      "invalid_frontchannel_logout_uri")
    pure (some cleaned)

def validateBackchannelLogoutUri (uri : Option Text) : Except Error (Option Text) := do
  match cleanUri uri with
  | none => pure none
  | some cleaned =>
    ensure (isAbsolute env webSchemes cleaned) (.validation
      ("Invalid back-channel logout URI: " ++ String.ofList (cleaned.take 200)) "invalid_backchannel_logout_uri")
    pure (some cleaned)

def validateInitiateLoginUri (uri : Option Text) : Except Error (Option Text) := do
  match cleanUri uri with
  | none => pure none
  | some cleaned =>
    ensure (isAbsolute env ["https"] cleaned) (.validation
      ("Invalid login initiation URI: " ++ String.ofList (cleaned.take 200)) "invalid_initiate_login_uri")
    pure (some cleaned)

end Uris

section Subjects

variable (env : RegistrationEnv)

abbrev SectorDocuments := Text → Except Error (List Text)

def sectorError (message : String) : Error := .validation message "invalid_sector_identifier_uri"

def host (uri : Text) : Option Text := (urlsplit env uri).bind (hostname env)

def validateSectorIdentifierUri (value : Text) : Except Error Text := do
  let cleaned := value.strip
  ensure (cleaned.length ≤ maxUriLength ∧ isAbsolute env ["https"] cleaned)
    (sectorError "The sector identifier URI must be an absolute https URI")
  pure cleaned

def sectorDocumentMissing (missing : List Text) : Error :=
  sectorError ("The sector identifier document does not list every redirect URI (missing: " ++
    String.ofList ((", ".intercalate (missing.map String.ofList)).toList.take 200) ++ ")")

/-- The sector of a pairwise client is the host of a sector document that lists every redirect URI, or the one
host of its redirect URIs. -/
def validateSubjectSettings (documents : SectorDocuments) (subjectType : Option Text)
    (sectorIdentifierUri : Option Text)
    (redirectUris : List Text) : Except Error (SubjectType × Option Text) := do
  let sectorUri := cleanUri sectorIdentifierUri
  match findChoice subjectTypes (Text.orElse subjectType "public") with
  | none => .error (.validation ("Unsupported subject_type. Supported: " ++ namesOf subjectTypes)
      "invalid_subject_type")
  | some .publicSubject =>
    ensure (sectorUri = none) (sectorError "A sector identifier URI is only used with pairwise subjects")
    pure (.publicSubject, none)
  | some .pairwise =>
    match sectorUri with
    | some sectorUri =>
      let sectorUri ← validateSectorIdentifierUri env sectorUri
      let listed ← documents sectorUri
      ensure (∀ uri ∈ redirectUris, uri ∈ listed) (sectorDocumentMissing (redirectUris.filter (· ∉ listed)))
      pure (.pairwise, some sectorUri)
    | none =>
      let hosts := (redirectUris.map (host env)).eraseDups
      ensure (none ∉ hosts ∧ hosts.length = 1) (sectorError
        "Pairwise subjects need a sector identifier URI unless all redirect URIs share one host")
      pure (.pairwise, none)

end Subjects

/-- What the registration keeps as JSON besides the columns of the client; the last two say what the client
asked for itself. -/
structure Extra where
  applicationType : ApplicationType
  responseTypes : List ResponseType
  grantTypes : List GrantType
  tokenEndpointAuthMethod : AuthMethod
  contacts : Option (List Text) := none
  requestUris : Option (List Text) := none
  requestObjectSigningAlg : Option Text := none
  userinfoSignedResponseAlg : Option Text := none
  requirePushedAuthorizationRequests : Bool := false
  pairwise : Bool := false

structure Accepted where
  clientName : Text
  redirectUris : List Text
  postLogoutRedirectUris : List Text
  frontchannelLogoutUri : Option Text
  frontchannelLogoutSessionRequired : Bool
  backchannelLogoutUri : Option Text
  backchannelLogoutSessionRequired : Bool
  logoUri : Option Text
  clientUri : Option Text
  policyUri : Option Text
  tosUri : Option Text
  initiateLoginUri : Option Text
  deviceGrantEnabled : Bool
  isPublic : Bool
  clientAuthMethod : ClientAssertion.ClientAuthMethod
  jwks : Option Json.Dict
  jwksUri : Option Text
  tokenEndpointAuthSigningAlg : Option Text
  requirePushedAuthorizationRequests : Bool
  subjectType : SubjectType
  sectorIdentifierUri : Option Text
  extra : Extra

section Validation

variable (env : RegistrationEnv)

def privateKeyMembers : List Text := ["d", "p", "q", "dp", "dq", "qi", "oth", "k"].map String.toList

def validateJwk (key : Json.Dict) : Except Error Unit := do
  ensure (∀ field ∈ key, field.1 ∉ privateKeyMembers) (metadataError "jwks must contain public keys only")
  ensure (∃ kty ∈ strItem (Json.field key "kty"), kty = "RSA" ∨ kty = "EC")
    (metadataError "jwks keys must be RSA or EC public keys")
  ensure (env.buildsJwk key) (metadataError "jwks contains a key that cannot be used")

def objItem : Json → Option Json.Dict
  | .obj fields => some fields
  | _ => none

def validateJwks (metadata : Json.Dict) : Except Error (Option Json.Dict × Option Text) := do
  let refused := metadataError ("jwks must be a JSON Web Key Set with between 1 and " ++
    toString maxJwksKeys ++ " keys")
  let jwksUri ← httpsUri env metadata "jwks_uri"
  match Json.field metadata "jwks" with
  | .null => pure (none, jwksUri)
  | jwks =>
    ensure (jwksUri = none) (metadataError "jwks and jwks_uri must not both be present")
    match jwks with
    | .obj fields =>
      match Json.field fields "keys" with
      | .arr items =>
        match items.mapM objItem with
        | some keys =>
          ensure (keys ≠ [] ∧ keys.length ≤ maxJwksKeys ∧ (Json.dumps jwks).length ≤ maxJwksBytes) refused
          keys.forM (validateJwk env)
          pure (some fields, none)
        | none => .error refused
      | _ => .error refused
    | _ => .error refused

structure Flow where
  applicationType : ApplicationType
  grantTypes : List GrantType
  authMethod : AuthMethod
  redirectUris : List Text
  responseTypes : List ResponseType

def Flow.usesCode (flow : Flow) : Bool := .authorizationCode ∈ flow.grantTypes

def Flow.usesDevice (flow : Flow) : Bool := .deviceCode ∈ flow.grantTypes

def validateFlow (metadata : Json.Dict) : Except Error Flow := do
  let applicationType ← choice metadata "application_type" supportedApplicationTypes .web
  let grantTypes ← choiceList metadata "grant_types" supportedGrantTypes [.authorizationCode]
  ensure (.authorizationCode ∈ grantTypes ∨ .deviceCode ∈ grantTypes)
    (metadataError ("grant_types must include authorization_code or " ++ deviceCodeGrantType))
  let authMethod ← choice metadata "token_endpoint_auth_method" supportedAuthMethods .clientSecretBasic
  ensure (authMethod ≠ .none ∨ .authorizationCode ∉ grantTypes) (metadataError
    ("token_endpoint_auth_method none is supported only for device clients " ++
      "(grant_types without authorization_code)"))
  if .authorizationCode ∈ grantTypes then
    let redirectUris ← validateRedirectUris env metadata applicationType
    let responseTypes ← choiceList metadata "response_types" supportedResponseTypes [.code]
    pure { applicationType, grantTypes, authMethod, redirectUris, responseTypes }
  else
    -- a client of the device grant alone never visits the authorization endpoint
    ensure (¬ (Json.field metadata "redirect_uris").truthy)
      (metadataError "redirect_uris are only used with the authorization_code grant" "invalid_redirect_uri")
    ensure (¬ (Json.field metadata "response_types").truthy)
      (metadataError "response_types must be empty without authorization_code")
    pure { applicationType, grantTypes, authMethod, redirectUris := [], responseTypes := [] }

structure Keys where
  jwks : Option Json.Dict
  jwksUri : Option Text
  signingAlg : Option Text

def Keys.Present (keys : Keys) : Prop := keys.jwks.isSome ∨ keys.jwksUri.isSome
  deriving Decidable

def validateKeys (metadata : Json.Dict) (flow : Flow) : Except Error Keys := do
  let (jwks, jwksUri) ← validateJwks env metadata
  if flow.authMethod = .privateKeyJwt then
    ensure (jwks.isSome ∨ jwksUri.isSome) (metadataError "private_key_jwt requires jwks or jwks_uri")
    let alg ← signingAlg metadata "token_endpoint_auth_signing_alg" ClientAssertion.signingAlgValuesSupported
    pure { jwks, jwksUri, signingAlg := alg }
  else
    ensure (Json.isNull (Json.field metadata "token_endpoint_auth_signing_alg"))
      (metadataError "token_endpoint_auth_signing_alg is only used with private_key_jwt")
    pure { jwks, jwksUri, signingAlg := none }

structure LogoutSettings where
  frontchannelSessionRequired : Bool
  backchannelSessionRequired : Bool
  postLogoutUris : List Text
  frontchannelUri : Option Text
  backchannelUri : Option Text
  initiateLoginUri : Option Text

def validateLogout (metadata : Json.Dict) (flow : Flow) : Except Error LogoutSettings := do
  let frontchannelSessionRequired ← flag metadata "frontchannel_logout_session_required" true
  let backchannelSessionRequired ← flag metadata "backchannel_logout_session_required" true
  let postLogout ← strList metadata "post_logout_redirect_uris" 50 maxUriLength
  let postLogoutUris ← (validatePostLogoutRedirectUris env (postLogout.getD [])).mapError asMetadataError
  let frontchannel ← optionalStr metadata "frontchannel_logout_uri" maxUriLength
  let frontchannelUri ← (validateFrontchannelLogoutUri env frontchannel flow.redirectUris).mapError asMetadataError
  let backchannel ← optionalStr metadata "backchannel_logout_uri" maxUriLength
  let backchannelUri ← (validateBackchannelLogoutUri env backchannel).mapError asMetadataError
  let initiateLogin ← optionalStr metadata "initiate_login_uri" maxUriLength
  let initiateLoginUri ← (validateInitiateLoginUri env initiateLogin).mapError asMetadataError
  ensure (flow.usesCode ∨ (postLogoutUris = [] ∧ initiateLoginUri = none)) (metadataError
    "post_logout_redirect_uris and initiate_login_uri are only used with the authorization_code grant")
  pure { frontchannelSessionRequired, backchannelSessionRequired, postLogoutUris, frontchannelUri, backchannelUri,
         initiateLoginUri }

structure RequestSettings where
  requestUris : Option (List Text)
  requestObjectAlg : Option Text
  userinfoAlg : Option Text
  requirePar : Bool

def validateRequests (metadata : Json.Dict) (flow : Flow) (keys : Keys) : Except Error RequestSettings := do
  let requestUris ← validateRequestUris env metadata
  let requestObjectAlg ← signingAlg metadata "request_object_signing_alg" ClientAssertion.signingAlgValuesSupported
  ensure (flow.usesCode ∨ (requestUris = none ∧ requestObjectAlg = none)) (metadataError
    "request_uris and request_object_signing_alg are only used with the authorization_code grant")
  ensure (requestObjectAlg = none ∨ keys.Present)
    (metadataError "request_object_signing_alg requires jwks or jwks_uri")
  let userinfoAlg ← signingAlg metadata "userinfo_signed_response_alg" ["RS256"]
  let requirePar ← flag metadata "require_pushed_authorization_requests" false
  ensure (requirePar → flow.usesCode ∧ flow.authMethod ≠ .none) (metadataError
    ("require_pushed_authorization_requests needs the authorization_code grant " ++ "and a confidential client"))
  pure { requestUris, requestObjectAlg, userinfoAlg, requirePar }

def requestedSubjectType (metadata : Json.Dict) : Except Error (Option Text) :=
  match Json.field metadata "subject_type" with
  | .null => .ok none
  | .str value => .ok (some value)
  | _ => .error (metadataError "subject_type must be a string")

/-- The subjects a client asks for.  With the device grant no token travels through the redirect URIs, so their
host says nothing about who receives it. -/
def validateSubject (documents : SectorDocuments) (metadata : Json.Dict) (flow : Flow) :
    Except Error (SubjectType × Option Text) := do
  let subjectType ← requestedSubjectType metadata
  let sectorUri ← optionalStr metadata "sector_identifier_uri" maxUriLength
  let (subjectType, sectorUri) ←
    (validateSubjectSettings env documents subjectType sectorUri flow.redirectUris).mapError asMetadataError
  ensure (¬ (subjectType = .pairwise ∧ flow.usesDevice ∧ sectorUri = none))
    (metadataError "A pairwise client with the device_code grant needs a sector_identifier_uri")
  pure (subjectType, sectorUri)

def fallbackName (redirectUris : List Text) : Text :=
  match redirectUris with
  | [] => "Registered device client"
  | uri :: _ =>
    ("Registered client (" ++ (host env uri).getD "unknown host" ++ [')']).take maxNameLength

def validateClientMetadata (documents : SectorDocuments) (metadata : Json) : Except Error Accepted := do
  match metadata with
  | .obj metadata =>
    match unsupportedAlgFields.find? fun name => ¬ (Json.field metadata name).isNull with
    | some name => .error (metadataError (name ++ " is not supported"))
    | none =>
      let _ ← signingAlg metadata "id_token_signed_response_alg" ["RS256"]
      let flow ← validateFlow env metadata
      let clientName ← optionalStr metadata "client_name" maxNameLength
      let contacts ← strList metadata "contacts" maxContacts maxContactLength
      let keys ← validateKeys env metadata flow
      let logout ← validateLogout env metadata flow
      let requests ← validateRequests env metadata flow keys
      -- last, because a sector identifier URI is fetched
      let (subjectType, sectorIdentifierUri) ← validateSubject env documents metadata flow
      let logoUri ← httpsUri env metadata "logo_uri"
      let clientUri ← httpsUri env metadata "client_uri"
      let policyUri ← httpsUri env metadata "policy_uri"
      let tosUri ← httpsUri env metadata "tos_uri"
      pure {
        clientName := clientName.getD (fallbackName env flow.redirectUris)
        redirectUris := flow.redirectUris
        postLogoutRedirectUris := logout.postLogoutUris
        frontchannelLogoutUri := logout.frontchannelUri
        frontchannelLogoutSessionRequired := logout.frontchannelSessionRequired
        backchannelLogoutUri := logout.backchannelUri
        backchannelLogoutSessionRequired := logout.backchannelSessionRequired
        logoUri
        clientUri
        policyUri
        tosUri
        initiateLoginUri := logout.initiateLoginUri
        deviceGrantEnabled := flow.usesDevice
        isPublic := flow.authMethod = .none
        clientAuthMethod := if flow.authMethod = .privateKeyJwt then .privateKeyJwt else .clientSecret
        jwks := keys.jwks
        jwksUri := keys.jwksUri
        tokenEndpointAuthSigningAlg := keys.signingAlg
        requirePushedAuthorizationRequests := requests.requirePar
        subjectType
        sectorIdentifierUri
        extra := {
          applicationType := flow.applicationType
          responseTypes := flow.responseTypes
          grantTypes := flow.grantTypes
          tokenEndpointAuthMethod := flow.authMethod
          contacts
          requestUris := requests.requestUris
          requestObjectSigningAlg := requests.requestObjectAlg
          userinfoSignedResponseAlg := requests.userinfoAlg
          requirePushedAuthorizationRequests := requests.requirePar
          pairwise := subjectType = .pairwise } }
  | _ => .error (metadataError "The request body must be a JSON object")

end Validation

end Registration
end WeftId
