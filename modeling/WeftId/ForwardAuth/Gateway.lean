import WeftId.ForwardAuth.Tokens
import WeftId.Lib.Url
import WeftId.Users.Accounts

/-!
The portal hosts of forward auth.  A request is resolved to a protected domain by its host alone; the check
then selects a proxy app of that domain and asks whether the user named by the cookie may use it.  The
callback redeems a token and sets the cookie.
-/

namespace WeftId

open Proc ClosureTable

structure ProtectedDomain where
  id : Id
  tenantId : Id
  domain : Text
  portalHost : Text
  verified : Bool := false
  enabled : Bool := true
  deriving DecidableEq

structure HeaderConfig where
  user : Bool := false
  email : Bool := false
  displayName : Bool := false
  groups : Bool := false
  deriving DecidableEq

structure ProxyApp where
  id : Id
  tenantId : Id
  protectedDomainId : Id
  externalUrl : Text
  publicPaths : List Text := []
  headerConfig : HeaderConfig := {}
  availableToAll : Bool := false
  enabled : Bool := true
  deriving DecidableEq

/-- A row of `sp_group_assignments` that grants a proxy app to a group. -/
structure ProxyAppAssignment where
  tenantId : Id
  proxyAppId : Id
  groupId : Id

/-- The tables of forward auth for all tenants, apps in the order they were created, and the directory that
each tenant sees. -/
structure Gateway where
  now : Nat
  protectedDomains : List ProtectedDomain
  proxyApps : List ProxyApp
  assignments : List ProxyAppAssignment := []
  nonces : List ForwardAuthNonce := []
  directory : Id → Db

/-- What a request brings along: `blocked` is the answer of the rate limiter. -/
structure PortalRequest where
  host : Option Text := none
  forwardedHost : Option Text := none
  forwardedUri : Option Text := none
  cookie : Option Text := none
  blocked : Bool := false

inductive CheckAnswer
  /-- 400: the bare domain names no tenant. -/
  | tenantRequired
  /-- 404. -/
  | unknownHost
  /-- 403. -/
  | denied (message : String)
  /-- 429. -/
  | tooManyRequests
  /-- 200. -/
  | allowed (headers : List (String × Text))
  /-- 302 into the handshake. -/
  | start (rd : Text)
  deriving DecidableEq

inductive CallbackAnswer
  | tenantRequired
  | unknownHost
  | denied (message : String)
  /-- 302 to the destination with the cookie for a domain. -/
  | signedIn (location cookieValue cookieDomain : Text)

section Hosts

variable (env : ForwardAuthEnv)

def normalizeHost (value : Option Text) : Text :=
  env.lower (Text.rstrip '.' ((value.getD []).takeWhile (· ≠ ':')))

namespace Gateway

def resolveVerifiedPortalHost (g : Gateway) (portalHost : Text) : Option ProtectedDomain :=
  let host := normalizeHost env (some portalHost)
  if host = [] then none
  else (g.protectedDomains.find? (·.portalHost = host)).filter fun d => d.verified ∧ d.enabled

/-- The `Host` header is tried first, and then the forwarded one. -/
def portalDomain (g : Gateway) (request : PortalRequest) : Option ProtectedDomain :=
  let rawHost := normalizeHost env request.host
  let host := normalizeHost env (request.forwardedHost.filter (· ≠ []) <|> request.host)
  ([rawHost, host].filter (· ≠ [])).findSome? (g.resolveVerifiedPortalHost env)

def verifiedDomainRow (g : Gateway) (tenantId : Id) (domain : Text) : Option ProtectedDomain :=
  if domain = [] then none
  else (g.protectedDomains.find? fun d => d.tenantId = tenantId ∧ d.domain = domain).filter fun d =>
    d.verified ∧ d.enabled

def listProxyAppsForDomain (g : Gateway) (tenantId protectedDomainId : Id) : List ProxyApp :=
  g.proxyApps.filter fun a => a.tenantId = tenantId ∧ a.protectedDomainId = protectedDomainId

def getEnabledProxyAppForDomainAndHost (g : Gateway) (tenantId protectedDomainId : Id) (externalHost : Text) :
    Option ProxyApp :=
  let origin := fun host : Text => "https://" ++ host
  (g.listProxyAppsForDomain tenantId protectedDomainId).find? fun a => a.enabled ∧
    (a.externalUrl = origin externalHost ∨
      SqlLike.like (origin (SqlLike.escape externalHost) ++ ['/', '%']) a.externalUrl ∨
      SqlLike.like (origin (SqlLike.escape externalHost) ++ [':', '%']) a.externalUrl)

def resolveProxyAppByHost (g : Gateway) (tenantId : Id) (domain externalHost : Text) : Option ProxyApp := do
  let row ← g.verifiedDomainRow tenantId domain
  if externalHost = [] then none
  else g.getEnabledProxyAppForDomainAndHost tenantId row.id externalHost

def resolveSoleEnabledApp (g : Gateway) (tenantId : Id) (domain : Text) : Option ProxyApp := do
  let row ← g.verifiedDomainRow tenantId domain
  match (g.listProxyAppsForDomain tenantId row.id).filter (·.enabled) with
  | [app] => some app
  | _ => none

end Gateway

def originalHost (request : PortalRequest) (portalHost : Text) : Text :=
  let host := normalizeHost env (some ((request.forwardedHost.getD []).take 253))
  if host = portalHost then [] else host

def resolveApp (g : Gateway) (portal : ProtectedDomain) (request : PortalRequest) : Option ProxyApp :=
  match originalHost env request portal.portalHost with
  | [] => g.resolveSoleEnabledApp portal.tenantId portal.domain
  | host => g.resolveProxyAppByHost portal.tenantId portal.domain host

end Hosts

def originalRequestUri (request : PortalRequest) : Text :=
  match (request.forwardedUri.getD []).take 2048 with
  | '/' :: '/' :: _ => ['/']
  | '/' :: rest => '/' :: rest
  | _ => ['/']

def originalPath (request : PortalRequest) : Text := (originalRequestUri request).takeWhile (· ≠ '?')

/-- A pattern that ends in a star matches by its beginning; a path with a `..` segment is never public. -/
def pathMatchesPublic (path : Text) (publicPaths : List Text) : Bool :=
  "..".toList ∉ Text.split '/' path ∧ publicPaths.any fun pattern =>
    if pattern.getLast? = some '*' then pattern.dropLast.isPrefixOf path else path = pattern

def isPublicPath (app : ProxyApp) (path : Text) : Bool := pathMatchesPublic path app.publicPaths

def cleanHeader (value : Text) : Text := value.filter fun c => c ≠ '\r' ∧ c ≠ '\n'

def buildForwardedHeaders (app : ProxyApp) (identity : ForwardIdentity) : List (String × Text) :=
  let config := app.headerConfig
  (if config.user then [("X-Forwarded-User", cleanHeader identity.userId)] else []) ++
  (if config.email then [("X-Forwarded-Email", cleanHeader identity.email)] else []) ++
  (if config.displayName then [("X-Forwarded-Display-Name", cleanHeader identity.displayName)] else []) ++
  (if config.groups then [("X-Forwarded-Groups", Text.join ',' (identity.groups.map cleanHeader))] else [])

/-- A response encodes the values of its headers in Latin-1. -/
def encodeHeaders (headers : List (String × Text)) : Except Error (List (String × Text)) :=
  if headers.all fun header => header.2.all (·.toNat < 256) then .ok headers
  else .error (.exception "UnicodeEncodeError")

/-- Available to everybody, or assigned to a group that one of the user's groups is or descends from; both are
looked up in the tenant of the app. -/
def Gateway.userCanAccessProxyApp (g : Gateway) (tenantId userId appId : Id) : Bool :=
  (g.proxyApps.any fun a => a.tenantId = tenantId ∧ a.id = appId ∧ a.availableToAll) ||
    (g.directory tenantId).memberships.any fun m => m.userId = userId ∧ g.assignments.any fun a =>
      a.tenantId = tenantId ∧ a.proxyAppId = appId ∧
        (depthOf (g.directory tenantId).lineage a.groupId m.groupId).isSome

/-- A text that a query compares with a `uuid` column. -/
def bindUuid (value : Text) : Except Error Id :=
  match Numeral.readUuid value with
  | some id => .ok id
  | none => .error (.exception "DatabaseError")

section Check

variable (env : ForwardAuthEnv)

def guardHost {α : Type} (request : PortalRequest) (tenantRequired unknownHost answer : α) : α :=
  let host := normalizeHost env (request.forwardedHost.filter (· ≠ []) <|> request.host)
  match env.baseDomain.filter (· ≠ []) with
  | none => answer
  | some base =>
    if host = base ∨ host = "www." ++ base then tenantRequired
    else if ¬ ('.' :: base).isSuffixOf host then unknownHost
    else answer

def recheckCookieAccess (g : Gateway) (tenantId : Id) (userId : Text) (appId : Id) : Except Error Bool :=
  if ¬ Numeral.looksLikeUuid env.digitValue userId then .ok false
  else (bindUuid userId).map fun id => g.userCanAccessProxyApp tenantId id appId

/-- The identity of a cookie, as `str` prints its fields. -/
def cookieIdentity (payload : Json.Dict) : ForwardIdentity where
  userId := Scim.showJson env.toEnv (Json.field payload "sub")
  email := Scim.showJson env.toEnv (Json.field payload "email")
  displayName := Scim.showJson env.toEnv (Json.field payload "name")
  groups :=
    match Json.field payload "groups" with
    | .arr groups => groups.map (Scim.showJson env.toEnv)
    | _ => []

def forwardAuthCheck (g : Gateway) (request : PortalRequest) : Except Error CheckAnswer :=
  match g.portalDomain env request with
  | none => .ok (guardHost env request .tenantRequired .unknownHost
      (.denied "This host is not configured for forward auth."))
  | some portal =>
    if request.blocked then .ok .tooManyRequests
    else
      match resolveApp env g portal request with
      | none => .ok (.denied "No application is configured for this address.")
      | some app =>
        if isPublicPath app (originalPath request) then .ok (.allowed [])
        else
          match readForwardAuthCookie env request.cookie g.now with
          | none => .ok (.start (originalRequestUri request))
          | some payload => do
            let identity := cookieIdentity env payload
            let access ← recheckCookieAccess env g portal.tenantId identity.userId app.id
            if ¬ access then pure (.denied "You do not have access to this application.")
            else (encodeHeaders (buildForwardedHeaders app identity)).map .allowed

end Check

section Destination

variable (env : ForwardAuthEnv)

def urlsplit (url : Text) : Except Error SplitUrl :=
  match Url.split env.acceptsNetloc url with
  | some parsed => .ok parsed
  | none => .error (.exception "ValueError")

def hostname (url : SplitUrl) : Option Text := Url.hostname env.lower url

def port (url : SplitUrl) : Except Error (Option Nat) :=
  let digits := (Url.hostinfo url.netloc).2
  if digits = [] then .ok none
  else if digits.all Text.isAsciiDigit then
    match Numeral.parseDigits env.digitValue digits with
    | some n => if n ≤ 65535 then .ok (some n) else .error (.exception "ValueError")
    | none => .error (.exception "ValueError")
  else .error (.exception "ValueError")

def portOrDefault (found : Option Nat) : Nat := (found.filter (· ≠ 0)).getD 443

def safeRd (rd appExternalUrl : Text) : Except Error (Option Text) :=
  if rd = [] then .ok none
  else
    let rd := rd.take 2048
    if rd.take 1 = ['/'] ∧ rd.take 2 ≠ ['/', '/'] then .ok (some rd)
    else do
      let parsed ← urlsplit env rd
      if parsed.scheme ≠ "https" ∨ parsed.netloc = [] then .ok none
      else
        let app ← urlsplit env appExternalUrl
        if normalizeHost env (hostname env parsed) ≠ normalizeHost env (hostname env app) then .ok none
        else
          let rdPort ← port env parsed
          let appPort ← port env app
          if portOrDefault rdPort ≠ portOrDefault appPort then .ok none
          else .ok (some rd)

end Destination

section Callback

variable (env : ForwardAuthEnv)

def consumeNonce (nonce domain : Text) : Proc Gateway Error (Option ForwardAuthNonce) := fun g =>
  let matching := fun n : ForwardAuthNonce => n.nonce = nonce ∧ n.domain = domain ∧ g.now < n.expiresAt
  (.ok (g.nonces.find? (matching ·)), { g with nonces := g.nonces.filter (¬ matching ·) })

def redeemAuthorizationToken (token expectedDomain : Text) : Proc Gateway Error (Option Json.Dict) := do
  let payload ← lookup fun g : Gateway => verifyAuthorizationToken env token expectedDomain g.now
  match payload with
  | none => pure none
  | some payload =>
    let consumed ← consumeNonce (Scim.showJson env.toEnv (Json.field payload "nonce")) expectedDomain
    match consumed with
    | none => pure none
    | some row =>
      if Numeral.uuid row.tenantId ≠ Scim.showJson env.toEnv (Json.field payload "tid") then pure none
      else pure (some payload)

def Gateway.effectiveGroupNames (g : Gateway) (tenantId userId : Id) : List Text :=
  let db := g.directory tenantId
  let effective := fun group : Group => db.memberships.any fun m => m.userId = userId ∧
    (m.groupId = group.id ∨ ∃ depth ∈ depthOf db.lineage group.id m.groupId, 0 < depth)
  ((db.groups.filter (effective ·)).map (·.name)).mergeSort env.collate

def buildForwardAuthIdentity (g : Gateway) (tenantId : Id) (userId : Text) : Except Error (Option ForwardIdentity) := do
  let id ← bindUuid userId
  match (g.directory tenantId).getUserById id with
  | none => pure none
  | some user =>
    if user.isInactivated ∨ user.isAnonymized then pure none
    else
      let email := ((g.directory tenantId).getPrimaryEmail id).getD []
      let name := Text.strip (user.firstName.strip ++ ' ' :: user.lastName.strip)
      pure (some {
        userId
        email
        displayName := if name = [] then email else name
        groups := g.effectiveGroupNames env tenantId id })

def forwardAuthCallback (request : PortalRequest) (token : Text) : Proc Gateway Error CallbackAnswer := do
  let found ← read fun g : Gateway => g.portalDomain env request
  match found with
  | none => pure (guardHost env request .tenantRequired .unknownHost
      (.denied "This host is not configured for forward auth."))
  | some portal => do
    let redeemed ← redeemAuthorizationToken env token portal.domain
    match redeemed with
    | none => pure (.denied "Your sign-in link is invalid or has expired.")
    | some payload =>
      if Scim.showJson env.toEnv (Json.field payload "tid") ≠ Numeral.uuid portal.tenantId then
        pure (.denied "Your sign-in link is invalid or has expired.")
      else do
        let appId ← lookup fun _ : Gateway => bindUuid (Scim.showJson env.toEnv (Json.field payload "app"))
        let app ← read fun g : Gateway =>
          g.proxyApps.find? fun a => a.tenantId = portal.tenantId ∧ a.id = appId
        match app.filter (·.enabled) with
        | none => pure (.denied "No application is configured for this address.")
        | some app => do
          let identity ← lookup fun g : Gateway =>
            buildForwardAuthIdentity env g portal.tenantId (Scim.showJson env.toEnv (Json.field payload "sub"))
          match identity with
          | none => pure (.denied "Your account is not active.")
          | some identity => do
            let destination ← lookup fun _ : Gateway =>
              safeRd env (Scim.showJson env.toEnv (Json.field payload "rd")) app.externalUrl
            match destination with
            | none => pure (.denied "Invalid return destination.")
            | some rd => do
              let now ← read fun g : Gateway => g.now
              pure (.signedIn rd (buildForwardAuthCookieValue env identity now) portal.domain)

end Callback

end WeftId
