import WeftId.Lib.Proc
import WeftId.Lib.Rows
import WeftId.Lib.Text

/-!
The tables of one tenant that the modelled services read or write, and the errors a call can raise.
Rows keep the column names of the schema.  Ids are handed out by a counter, so a new id never equals
one that was used before.  A text column takes any text here; the driver refuses one with a NUL character,
which is modelled in the lookup of forward auth's `rd` host.
-/

namespace WeftId

abbrev Id := Nat

inductive Role
  | member
  | admin
  | superAdmin
  deriving DecidableEq

inductive MfaMethod
  | passcode
  | totp
  | email
  deriving DecidableEq

structure User where
  id : Id
  firstName : Text := []
  lastName : Text := []
  role : Role := .member
  passwordHash : Option Text := none
  passwordChangedAt : Option Nat := none
  passwordResetRequired : Bool := false
  mfaEnabled : Bool := true
  mfaMethod : Option MfaMethod := some .email
  isInactivated : Bool := false
  isAnonymized : Bool := false
  inactivatedAt : Option Nat := none
  reactivationDeniedAt : Option Nat := none
  samlIdpId : Option Id := none
  lastLogin : Option Nat := none
  tz : Option Text := none
  locale : Option Text := none
  deriving DecidableEq

inductive Source
  | saml
  | oidc
  deriving DecidableEq

inductive GroupType
  | weftid
  | idp
  deriving DecidableEq

structure Group where
  id : Id
  name : Text
  groupType : GroupType := .weftid
  idpId : Option Id := none
  oidcConnectionId : Option Id := none
  isValid : Bool := true
  deriving DecidableEq

def Group.sourceId (g : Group) : Source → Option Id
  | .saml => g.idpId
  | .oidc => g.oidcConnectionId

structure Relationship where
  parentGroupId : Id
  childGroupId : Id
  deriving DecidableEq

structure Membership where
  groupId : Id
  userId : Id
  deriving DecidableEq

structure UserEmail where
  id : Id
  userId : Id
  email : Text
  isPrimary : Bool := false
  verifiedAt : Option Nat := none
  deriving DecidableEq

structure IdentityProvider where
  id : Id
  name : Text
  isEnabled : Bool := false
  jitProvisioning : Bool := false

structure OidcConnection where
  id : Id
  name : Text
  isEnabled : Bool := false
  clientId : Option Text := none
  jwksUri : Option Text := none

structure OidcIdpUserLink where
  idpId : Id
  sub : Text
  userId : Id

structure OidcIdpSession where
  sid : Id
  idpId : Id
  userId : Id
  upstreamSub : Text := []
  upstreamSid : Option Text := none

structure PrivilegedDomain where
  id : Id
  domain : Text

structure DomainBinding where
  domainId : Id
  idpId : Id

structure DomainGroupLink where
  domainId : Id
  groupId : Id

structure UserIdpAttribute where
  userId : Id
  idpId : Id
  attributeKey : Text
  value : Text

inductive AttributeSource
  | idp
  | admin
  | self
  deriving DecidableEq

structure UserAttribute where
  userId : Id
  attributeKey : Text
  value : Text
  source : AttributeSource
  deriving DecidableEq

structure AttributeConfig where
  attributeKey : Text
  enabled : Bool
  mirrorFromIdp : Bool
  lockedForUsers : Bool := false

structure PasswordPolicy where
  minimumPasswordLength : Nat := 14
  minimumZxcvbnScore : Nat := 3

inductive AuthStrength
  | baseline
  | enhanced
  deriving DecidableEq

structure SecuritySettings where
  persistentSessions : Bool := true
  sessionTimeoutSeconds : Option Nat := none
  requiredAuthStrength : AuthStrength := .baseline
  allowUsersEditProfile : Bool := true

structure RevokedSession where
  sid : Id
  revokedAt : Nat

inductive TokenType
  | access
  | refresh
  deriving DecidableEq

structure OAuth2Token where
  id : Id
  tokenType : TokenType
  clientId : Id
  userId : Id
  expiresAt : Nat
  parentTokenId : Option Id := none
  scope : Option Text := none
  grantId : Option Id := none
  /-- The browser session whose end revokes the token. -/
  sid : Option Id := none
  deriving DecidableEq

structure AuthorizationCode where
  id : Id
  code : Text
  clientId : Id
  userId : Id
  redirectUri : Text
  codeChallenge : Option Text := none
  codeChallengeMethod : Option Text := none
  expiresAt : Nat
  scope : Option Text := none
  sid : Option Id := none
  consumedAt : Option Nat := none
  deriving DecidableEq

inductive ClientType
  | normal
  | b2b
  deriving DecidableEq

structure OAuth2Client where
  id : Id
  clientType : ClientType := .normal
  serviceUserId : Option Id := none
  redirectUris : List Text := []
  isActive : Bool := true
  isPublic : Bool := false
  oidcEnabled : Bool := false
  availableToAll : Bool := false
  deviceGrantEnabled : Bool := false

/-- A row of `sp_group_assignments` that grants an OAuth2 client to a group. -/
structure ClientGroupAssignment where
  oauth2ClientId : Id
  groupId : Id

inductive DeviceCodeStatus
  | pending
  | approved
  | denied
  | redeemed
  deriving DecidableEq

structure DeviceCode where
  id : Id
  clientId : Id
  deviceCode : Text
  userCode : Text
  scope : Option Text := none
  status : DeviceCodeStatus := .pending
  userId : Option Id := none
  pollInterval : Nat := 5
  lastPolledAt : Option Nat := none
  expiresAt : Nat
  deriving DecidableEq

structure SessionClient where
  sid : Id
  clientId : Id
  userId : Id

structure TotpSecret where
  userId : Id
  secret : Text
  verifiedAt : Option Nat := none

structure BackupCode where
  id : Id
  userId : Id
  codeHash : Text
  usedAt : Option Nat := none

structure WebauthnCredential where
  id : Id
  userId : Id
  credentialId : Text
  publicKey : Text
  name : Text
  signCount : Nat := 0
  backupEligible : Bool := false
  backupState : Bool := false

inductive ScimMembershipMode
  | effective
  | direct
  deriving DecidableEq

structure ServiceProvider where
  id : Id
  enabled : Bool := true
  trustEstablished : Bool := false
  availableToAll : Bool := false
  scimEnabled : Bool := false
  scimTargetUrl : Option Text := none
  scimMembershipMode : ScimMembershipMode := .effective
  deriving DecidableEq

structure SpGroupAssignment where
  spId : Id
  groupId : Id
  deriving DecidableEq

inductive ResourceType
  | user
  | group
  deriving DecidableEq

structure PushKey where
  spId : Id
  resourceType : ResourceType
  resourceId : Id
  deriving DecidableEq

structure PushEntry where
  id : Id
  key : PushKey
  enqueuedAt : Nat
  attempts : Nat := 0
  nextAttemptAt : Option Nat := none
  lastError : Option Text := none
  deadLetterAt : Option Nat := none
  deriving DecidableEq

structure Db where
  nextId : Id := 0
  /-- The database clock in microseconds. -/
  now : Nat := 0
  users : List User := []
  userEmails : List UserEmail := []
  /-- The users that a row names as its creator or decider without letting them be deleted. -/
  restrictedUsers : List Id := []
  /-- The users with a pending reactivation request. -/
  reactivationRequests : List Id := []
  passwordPolicy : Option PasswordPolicy := none
  securitySettings : Option SecuritySettings := none
  revokedSessions : List RevokedSession := []
  mfaTotp : List TotpSecret := []
  mfaBackupCodes : List BackupCode := []
  webauthnCredentials : List WebauthnCredential := []
  authorizationCodes : List AuthorizationCode := []
  oauth2Tokens : List OAuth2Token := []
  oidcSessionClients : List SessionClient := []
  oauth2Clients : List OAuth2Client := []
  clientGroupAssignments : List ClientGroupAssignment := []
  oauth2DeviceCodes : List DeviceCode := []
  privilegedDomains : List PrivilegedDomain := []
  samlDomainBindings : List DomainBinding := []
  oidcDomainBindings : List DomainBinding := []
  domainGroupLinks : List DomainGroupLink := []
  userIdpAttributes : List UserIdpAttribute := []
  userOidcIdpAttributes : List UserIdpAttribute := []
  userAttributes : List UserAttribute := []
  attributeConfig : List AttributeConfig := []
  identityProviders : List IdentityProvider := []
  oidcConnections : List OidcConnection := []
  oidcIdpUserLinks : List OidcIdpUserLink := []
  oidcIdpSessions : List OidcIdpSession := []
  groups : List Group := []
  relationships : List Relationship := []
  lineage : List (ClosureTable.Row Id) := []
  memberships : List Membership := []
  serviceProviders : List ServiceProvider := []
  spGroupAssignments : List SpGroupAssignment := []
  scimPushQueue : List PushEntry := []

def Db.serviceUsers (db : Db) : List Id := db.oauth2Clients.filterMap (·.serviceUserId)

inductive DbError
  | uniqueViolation (constraint : String)
  | foreignKeyViolation (constraint : String)
  | checkViolation (constraint : String)
  | cardinalityViolation
  | statementTimeout
  deriving DecidableEq

inductive Error
  | notFound (message code : String)
  | forbidden (message code : String) (requiredRole : Option String := none)
  | validation (message code : String) (field : Option String := none)
  | conflict (message code : String)
  | scim (statusCode : Nat) (detail : String) (scimType : Option String := none)
  | database (e : DbError)
  /-- A Python exception that the service does not handle. -/
  | exception (name : String)
  deriving DecidableEq

abbrev Service (α : Type) := Proc Db Error α

def tx {α : Type} (f : Db → Except DbError (α × Db)) : Service α :=
  Proc.transaction fun db => (f db).mapError Error.database

variable {α : Type} {f : Db → Except DbError (α × Db)} {db : Db}

theorem ensures_tx {Q : Except Error α → Db → Prop} :
    (tx f).Ensures db Q ↔ (∀ a db', f db = .ok (a, db') → Q (.ok a) db') ∧
      (∀ e, f db = .error e → Q (.error (.database e)) db) := by
  rw [tx, Proc.ensures_transaction]
  cases f db <;> simp [Except.mapError]

theorem tx_apply_of_ok {db' : Db} {a : α} (h : f db = .ok (a, db')) : tx f db = (.ok a, db') := by
  simp [tx, Proc.transaction, h, Except.mapError]

theorem tx_apply_of_error {e : DbError} (h : f db = .error e) : tx f db = (.error (.database e), db) := by
  simp [tx, Proc.transaction, h, Except.mapError]

theorem exec_tx_of_ok {db' : Db} {a : α} (h : f db = .ok (a, db')) : (tx f).exec db = db' := by
  rw [Proc.exec, tx_apply_of_ok h]

theorem exec_tx_of_error {e : DbError} (h : f db = .error e) : (tx f).exec db = db := by
  rw [Proc.exec, tx_apply_of_error h]

theorem within_tx {R : Db → Db → Prop} [Std.Refl R]
    (h : ∀ db a db', f db = .ok (a, db') → R db db') : (tx f).Within R :=
  Proc.within_iff_ensures.mpr fun db => ensures_tx.mpr ⟨fun a db' hf => h db a db' hf, fun _ _ => refl_of R db⟩

structure RequestingUser where
  id : Id
  role : Role

def requireAdmin (user : RequestingUser) : Service Unit :=
  Proc.require (user.role = .admin ∨ user.role = .superAdmin)
    (.forbidden "Admin access required" "admin_required" (some "admin"))

def requireSuperAdmin (user : RequestingUser) : Service Unit :=
  Proc.require (user.role = .superAdmin)
    (.forbidden "Super admin access required" "super_admin_required" (some "super_admin"))

end WeftId
