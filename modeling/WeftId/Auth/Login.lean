import WeftId.Auth.Session
import WeftId.Saml.Domains
import WeftId.Saml.Provisioning
import WeftId.Lib.Run

/-!
The password step of a sign-in.  It looks at the verified address, the stored hash and the inactivation
flag, and leaves the user pending in the browser session.  The assigned identity provider is not looked
at, so a password that was kept when a provider was assigned still signs in.
-/

namespace WeftId

open Proc Run

inductive LoginStatus
  | success
  | invalidCredentials
  | inactivated
  | pending
  | denied

structure LoginResult where
  status : LoginStatus
  user : Option User := none
  canRequestReactivation : Bool := false

variable (env : Env)

def verifyLoginWithStatus (email password : Text) : Service LoginResult := do
  let found ← read (·.getUserByEmail env email)
  match found with
  | none | some (_, none) | some (_, some []) => pure { status := .invalidCredentials }
  | some (userId, some hash) =>
    if ¬ env.verifyPassword hash password then pure { status := .invalidCredentials }
    else do
      let user ← read (·.getUserById userId)
      if user.any (·.isInactivated) then
        if user.any (·.reactivationDeniedAt.isSome) then pure { status := .denied, user }
        else do
          let pending ← read fun db => decide (userId ∈ db.reactivationRequests)
          if pending then pure { status := .pending, user }
          else pure { status := .inactivated, user, canRequestReactivation := true }
      else do
        write (·.updateLastLogin userId)
        let user ← read (·.getUserById userId)
        pure { status := .success, user }

structure LoginRequest where
  email : Text
  password : Text
  timezone : Text := []
  locale : Text := []
  /-- The rate limiter refuses the request. -/
  blocked : Bool := false

def passwordStep (session : Session) (request : LoginRequest) (user : User) : Response × Session :=
  if user.passwordResetRequired then
    (.redirect "/login/reset-password", { session with pendingPasswordResetUserId := some user.id })
  else
    (.redirect "/mfa/verify", { session with
      pendingMfaUserId := some user.id
      pendingMfaMethod := user.mfaMethod
      pendingTimezone := if request.timezone = [] then session.pendingTimezone else some request.timezone
      pendingLocale := if request.locale = [] then session.pendingLocale else some request.locale })

def login (session : Session) (request : LoginRequest) : Service (Response × Session) :=
  if request.blocked then
    pure (.page "login.html" (some "Too many sign-in attempts. Please try again later."), session)
  else do
    let result ← verifyLoginWithStatus env request.email request.password
    match result.status, result.user with
    | .invalidCredentials, _ => pure (.page "login.html" (some "Invalid email or password"), session)
    | .success, some user => pure (passwordStep session request user)
    | .success, none => raise (.exception "AttributeError")
    | _, _ => pure (.page "account_inactivated.html", session)

inductive SignInCall
  | bindDomainToIdp (user : RequestingUser) (idpId domainId : Id)
  | rebindDomainToIdp (user : RequestingUser) (domainId newIdpId : Id)
  | unbindDomainFromIdp (user : RequestingUser) (domainId : Id)
  | authenticateViaSaml (result : SamlAuthResult)
  | assignUserIdp (user : RequestingUser) (userId : Id) (samlIdpId : Option Id) (scrub : Bool)
  | changePassword (user : RequestingUser) (currentPassword newPassword : Text)
  | forcePasswordReset (user : RequestingUser) (targetUserId : Id)
  | completeForcedPasswordReset (userId : Id) (newPassword : Text)
  | completeSelfServicePasswordReset (userId : Id) (newPassword : Text)
  | login (session : Session) (request : LoginRequest)

def SignInCall.exec (db : Db) : SignInCall → Db
  | .bindDomainToIdp user idpId domainId => (WeftId.bindDomainToIdp env user idpId domainId).toProc.exec db
  | .rebindDomainToIdp user domainId newIdpId => (WeftId.rebindDomainToIdp env user domainId newIdpId).toProc.exec db
  | .unbindDomainFromIdp user domainId => (WeftId.unbindDomainFromIdp user domainId).toProc.exec db
  | .authenticateViaSaml result => (WeftId.authenticateViaSaml env result).exec db
  | .assignUserIdp user userId samlIdpId scrub => (WeftId.assignUserIdp user userId samlIdpId scrub).exec db
  | .changePassword user currentPassword newPassword =>
    (WeftId.changePassword env user currentPassword newPassword).exec db
  | .forcePasswordReset user targetUserId => (WeftId.forcePasswordReset user targetUserId).exec db
  | .completeForcedPasswordReset userId newPassword =>
    (WeftId.completeForcedPasswordReset env userId newPassword).exec db
  | .completeSelfServicePasswordReset userId newPassword =>
    (WeftId.completeSelfServicePasswordReset env userId newPassword).exec db
  | .login session request => (WeftId.login env session request).exec db

def PassesPasswordStep (db : Db) (session : Session) (request : LoginRequest) (userId : Id) : Prop :=
  ∃ response after, (login env session request db).1 = .ok (response, after) ∧
    (response = .redirect "/mfa/verify" ∧ after.pendingMfaUserId = some userId ∨
      response = .redirect "/login/reset-password" ∧ after.pendingPasswordResetUserId = some userId)

/-- A user who passes the password step is not assigned to a SAML provider. -/
def SamlUsersRefused (db : Db) (session : Session) (request : LoginRequest) : Prop :=
  ∀ userId user, PassesPasswordStep env db session request userId → db.getUserById userId = some user →
    user.samlIdpId = none

def User.AcceptsPassword (user : User) (password : Text) : Prop :=
  ∃ hash, user.passwordHash = some hash ∧ hash ≠ [] ∧ env.verifyPassword hash password

def PasswordSignsIn (db : Db) (email password : Text) (user : User) : Prop :=
  (∃ row, db.findByEmail env email true = some (row, user)) ∧ ¬ user.isInactivated ∧
    user.AcceptsPassword env password

variable {env} {db : Db} {email password : Text} {user : User} {request : LoginRequest} {userId : Id}
  {session : Session}

theorem PasswordSignsIn.unique {user' : User} (h : PasswordSignsIn env db email password user)
    (h' : PasswordSignsIn env db email password user') : user = user' := by
  obtain ⟨⟨row, hrow⟩, -⟩ := h
  obtain ⟨⟨row', hrow'⟩, -⟩ := h'
  rw [hrow] at hrow'
  exact (Prod.mk.inj (Option.some.inj hrow')).2

theorem PasswordSignsIn.getUserById (h : PasswordSignsIn env db email password user) :
    db.getUserById user.id = some user := by
  obtain ⟨⟨row, hrow⟩, -⟩ := h
  exact Db.getUserById_of_findByEmail hrow

theorem getUserById_updateLastLogin (h : db.getUserById user.id = some user) :
    (db.updateLastLogin user.id).getUserById user.id = some { user with lastLogin := some db.now } := by
  rw [Db.updateLastLogin, Db.getUserById_updateUser, if_pos rfl, h]
  · rfl
  · exact fun _ => rfl

theorem verifyLoginWithStatus_success (h : PasswordSignsIn env db email password user) :
    verifyLoginWithStatus env email password db =
      (.ok { status := .success, user := some { user with lastLogin := some db.now } },
        db.updateLastLogin user.id) := by
  obtain ⟨⟨row, hrow⟩, hactive, hash, hhash, hne, hverify⟩ := h
  have hget := Db.getUserById_of_findByEmail hrow
  have hfound : db.getUserByEmail env email = some (user.id, some hash) := by
    rw [Db.getUserByEmail, hrow, ← hhash]
    rfl
  have hafter := getUserById_updateLastLogin hget
  simp [verifyLoginWithStatus, hfound, hverify, hget, hactive, hafter]

theorem verifyLoginWithStatus_failure (h : ∀ user, ¬ PasswordSignsIn env db email password user) :
    ∃ result, verifyLoginWithStatus env email password db = (.ok result, db) ∧ result.status ≠ .success := by
  unfold verifyLoginWithStatus
  rw [read_bind_apply]
  rcases hfound : db.getUserByEmail env email with _ | ⟨userId, _ | _ | ⟨c, cs⟩⟩
  · exact ⟨_, rfl, by simp⟩
  · exact ⟨_, rfl, by simp⟩
  · exact ⟨_, rfl, by simp⟩
  · obtain ⟨⟨row, user⟩, hrow, hpair⟩ := Option.map_eq_some_iff.mp hfound
    obtain ⟨rfl, hhash⟩ := Prod.mk.inj hpair
    have hget := Db.getUserById_of_findByEmail hrow
    by_cases hverify : env.verifyPassword (c :: cs) password = true
    · have hinactive : user.isInactivated = true := by
        by_contra hactive
        exact h user ⟨⟨row, hrow⟩, hactive, c :: cs, hhash, by simp, hverify⟩
      by_cases hdenied : user.reactivationDeniedAt.isSome = true
      · simp [hverify, hget, hinactive, hdenied]
      · by_cases hpending : user.id ∈ db.reactivationRequests <;>
          simp [hverify, hget, hinactive, hdenied, hpending]
    · simp [hverify]

theorem login_of_signsIn (session : Session) (hblocked : request.blocked = false)
    (h : PasswordSignsIn env db request.email request.password user) : login env session request db =
      (.ok (passwordStep session request { user with lastLogin := some db.now }), db.updateLastLogin user.id) := by
  rw [login, hblocked, if_neg Bool.false_ne_true, bind_apply_of_ok (verifyLoginWithStatus_success h)]
  rfl

theorem not_passesPasswordStep
    (h : request.blocked = true ∨ ∀ user, ¬ PasswordSignsIn env db request.email request.password user) :
    ¬ PassesPasswordStep env db session request userId := by
  rintro ⟨response, after, hlogin, hstep⟩
  have hpage : ∃ template error, response = .page template error := by
    by_cases hblocked : request.blocked = true
    · rw [login, if_pos hblocked] at hlogin
      obtain ⟨rfl, -⟩ := Prod.mk.inj (Except.ok.inj hlogin)
      exact ⟨_, _, rfl⟩
    · obtain ⟨result, hverify, hstatus⟩ := verifyLoginWithStatus_failure (h.resolve_left hblocked)
      rw [login, if_neg hblocked, bind_apply_of_ok hverify] at hlogin
      obtain ⟨status, user, canRequest⟩ := result
      cases status with
      | success => exact absurd rfl hstatus
      | invalidCredentials | inactivated | pending | denied =>
        obtain ⟨rfl, -⟩ := Prod.mk.inj (Except.ok.inj hlogin)
        exact ⟨_, _, rfl⟩
  obtain ⟨template, error, rfl⟩ := hpage
  rcases hstep with ⟨hredirect, -⟩ | ⟨hredirect, -⟩ <;> cases hredirect

theorem passesPasswordStep_of_signsIn (session : Session)
    (hblocked : request.blocked = false) (h : PasswordSignsIn env db request.email request.password user) :
    PassesPasswordStep env db session request userId ↔ user.id = userId := by
  have hlogin := congrArg Prod.fst (login_of_signsIn session hblocked h)
  unfold PassesPasswordStep
  rw [hlogin]
  by_cases hreset : user.passwordResetRequired = true <;> simp [passwordStep, hreset]

theorem passesPasswordStep_iff : PassesPasswordStep env db session request userId ↔ request.blocked = false ∧
      ∃ user, PasswordSignsIn env db request.email request.password user ∧ user.id = userId := by
  by_cases hblocked : request.blocked = true
  · simp [hblocked, not_passesPasswordStep (.inl hblocked)]
  · rw [Bool.not_eq_true] at hblocked
    by_cases hsigns : ∃ user, PasswordSignsIn env db request.email request.password user
    · obtain ⟨user, huser⟩ := hsigns
      rw [passesPasswordStep_of_signsIn session hblocked huser]
      refine ⟨fun hid => ⟨hblocked, user, huser, hid⟩, ?_⟩
      rintro ⟨-, user', huser', hid⟩
      rw [huser.unique huser', hid]
    · have hnone := not_exists.mp hsigns
      simp only [not_passesPasswordStep (.inr hnone), false_iff]
      rintro ⟨-, user, huser, -⟩
      exact hnone user huser

variable (env) in
/-- A login with a kept password: the active account at the verified address is assigned to a provider
and its stored hash accepts the given password. -/
def KeptPasswordLogin (db : Db) (request : LoginRequest) : Prop :=
  request.blocked = false ∧
    ∃ user, PasswordSignsIn env db request.email request.password user ∧ user.samlIdpId.isSome

/-- In every state, whatever calls have led to it, users assigned to a provider are kept out of the password step
of a login exactly when it does not use the kept password of an active, assigned account. -/
theorem saml_users_refused_iff (env : Env) (db : Db) (session : Session) (request : LoginRequest) :
    SamlUsersRefused env db session request ↔ ¬ KeptPasswordLogin env db request := by
  constructor
  · rintro hrefused ⟨hblocked, user, hsigns, hsaml⟩
    have hpass := (passesPasswordStep_of_signsIn session hblocked hsigns).mpr rfl
    rw [hrefused user.id user hpass hsigns.getUserById] at hsaml
    cases hsaml
  · intro hkept userId found hpass hfound
    obtain ⟨hblocked, user, hsigns, rfl⟩ := passesPasswordStep_iff.mp hpass
    rw [hsigns.getUserById] at hfound
    obtain rfl := Option.some.inj hfound
    by_contra hsaml
    exact hkept ⟨hblocked, user, hsigns, Option.ne_none_iff_isSome.mp hsaml⟩

/-- Okta with the domain example.com, a super admin, and Ada with a verified address and a password. -/
def passwordTenant : Db where
  nextId := 10
  users := [{ id := 1, role := .superAdmin },
    { id := 2, passwordHash := some (Env.ascii.hashPassword "secret") }]
  userEmails := [{ id := 3, userId := 2, email := "ada@example.com", isPrimary := true, verifiedAt := some 0 }]
  identityProviders := [{ id := 4, name := "Okta" }]
  privilegedDomains := [{ id := 5, domain := "example.com" }]

def adaLogin : LoginRequest where
  email := "ada@example.com"
  password := "secret"

/-- Binding the domain assigns Ada to Okta; the kept password then still passes the password step. -/
theorem kept_password_signs_in :
    let db := run (SignInCall.exec Env.ascii) passwordTenant [.bindDomainToIdp ⟨1, .superAdmin⟩ 4 5]
    (db.getUserById 2).bind (·.samlIdpId) = some 4 ∧ PassesPasswordStep Env.ascii db {} adaLogin 2 ∧
      ¬ SamlUsersRefused Env.ascii db {} adaLogin := by
  intro db
  have hassigned : (db.getUserById 2).bind (·.samlIdpId) = some 4 := by decide
  have hpass : PassesPasswordStep Env.ascii db {} adaLogin 2 :=
    ⟨.redirect "/mfa/verify", { pendingMfaUserId := some 2, pendingMfaMethod := some .email }, by rfl, .inl ⟨rfl, rfl⟩⟩
  refine ⟨hassigned, hpass, fun hall => ?_⟩
  obtain ⟨ada, hada, hokta⟩ := Option.bind_eq_some_iff.mp hassigned
  rw [hall 2 ada hpass hada] at hokta
  cases hokta

end WeftId
