import WeftId.Auth.Enrollment

/-!
The enhanced policy over interleaved requests.  Every request that completes a sign-in has itself verified a
strong factor, except for the enrolment page, which infers from the method it read that none is needed.
-/

namespace WeftId

open List Proc Run Endpoint Fiber

/-- The enhanced policy is in force, and exactly the `known` users exist. -/
structure EnhancedFor (known : Id → Prop) (db : Db) : Prop where
  policy : db.getRequiredAuthStrength = .enhanced
  users : ∀ userId, (db.getUserById userId).isSome ↔ known userId

variable {userId targetUserId : Id} {user : User} {code : Text}

namespace EnhancedFor

variable {known : Id → Prop} {db db' : Db}

theorem frame (h : EnhancedFor known db) (hsettings : db'.securitySettings = db.securitySettings)
    (husers : db'.users = db.users) : EnhancedFor known db' where
  policy := by
    rw [Db.getRequiredAuthStrength, hsettings]
    exact h.policy
  users := by
    intro userId
    rw [Db.getUserById, husers]
    exact h.users userId

theorem updateUser (h : EnhancedFor known db) {target : Id} {f : User → User} (hf : ∀ u, (f u).id = u.id) :
    EnhancedFor known (db.updateUser target f) where
  policy := h.policy
  users := by
    intro userId
    rw [Db.isSome_getUserById_updateUser hf]
    exact h.users userId

theorem exists_user (h : EnhancedFor known db) (hknown : known userId) : ∃ user, db.getUserById userId = some user := by
  have hsome := (h.users userId).mpr hknown
  exact Option.isSome_iff_exists.mp hsome

theorem known_of_some (h : EnhancedFor known db) (huser : db.getUserById userId = some user) : known userId := by
  have hsome : (db.getUserById userId).isSome = true := by rw [huser, Option.isSome_some]
  exact (h.users userId).mp hsome

end EnhancedFor

section Services

variable {known : Id → Prop} {C : Site → Db → Prop} {α β : Type} (env : Env) {x : Endpoint α} {g : Unit → Endpoint β}
  {service : Service α}

def Endpoint.Keeps (known : Id → Prop) (C : Site → Db → Prop) (x : Endpoint α) : Prop :=
  x.Ensures (EnhancedFor known) C fun _ => True

theorem keeps_query {f : Db → α} : (query f).Keeps known C :=
  ensures_atomic (fun _ hdb _ => hdb) fun _ _ _ _ _ => trivial

theorem keeps_call (h : service.Within (Preserves (EnhancedFor known))) : (call service).Keeps known C :=
  ensures_atomic (fun db hdb _ => h db hdb) fun _ _ _ _ _ => trivial

theorem Endpoint.Keeps.bind {f : α → Endpoint β} (hx : x.Keeps known C) (hf : ∀ a, (f a).Keeps known C) :
    (x >>= f).Keeps known C :=
  Ensures.bind hx fun a _ => hf a

theorem Endpoint.Keeps.query {f : Db → α} {g : α → Endpoint β} (hg : ∀ a, (g a).Keeps known C) :
    (query f >>= g).Keeps known C := keeps_query.bind hg

theorem Endpoint.Keeps.execute {f : Db → Db}
    (hf : ∀ db, EnhancedFor known db → EnhancedFor known (f db)) (hg : (g ()).Keeps known C) :
    (execute f >>= g).Keeps known C := by
  have hexecute : (Endpoint.execute f).Keeps known C :=
    ensures_atomic (fun db hdb _ => hf db hdb) fun _ _ _ _ _ => trivial
  exact hexecute.bind fun _ => hg

theorem Endpoint.Keeps.call {g : α → Endpoint β}
    (h : service.Within (Preserves (EnhancedFor known))) (hg : ∀ a, (g a).Keeps known C) :
    (call service >>= g).Keeps known C := (keeps_call h).bind hg

theorem keeps_pure {a : α} : (pure a : Endpoint α).Keeps known C := trivial

theorem Endpoint.Keeps.require {c : Prop} [Decidable c] {e : Error}
    (hg : (g ()).Keeps known C) : Endpoint.Keeps known C (Fiber.require c e >>= g) :=
  Ensures.bind ensures_require fun _ _ => hg

theorem keeps_map (hx : x.Keeps known C) {f : α → β} : (f <$> x).Keeps known C :=
  Ensures.bind hx fun _ _ => trivial

theorem within_draw {f : Id → Text} : (draw f).Within (Preserves (EnhancedFor known)) :=
  fun _ hdb => hdb.frame rfl rfl

theorem within_createTotpSecret {secret : Text} :
    (tx (·.createTotpSecret userId secret)).Within (Preserves (EnhancedFor known)) := by
  refine within_tx fun db a db' hcreate hdb => ?_
  unfold Db.createTotpSecret at hcreate
  split_ifs at hcreate
  obtain rfl := Except.ok_snd hcreate
  exact hdb.frame rfl rfl

theorem within_createBackupCode {codeHash : Text} :
    (tx (·.createBackupCode userId codeHash)).Within (Preserves (EnhancedFor known)) := by
  refine within_tx fun db a db' hcreate hdb => ?_
  unfold Db.createBackupCode at hcreate
  split_ifs at hcreate
  obtain rfl := Except.ok_snd hcreate
  exact hdb.frame rfl rfl

theorem within_createCredential {verified : VerifiedRegistration} {name : Text} :
    (tx (·.createCredential userId verified name)).Within (Preserves (EnhancedFor known)) := by
  refine within_tx fun db a db' hcreate hdb => ?_
  unfold Db.createCredential at hcreate
  split_ifs at hcreate
  obtain rfl := Except.ok_snd hcreate
  exact hdb.frame rfl rfl

theorem within_matchesAny {codes : List Text} :
    (matchesAny code codes).Within (Preserves (EnhancedFor known)) := by
  induction codes with
  | nil => exact within_pure false
  | cons expected rest ih =>
    refine within_bind (.require fun _ => within_pure _) fun same => ?_
    split_ifs
    · exact within_pure true
    · exact ih

theorem keeps_verifyEmailOtp : (verifyEmailOtp env userId code).Keeps known C := by
  refine keeps_call ?_
  unfold verifyCode
  split_ifs
  · exact within_pure true
  · exact .read fun _ => within_matchesAny

theorem keeps_verifyBackupCode : (verifyBackupCode env userId code).Keeps known C := by
  refine Keeps.query fun row => ?_
  cases row with
  | none => exact keeps_pure
  | some row => exact Keeps.execute (fun _ hdb => hdb.frame rfl rfl) keeps_pure

theorem keeps_forEach {f : α → Endpoint Unit} (hf : ∀ a, (f a).Keeps known C) {as : List α} :
    Endpoint.Keeps known C (Fiber.forEach as f) := by
  induction as with
  | nil => exact keeps_pure
  | cons a as ih => exact (hf a).bind fun _ => ih

theorem keeps_collect {xs : List (Endpoint α)} (hxs : ∀ x ∈ xs, x.Keeps known C) :
    Endpoint.Keeps known C (Fiber.collect xs) := by
  induction xs with
  | nil => exact keeps_pure
  | cons x xs ih =>
    have hx := hxs x mem_cons_self
    have hrest := ih fun y hy => hxs y (mem_cons_of_mem x hy)
    exact hx.bind fun _ => hrest.bind fun _ => keeps_pure

theorem keeps_generateAndStoreBackupCodes : (generateAndStoreBackupCodes env userId).Keeps known C := by
  refine Keeps.execute (fun _ hdb => hdb.frame rfl rfl) ?_
  refine (keeps_collect fun x hx => ?_).bind fun codes => ?_
  · obtain ⟨-, rfl⟩ := mem_replicate.mp hx
    exact keeps_call within_draw
  · exact (keeps_forEach (fun code => keeps_call within_createBackupCode)).bind fun _ => keeps_pure

theorem keeps_setupTotp : (setupTotp env user).Keeps known C := by
  refine Keeps.require ?_
  refine Keeps.call within_draw fun secret => ?_
  refine Keeps.query fun email => ?_
  exact (keeps_call within_createTotpSecret).bind fun _ => keeps_pure

theorem keeps_getPendingTotpSetup : (getPendingTotpSetup env userId).Keeps known C := by
  have hread : Endpoint.Keeps known C (atomic (.pendingTotpSetup userId) (read (·.getTotpSecret userId))) :=
    ensures_atomic (fun _ hdb _ => hdb) fun _ _ _ _ _ => trivial
  refine hread.bind fun row => ?_
  cases row with
  | none => exact keeps_pure
  | some secret => exact keeps_query.bind fun _ => keeps_pure

theorem keeps_verifyTotpAndEnable : (verifyTotpAndEnable env user code).Keeps known C := by
  refine Keeps.query fun row => ?_
  cases row with
  | none => trivial
  | some secret =>
    refine Keeps.query fun valid => ?_
    refine Keeps.require ?_
    refine Keeps.execute (fun _ hdb => hdb.frame rfl rfl) ?_
    refine Keeps.execute (fun _ hdb => hdb.updateUser fun _ => rfl) ?_
    exact keeps_generateAndStoreBackupCodes env

theorem keeps_buildMfaStatus (user : User) : (buildMfaStatus user).Keeps known C :=
  keeps_query.bind fun _ => keeps_pure

theorem keeps_getRefreshedUser : (getRefreshedUser userId).Keeps known C :=
  keeps_call within_orRaise

theorem keeps_enableEmailMfa : (enableEmailMfa env user).Keeps known C := by
  refine ensures_ite (fun _ => ?_) fun _ => ?_
  · exact (keeps_call within_orRaise).bind fun _ => keeps_query.bind fun _ => keeps_pure
  · refine Keeps.execute (fun _ hdb => hdb.updateUser fun _ => rfl) ?_
    exact keeps_getRefreshedUser.bind fun updated => keeps_map (keeps_buildMfaStatus updated)

theorem keeps_verifyMfaDowngrade : (verifyMfaDowngrade env user code).Keeps known C := by
  refine Keeps.require ?_
  refine (keeps_verifyEmailOtp env).bind fun valid => ?_
  refine Keeps.require ?_
  refine Keeps.execute (fun _ hdb => hdb.updateUser fun _ => rfl) ?_
  refine Keeps.execute (fun _ hdb => hdb.frame rfl rfl) ?_
  exact keeps_getRefreshedUser.bind keeps_buildMfaStatus

theorem keeps_resetUserMfa {requestingUser : RequestingUser} :
    (resetUserMfa requestingUser targetUserId).Keeps known C := by
  refine Keeps.call within_require fun _ => ?_
  refine Keeps.call within_orRaise fun _ => ?_
  refine Keeps.execute (fun _ hdb => hdb.updateUser fun _ => rfl) ?_
  refine Keeps.execute (fun _ hdb => hdb.frame rfl rfl) ?_
  refine Keeps.execute (fun _ hdb => hdb.frame rfl rfl) ?_
  exact keeps_getRefreshedUser.bind keeps_buildMfaStatus

end Services

section Requests

variable {known : Id → Prop} {C : Site → Db → Prop} {env : Env} {session : Session} {α : Type} {x : Endpoint α}
  {blocked : Bool}
  {request : LoginRequest}

def Session.Known (known : Id → Prop) (session : Session) : Prop :=
  ∀ userId, session.pendingMfaUserId = some userId → known userId

structure Outcome.Sound (known : Id → Prop) (outcome : Outcome) : Prop where
  strong : ∀ userId, outcome.completed = some userId → outcome.passwordStep = none ∧
    ∃ factor, factor ≠ .email ∧ outcome.verified = some (userId, factor)
  session : outcome.session.Known known

def Endpoint.Sound (known : Id → Prop) (C : Site → Db → Prop) (x : Endpoint Outcome) : Prop :=
  x.Ensures (EnhancedFor known) C (Outcome.Sound known)

theorem Session.Known.empty : Session.Known known {} := nofun

theorem sound_pure {outcome : Outcome} (hcompleted : outcome.completed = none) (hs : outcome.session.Known known) :
    (pure outcome : Endpoint Outcome).Sound known C := by
  refine ⟨fun userId hsome => ?_, hs⟩
  rw [hcompleted] at hsome
  cases hsome

theorem Endpoint.Keeps.sound {f : α → Endpoint Outcome} (hx : x.Keeps known C)
    (hf : ∀ a, (f a).Sound known C) : (x >>= f).Sound known C :=
  Ensures.bind hx fun a _ => hf a

theorem sound_completeLogin {factor : Factor} (hfactor : factor ≠ .email) {timezone locale : Text} :
    (completeLogin session userId (some (userId, factor)) timezone locale).Sound known C := by
  refine Ensures.bind (Q := fun result => result.2.pendingMfaUserId = none) ?_ ?_
  · refine ensures_atomic (fun db hdb _ => ?_) fun db result _ _ hresult => ?_
    · apply EnhancedFor.updateUser
      · apply EnhancedFor.updateUser
        · exact hdb.frame rfl rfl
        · exact fun _ => rfl
      · exact fun _ => rfl
    · obtain rfl := Except.ok.inj hresult
      rfl
  · rintro ⟨response, after⟩ hafter
    refine ⟨fun u hu => ⟨rfl, factor, hfactor, ?_⟩, fun u hu => ?_⟩
    · rw [Option.some.inj hu]
    · rw [hafter] at hu
      cases hu

theorem login_known (hs : session.Known known) {db : Db} (hdb : EnhancedFor known db) :
    EnhancedFor known ((login env session request).exec db) ∧
      ∀ response after, (login env session request db).1 = .ok (response, after) → after.Known known := by
  by_cases hblocked : request.blocked = true
  · have hlogin : login env session request db =
        (.ok (.page "login.html" (some "Too many sign-in attempts. Please try again later."), session), db) := by
      rw [login, if_pos hblocked]
      rfl
    refine ⟨by rw [exec, hlogin]; exact hdb, fun response after hafter => ?_⟩
    rw [hlogin] at hafter
    obtain rfl := Except.ok_snd hafter
    exact hs
  by_cases hsigns : ∃ user, PasswordSignsIn env db request.email request.password user
  · obtain ⟨user, huser⟩ := hsigns
    have hlogin := login_of_signsIn session (Bool.not_eq_true _ ▸ hblocked) huser
    refine ⟨by rw [exec, hlogin]; exact hdb.updateUser fun _ => rfl, fun response after hafter => ?_⟩
    rw [hlogin] at hafter
    have hsession : _ = after := congrArg Prod.snd (Except.ok.inj hafter)
    intro userId hpending
    rw [← hsession, passwordStep] at hpending
    split at hpending
    · exact hs userId hpending
    · obtain rfl := Option.some.inj hpending
      exact hdb.known_of_some huser.getUserById
  · obtain ⟨result, hverify, hstatus⟩ := verifyLoginWithStatus_failure (not_exists.mp hsigns)
    obtain ⟨status, user, canRequest⟩ := result
    have hlogin : ∃ response, login env session request db = (.ok (response, session), db) := by
      rw [login, if_neg hblocked, bind_apply_of_ok hverify]
      cases status with
      | success => exact absurd rfl hstatus
      | invalidCredentials | inactivated | pending | denied => exact ⟨_, rfl⟩
    obtain ⟨page, hlogin⟩ := hlogin
    refine ⟨by rw [exec, hlogin]; exact hdb, fun response after hafter => ?_⟩
    rw [hlogin] at hafter
    obtain rfl := Except.ok_snd hafter
    exact hs

theorem sound_signIn (hs : session.Known known) : (signIn env session request).Sound known C := by
  refine Ensures.bind (Q := fun result => result.2.Known known) ?_ ?_
  · refine ensures_atomic (fun db hdb _ => (login_known hs hdb).1) fun db result hdb _ hresult => ?_
    exact (login_known hs hdb).2 result.1 result.2 hresult
  · rintro ⟨response, after⟩ hafter
    exact sound_pure rfl hafter

theorem keeps_verifySecondFactor {pendingMethod : Option MfaMethod} :
    (verifySecondFactor env userId pendingMethod code).Keeps known C := by
  have htotp : (verifyPrimaryTotp env userId pendingMethod code).Keeps known C := by
    refine ensures_ite (fun _ => ?_) fun _ => trivial
    refine Keeps.query fun secret => ?_
    rcases secret with _ | _ | ⟨c, cs⟩
    · exact keeps_pure
    · exact keeps_pure
    · exact keeps_query
  refine htotp.bind fun byTotp => ensures_ite (fun _ => trivial) fun _ => ?_
  refine (keeps_verifyEmailOtp env).bind fun byEmail => ensures_ite (fun _ => trivial) fun _ => ?_
  exact (keeps_verifyBackupCode env).bind fun _ => keeps_pure

theorem ensures_userMustEnrollEnhanced {factor : Factor} :
    (userMustEnrollEnhanced user (some factor)).Ensures (EnhancedFor known) C fun enroll =>
      enroll = false → factor ≠ .email := by
  refine Ensures.bind (Q := fun policy => policy = .enhanced) ?_ ?_
  · refine Ensures.mono ensures_read ?_
    rintro policy ⟨db, hdb, -, rfl⟩
    exact hdb.policy
  · rintro policy rfl
    refine ensures_ite (fun hne => absurd rfl hne) fun _ => ?_
    refine ensures_ite (fun _ => ?_) fun hemail => ?_
    · exact fun hfalse => nomatch hfalse
    · have hfactor : factor ≠ .email := fun heq => hemail (congrArg some heq)
      refine ensures_ite (fun _ _ => hfactor) fun _ => ?_
      exact Ensures.bind keeps_query fun _ _ _ => hfactor

theorem sound_mfaVerify (hs : session.Known known) {request : VerifyRequest} :
    (mfaVerify env session request).Sound known C := by
  unfold mfaVerify
  cases hpending : session.pendingMfaUserId with
  | none => exact sound_pure rfl hs
  | some userId =>
    refine ensures_ite (fun _ => sound_pure rfl hs) fun _ => ?_
    refine keeps_verifySecondFactor.sound fun verifiedVia => ?_
    cases verifiedVia with
    | none => exact sound_pure rfl hs
    | some factor =>
      refine Ensures.bind (Q := fun user => ∃ u, user = some u) ?_ ?_
      · refine Ensures.mono ensures_read ?_
        rintro user ⟨db, hdb, -, rfl⟩
        exact hdb.exists_user (hs userId hpending)
      · rintro user ⟨user, rfl⟩
        refine Ensures.bind ensures_userMustEnrollEnhanced fun enroll henroll => ?_
        refine ensures_ite (fun _ => ?_) fun hfalse => ?_
        · exact sound_pure rfl fun u hu => hs u (hpending.trans hu)
        · exact sound_completeLogin (henroll (Bool.not_eq_true _ ▸ hfalse))

theorem keeps_rescue {handler : Error → Endpoint α} (hx : x.Keeps known C)
    (hh : ∀ e, (handler e).Keeps known C) : Endpoint.Keeps known C (Fiber.rescue x handler) :=
  Ensures.rescue hx hh

theorem keeps_catchServiceError (hx : x.Keeps known C) : (catchServiceError x).Keeps known C := by
  refine keeps_rescue (keeps_map hx) fun e => ?_
  cases e.serviceCode with
  | none => trivial
  | some code => exact keeps_pure

theorem keeps_catchValidationError (hx : x.Keeps known C) : (catchValidationError x).Keeps known C :=
  keeps_rescue (keeps_map hx) fun _ => ensures_ite (fun _ => trivial) fun _ => trivial

theorem sound_enrollEnhancedAuthPage (hs : session.Known known) {error : Option String}
    (hC : ∀ userId db, C (.pendingTotpSetup userId) db → (db.getTotpSecret userId).isSome) :
    (enrollEnhancedAuthPage env session error).Sound known C := by
  unfold enrollEnhancedAuthPage
  cases session.pendingEnhancedEnrollmentUserId with
  | none => exact sound_pure rfl hs
  | some userId =>
    refine keeps_query.sound fun user => ?_
    cases user with
    | none => exact sound_pure rfl hs
    | some user =>
      have hsetup : Ensures (EnhancedFor known) C (fun setup => setup.isSome)
          (some <$> setupTotp env user : Endpoint (Option TotpSetup)) :=
        Fiber.Ensures.bind (keeps_setupTotp env) fun _ _ => rfl
      have hpending : Fiber.Ensures (EnhancedFor known) C (fun setup => setup.isSome)
          (getPendingTotpSetup env userId) := by
        refine Fiber.Ensures.bind ensures_read ?_
        rintro row ⟨db, -, hfound, rfl⟩
        obtain ⟨secret, hsecret⟩ := Option.isSome_iff_exists.mp (hC userId db hfound)
        rw [hsecret]
        exact Ensures.bind keeps_query fun _ _ => rfl
      refine Ensures.bind (Ensures.rescue hsetup fun e => ?_) fun setup hsome => ?_
      · exact ensures_ite (fun _ => hpending) fun _ => trivial
      · obtain ⟨setup, rfl⟩ := Option.isSome_iff_exists.mp hsome
        exact sound_pure rfl hs

theorem sound_enrollEnhancedAuthVerify (hs : session.Known known) :
    (enrollEnhancedAuthVerify env session code blocked).Sound known C := by
  unfold enrollEnhancedAuthVerify
  cases session.pendingEnhancedEnrollmentUserId with
  | none => exact sound_pure rfl hs
  | some userId =>
    refine ensures_ite (fun _ => sound_pure rfl hs) fun _ => ?_
    refine keeps_query.sound fun user => ?_
    cases user with
    | none => exact sound_pure rfl hs
    | some user =>
      refine (keeps_catchValidationError (keeps_verifyTotpAndEnable env)).sound fun enabled => ?_
      cases enabled with
      | none => exact sound_pure rfl hs
      | some codes => exact sound_completeLogin (by decide)

theorem ensures_resolvePendingUser (hs : session.Known known) :
    (resolvePendingUser session).Ensures (EnhancedFor known) C fun result => result.2.Known known := by
  unfold resolvePendingUser
  cases session.pendingEnhancedEnrollmentUserId with
  | none => exact hs
  | some userId =>
    refine Ensures.bind keeps_query fun user _ => ?_
    cases user with
    | none => exact hs
    | some user => exact hs

theorem ensures_beginRegistration (hs : session.Known known) :
    (beginRegistration env session userId).Ensures (EnhancedFor known) C fun result => result.2.Known known := by
  refine Fiber.Ensures.bind (keeps_call within_orRaise) fun user _ => ?_
  refine Fiber.Ensures.bind keeps_query fun primary _ => ?_
  refine Ensures.bind keeps_query fun existing _ => ?_
  refine Ensures.bind (keeps_call within_draw) fun challenge _ => ?_
  exact Ensures.bind keeps_query fun time _ => hs

theorem sound_enrollEnhancedAuthPasskeyBegin (hs : session.Known known) :
    (enrollEnhancedAuthPasskeyBegin env session blocked).Sound known C := by
  refine Ensures.bind (ensures_resolvePendingUser hs) ?_
  rintro ⟨user, session⟩ hs
  cases user with
  | none => exact sound_pure rfl hs
  | some user =>
    refine ensures_ite (fun _ => sound_pure rfl hs) fun _ => ?_
    have hbegin : (catchServiceError (beginRegistration env session user.id)).Ensures (EnhancedFor known) C
        fun result => ∀ options after, result = .ok (options, after) → after.Known known := by
      refine Ensures.rescue (Ensures.bind (ensures_beginRegistration hs) ?_) fun e => ?_
      · rintro ⟨options, after⟩ hafter options' after' hresult
        obtain rfl := Except.ok_snd hresult
        exact hafter
      · cases e.serviceCode with
        | none => trivial
        | some code => exact fun options after hresult => nomatch hresult
    refine Ensures.bind hbegin fun result hresult => ?_
    rcases result with code | ⟨options, after⟩
    · exact sound_pure rfl hs
    · exact sound_pure rfl (hresult options after rfl)

theorem keeps_completeRegistration {payload : RegistrationPayload} :
    (completeRegistration env session userId payload).Keeps known C := by
  unfold completeRegistration
  split
  · trivial
  · trivial
  · trivial
  · trivial
  · refine Keeps.query fun time => ?_
    refine Keeps.require ?_
    cases env.verifyRegistration payload.response _ with
    | error reason => trivial
    | ok =>
      refine Keeps.query fun existingCount => ?_
      refine Keeps.call within_createCredential fun _ => ?_
      refine ensures_ite (fun _ => ?_) fun _ => trivial
      refine Keeps.query fun existingCodes => ensures_ite (fun _ => ?_) fun _ => trivial
      exact keeps_map (keeps_generateAndStoreBackupCodes env)

theorem sound_enrollEnhancedAuthPasskeyComplete (hs : session.Known known) {body : RegistrationBody} :
    (enrollEnhancedAuthPasskeyComplete env session body blocked).Sound known C := by
  refine Ensures.bind (ensures_resolvePendingUser hs) ?_
  rintro ⟨user, session⟩ hs
  cases user with
  | none => exact sound_pure rfl hs
  | some user =>
    refine ensures_ite (fun _ => sound_pure rfl hs) fun _ => ?_
    cases body with
    | invalidJson => exact sound_pure rfl hs
    | invalidPayload => exact sound_pure rfl hs
    | payload =>
      refine (keeps_catchServiceError keeps_completeRegistration).sound fun result => ?_
      cases result with
      | error code => exact sound_pure rfl hs
      | ok =>
        have hpasskey : Factor.passkey ≠ .email := by decide
        refine Ensures.bind (sound_completeLogin hpasskey) fun outcome houtcome => ?_
        exact ⟨houtcome.strong, houtcome.session⟩

theorem sound_withCurrentUser (hs : session.Known known) {page : User → Session → Endpoint Outcome}
    (hpage : ∀ user session, session.Known known → (page user session).Sound known C) :
    (withCurrentUser session page).Sound known C := by
  refine Ensures.bind (Q := fun result => result.2.Known known) ?_ ?_
  · refine ensures_atomic (fun db hdb _ => ?_) fun db result hdb _ hresult => ?_
    · obtain ⟨user, after, nextId, hcall, -⟩ := getCurrentUser_apply
      rw [exec, hcall]
      exact hdb.frame rfl rfl
    · obtain ⟨user, after, nextId, hcall, -, hafter, -⟩ := getCurrentUser_apply
      rw [hcall] at hresult
      obtain rfl := Except.ok.inj hresult
      rcases hafter with rfl | rfl | ⟨-, rfl, -⟩
      · exact hs
      · exact .empty
      · exact hs
  · rintro ⟨user, after⟩ hafter
    cases user with
    | none => exact sound_pure rfl hafter
    | some user => exact hpage user after hafter

theorem sound_mfaSetupTotp (hs : session.Known known) : (mfaSetupTotp env user session).Sound known C := by
  refine (keeps_catchValidationError (keeps_setupTotp env)).sound fun setup => ?_
  cases setup with
  | none => exact sound_pure rfl hs
  | some setup => exact sound_pure rfl hs

theorem sound_mfaSetupEmail (hs : session.Known known) : (mfaSetupEmail env user session).Sound known C := by
  refine (keeps_enableEmailMfa env).sound fun result => ?_
  cases result with
  | inl status => exact sound_pure rfl hs
  | inr => exact sound_pure rfl hs

theorem sound_mfaSetupVerify (hs : session.Known known) {method : Text} :
    (mfaSetupVerify env user session code method).Sound known C := by
  refine ensures_ite (fun _ => sound_pure rfl hs) fun _ => ?_
  refine Keeps.sound (keeps_rescue (keeps_map (keeps_verifyTotpAndEnable env)) fun e => ?_) fun result => ?_
  · split
    · exact keeps_map (keeps_getPendingTotpSetup env)
    · exact keeps_pure
    · trivial
  · rcases result with _ | _
    · split
      · exact sound_pure rfl hs
      · exact sound_pure rfl hs
      · exact sound_pure rfl hs
    · exact sound_pure rfl hs

theorem sound_mfaDowngradeVerify (hs : session.Known known) :
    (mfaDowngradeVerify env user session code).Sound known C := by
  refine ensures_ite (fun _ => sound_pure rfl hs) fun _ => ?_
  refine Keeps.sound (keeps_rescue (keeps_map (keeps_verifyMfaDowngrade env)) fun e => ?_) fun result => ?_
  · split
    · exact keeps_pure
    · trivial
  · split
    · exact sound_pure rfl hs
    · exact sound_pure rfl hs
    · exact sound_pure rfl hs

theorem sound_resetMfa (hs : session.Known known) : (resetMfa user session targetUserId).Sound known C := by
  refine ensures_ite (fun _ => sound_pure rfl hs) fun _ => ?_
  refine Keeps.sound (keeps_rescue (keeps_resetUserMfa.bind fun _ => keeps_pure) fun e => ?_)
    fun response => sound_pure rfl hs
  cases e with
  | notFound | validation | forbidden | conflict => exact keeps_pure
  | scim | database | exception => trivial

/-- The condition under which a statement of a request may run: the enrolment page finds the TOTP secret that
it looks for. -/
def SecretFound (request : HttpRequest) (site : Site) (db : Db) : Prop :=
  match request, site with
  | .enrollEnhancedAuthPage _, .pendingTotpSetup userId => (db.getTotpSecret userId).isSome
  | _, _ => True

instance (request : HttpRequest) (site : Site) (db : Db) : Decidable (SecretFound request site db) := by
  unfold SecretFound
  split <;> infer_instance

theorem sound_handle (hs : session.Known known) {request : HttpRequest} :
    (handle env session request).Sound known (SecretFound request) := by
  cases request with
  | login => exact sound_signIn hs
  | mfaVerify => exact sound_mfaVerify hs
  | enrollEnhancedAuthPage error => exact sound_enrollEnhancedAuthPage hs fun userId db hfound => hfound
  | enrollEnhancedAuthVerify => exact sound_enrollEnhancedAuthVerify hs
  | enrollEnhancedAuthPasskeyBegin => exact sound_enrollEnhancedAuthPasskeyBegin hs
  | enrollEnhancedAuthPasskeyComplete => exact sound_enrollEnhancedAuthPasskeyComplete hs
  | mfaSetupTotp => exact sound_withCurrentUser hs fun user _ hs => sound_mfaSetupTotp hs
  | mfaSetupEmail => exact sound_withCurrentUser hs fun user _ hs => sound_mfaSetupEmail hs
  | mfaSetupVerify => exact sound_withCurrentUser hs fun user _ hs => sound_mfaSetupVerify hs
  | mfaDowngradeVerify code => exact sound_withCurrentUser hs fun user _ hs => sound_mfaDowngradeVerify hs
  | resetMfa => exact sound_withCurrentUser hs fun user _ hs => sound_resetMfa hs

end Requests

/-- A browser session: the content of its cookie, and what the requests behind the cookie did since the password
step. -/
structure BrowserSession where
  session : Session := {}
  /-- The user of the password step that the session came through. -/
  passwordStep : Option Id := none
  verified : List (Id × Factor) := []

def BrowserSession.after (browser : BrowserSession) (outcome : Outcome) : BrowserSession where
  session := outcome.session
  passwordStep := outcome.passwordStep.or browser.passwordStep
  verified := if outcome.passwordStep.isSome then [] else outcome.verified.toList ++ browser.verified

abbrev Server := Pool Site Db Error Outcome (BrowserSession × HttpRequest)

namespace Server

def answer : (BrowserSession × HttpRequest) × Except Error Outcome → Option (BrowserSession × Outcome)
  | ((browser, _), .ok outcome) => some (browser.after outcome, outcome)
  | (_, .error _) => none

def idle (db : Db) : Server where
  store := db

def cookies (w : Server) : List BrowserSession := {} :: (w.finished.filterMap answer).map (·.1)

def signIns (w : Server) : List (Id × BrowserSession) :=
  (w.finished.filterMap answer).filterMap fun (browser, outcome) => outcome.completed.map (·, browser)

end Server

/-- A request comes in with a cookie that was handed out before, a request in flight runs its next statement, or
time passes. -/
inductive ServerEvent
  | request (cookie : Nat) (request : HttpRequest)
  | advance (i : Nat)
  | wait (micros : Nat)

namespace Server

variable (env : Env)

def receive (w : Server) (cookie : Nat) (request : HttpRequest) : Server :=
  match w.cookies[cookie]? with
  | none => w
  | some browser => w.start (browser, request) (handle env browser.session request)

def step (w : Server) : ServerEvent → Server
  | .request cookie request => w.receive env cookie request
  | .advance i => w.advance i
  | .wait micros => { w with store := { w.store with now := w.store.now + micros } }

/-- When the enrolment page looks for the TOTP secret of a user it read as being on TOTP, the secret is there. -/
def SecretStillThere (w : Server) : ServerEvent → Prop
  | .advance i => w.StepMeets (fun entry => SecretFound entry.2) i
  | _ => True

instance (w : Server) (event : ServerEvent) : Decidable (w.SecretStillThere event) := by
  cases event <;> unfold Server.SecretStillThere <;> infer_instance

variable {env} {known : Id → Prop} {w : Server} {browser : BrowserSession}

theorem mem_cookies (h : browser ∈ w.cookies) : browser = {} ∨
    ∃ before request outcome, ((before, request), .ok outcome) ∈ w.finished ∧ browser = before.after outcome := by
  rcases mem_cons.mp h with hnew | hmem
  · exact .inl hnew
  · obtain ⟨⟨after, outcome⟩, hanswer, rfl⟩ := mem_map.mp hmem
    obtain ⟨⟨⟨before, request⟩, result⟩, hfinished, hsome⟩ := mem_filterMap.mp hanswer
    cases result with
    | error e => cases hsome
    | ok outcome' =>
      obtain ⟨rfl, rfl⟩ := Prod.mk.inj (Option.some.inj hsome)
      exact .inr ⟨before, request, outcome', hfinished, rfl⟩

theorem mem_signIns (h : (userId, browser) ∈ w.signIns) :
    ∃ before request outcome, ((before, request), .ok outcome) ∈ w.finished ∧ browser = before.after outcome ∧
      outcome.completed = some userId := by
  obtain ⟨⟨after, outcome⟩, hanswer, hcompleted⟩ := mem_filterMap.mp h
  obtain ⟨⟨⟨before, request⟩, result⟩, hfinished, hsome⟩ := mem_filterMap.mp hanswer
  obtain ⟨userId', huser, hpair⟩ := Option.map_eq_some_iff.mp hcompleted
  obtain ⟨rfl, rfl⟩ := Prod.mk.inj hpair
  cases result with
  | error e => cases hsome
  | ok outcome' =>
    obtain ⟨rfl, rfl⟩ := Prod.mk.inj (Option.some.inj hsome)
    exact ⟨before, request, outcome', hfinished, rfl, huser⟩

/-- The requests that ended completed sign-ins only after a strong factor, and those in flight will. -/
def Sound (known : Id → Prop) (w : Server) : Prop :=
  Pool.Sound (EnhancedFor known) (fun entry => SecretFound entry.2) (fun _ => Outcome.Sound known) w

theorem Sound.cookie (h : w.Sound known) (hmem : browser ∈ w.cookies) : browser.session.Known known := by
  rcases mem_cookies hmem with rfl | ⟨before, request, outcome, hfinished, rfl⟩
  · exact .empty
  · exact (h.finished _ outcome hfinished).session

theorem sound_step (h : w.Sound known) {event : ServerEvent} (hevent : w.SecretStillThere event) :
    (w.step env event).Sound known := by
  cases event with
  | request cookie request =>
    rw [step, receive]
    cases hcookie : w.cookies[cookie]? with
    | none => exact h
    | some browser =>
      have hknown := h.cookie (mem_of_getElem? hcookie)
      exact Pool.Sound.start h (browser, request) (sound_handle hknown)
  | advance i => exact Pool.Sound.advance h hevent
  | wait micros => exact ⟨h.store.frame rfl rfl, h.inFlight, h.finished⟩

/-- In every run in which the enrolment page always finds the secret of a user on TOTP, a completed sign-in of
a session that came through the password step has verified a strong factor of the user since. -/
theorem enhanced_sign_ins_use_strong_factor {db : Db} (hpolicy : db.getRequiredAuthStrength = .enhanced)
    {events : List ServerEvent} (h : Along (step env) SecretStillThere (idle db) events) :
    ∀ userId browser, (userId, browser) ∈ (run (step env) (idle db) events).signIns →
      browser.passwordStep.isSome → ∃ factor, factor ≠ .email ∧ (userId, factor) ∈ browser.verified := by
  intro userId browser hsign _
  have hstart : Sound (fun userId => (db.getUserById userId).isSome) (idle db) :=
    ⟨⟨hpolicy, fun _ => Iff.rfl⟩, fun _ _ hmem => absurd hmem not_mem_nil,
      fun _ _ hmem => absurd hmem not_mem_nil⟩
  have hsound := invariant_of_along (fun w event hw hevent => sound_step (w := w) hw hevent) hstart h
  obtain ⟨before, request, outcome, hfinished, rfl, hcompleted⟩ := mem_signIns hsign
  have houtcome := hsound.finished _ outcome hfinished
  obtain ⟨hstep, factor, hfactor, hverified⟩ := houtcome.strong userId hcompleted
  refine ⟨factor, hfactor, ?_⟩
  rw [BrowserSession.after, hstep, hverified]
  exact mem_cons_self

def enhancedTenant : Db where
  nextId := 10
  securitySettings := some { requiredAuthStrength := .enhanced }
  users := [{ id := 2, passwordHash := some (Env.ascii.hashPassword "secret"), mfaMethod := some .totp }]
  userEmails := [{ id := 3, userId := 2, email := "ada@example.com", isPrimary := true, verifiedAt := some 0 }]
  mfaTotp := [{ userId := 2, secret := "S", verifiedAt := some 0 }]

def served (cookie : Nat) (request : HttpRequest) (steps : Nat) : List ServerEvent :=
  .request cookie request :: List.replicate (steps + 1) (.advance 0)

/-- Ada signs in with the authenticator and asks for a downgrade; somebody else passes the password step and
enters the code that was sent by email. -/
def beforeEnrollment : List ServerEvent :=
  served 0 (.login adaLogin) 1 ++ served 1 (.mfaVerify { code := "tS" }) 5 ++ served 2 .mfaSetupEmail 3 ++
    served 0 (.login adaLogin) 1 ++ served 4 (.mfaVerify { code := "000000" }) 5

/-- While the enrolment page of the second browser is answered, the downgrade in the first one is confirmed. -/
def enrollmentRace : List ServerEvent :=
  beforeEnrollment ++ [.request 5 (.enrollEnhancedAuthPage none), .advance 0,
    .request 3 (.mfaDowngradeVerify "000000")] ++ List.replicate 7 (.advance 1) ++ List.replicate 3 (.advance 0)

/-- The page read Ada as being on TOTP and then finds no secret: it completes the sign-in on the email code. -/
theorem email_code_completes_sign_in : enhancedTenant.getRequiredAuthStrength = .enhanced ∧
      ∃ browser, (2, browser) ∈ (run (step Env.ascii) (idle enhancedTenant) enrollmentRace).signIns ∧
        browser.passwordStep = some 2 ∧ ∀ factor, (2, factor) ∈ browser.verified → factor = .email := by
  have hsigns : ((run (step Env.ascii) (idle enhancedTenant) enrollmentRace).signIns.map fun (userId, browser) =>
      (userId, browser.passwordStep, browser.verified)) =
        [(2, some 2, [(2, .totp)]), (2, some 2, [(2, .email)])] := by
    decide +kernel
  have hlast : (2, some 2, [(2, Factor.email)]) ∈ [(2, some 2, [(2, Factor.totp)]), (2, some 2, [(2, .email)])] := by
    simp
  rw [← hsigns] at hlast
  obtain ⟨⟨userId, browser⟩, hmem, heq⟩ := mem_map.mp hlast
  simp only [Prod.mk.injEq] at heq
  obtain ⟨rfl, hstep, hverified⟩ := heq
  refine ⟨rfl, browser, hmem, hstep, fun factor hfactor => ?_⟩
  rw [hverified] at hfactor
  simpa using hfactor

/-- The second browser shows the page while Ada is on TOTP and then enters a code of the authenticator. -/
def enrollmentWithTotp : List ServerEvent :=
  beforeEnrollment ++ served 5 (.enrollEnhancedAuthPage none) 3 ++
    served 6 (.enrollEnhancedAuthVerify "tS" false) 27

theorem enrolled_sign_in_uses_strong_factor :
    ∃ browser, (2, browser) ∈ (run (step Env.ascii) (idle enhancedTenant) enrollmentWithTotp).signIns ∧
      browser.verified.length = 2 ∧ ∃ factor, factor ≠ .email ∧ (2, factor) ∈ browser.verified := by
  have hsecret : Along (step Env.ascii) SecretStillThere (idle enhancedTenant) enrollmentWithTotp := by
    decide +kernel
  have hsigns : ((run (step Env.ascii) (idle enhancedTenant) enrollmentWithTotp).signIns.map fun (userId, browser) =>
      (userId, browser.passwordStep, browser.verified.length)) = [(2, some 2, 1), (2, some 2, 2)] := by
    decide +kernel
  have hlast : (2, some 2, 2) ∈ [(2, some 2, 1), (2, some 2, 2)] := by decide
  rw [← hsigns] at hlast
  obtain ⟨⟨userId, browser⟩, hmem, heq⟩ := mem_map.mp hlast
  simp only [Prod.mk.injEq] at heq
  obtain ⟨rfl, hstep, hlength⟩ := heq
  have hsome : browser.passwordStep.isSome = true := by rw [hstep, Option.isSome_some]
  exact ⟨browser, hmem, hlength, enhanced_sign_ins_use_strong_factor rfl hsecret 2 browser hmem hsome⟩

end Server

end WeftId
