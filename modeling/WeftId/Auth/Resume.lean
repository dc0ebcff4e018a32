import WeftId.Auth.Passkey
import WeftId.Lib.Url

/-!
What becomes of an interrupted request when its visitor signs in.  The request leaves a return path in the
session; every way of signing in ends by regenerating the session and choosing where to send the browser.
-/

namespace WeftId

open List Proc

inductive ReturnKey
  | forwardAuthAuthorize | oauth2Authorize | deviceVerification
  deriving DecidableEq

namespace ReturnKey

def root : ReturnKey → Text
  | forwardAuthAuthorize => "/forward-auth/authorize"
  | oauth2Authorize => "/oauth2/authorize"
  | deviceVerification => "/device"

def all : List ReturnKey := [forwardAuthAuthorize, oauth2Authorize, deviceVerification]

end ReturnKey

inductive PendingSsoKey
  | spId | spEntityId | authnRequestId | relayState | spName

/-- The keys of a session that a sign-in carries over, beside those every session has. -/
structure SignInSession extends Session where
  pendingSso : PendingSsoKey → Json := fun _ => .null
  pendingSsoUserId : Option Id := none
  pendingReturns : ReturnKey → Json := fun _ => .null

def isSafePath (target : Text) : Bool :=
  target ≠ [] ∧ target.length ≤ 2048 ∧ "/" <+: target ∧ ¬ "//" <+: target ∧ '\\' ∉ target ∧
    (∀ c ∈ target, ¬ (c < ' ' ∨ c = '\x7f')) ∧ ¬ "://" <:+: target ∧
    (Url.split (fun _ => true) target).any fun url => url.scheme = [] ∧ url.netloc = []

def safePath (target : Text) : Text := if isSafePath target then target else "/dashboard"

def safeRelayState (value : Text) : Text :=
  if value = [] ∨ ¬ "/" <+: value ∨ "//" <+: value ∨ "://" <:+: value then "/dashboard"
  else value

def isSafeReturnPath (target root : Text) : Bool :=
  root <+: target ∧ ¬ "//" <+: target ∧ ¬ "://" <:+: target ∧ '\r' ∉ target ∧ '\n' ∉ target

/-- The path that a pending key sends the browser to, if its value is one. -/
def ReturnKey.honoured (key : ReturnKey) : Json → Option Text
  | .str target => if isSafeReturnPath target key.root then some target else none
  | _ => none

def popReturns (default : Text) : List ReturnKey → (ReturnKey → Json) → Text × (ReturnKey → Json)
  | [], returns => (default, returns)
  | key :: keys, returns =>
    let popped := Function.update returns key .null
    match key.honoured (returns key) with
    | some target => (target, popped)
    | none => popReturns default keys popped

namespace SignInSession

def SsoPending (session : SignInSession) : Prop := (session.pendingSso .spEntityId).truthy = true
  deriving Decidable

def extractPendingSso (session : SignInSession) : Option (PendingSsoKey → Json) :=
  if session.SsoPending then
    some fun key => match session.pendingSso key with
      | .null => .str []
      | value => value
  else none

def extractPendingReturns (session : SignInSession) (key : ReturnKey) : Json :=
  match session.pendingReturns key with
  | .str (c :: path) => .str (c :: path)
  | _ => .null

def getPostAuthRedirect (session : SignInSession) (default : Text) : Text × SignInSession :=
  if session.SsoPending then ("/saml/idp/consent", session)
  else
    let (target, pendingReturns) := popReturns default ReturnKey.all session.pendingReturns
    (target, { session with pendingReturns })

/-- The shared end of a sign-in, with the keys it carries across the regeneration. -/
def complete (session : SignInSession) (userId : Id) (timezone locale : Text) : Service (Text × SignInSession) := do
  let (_, fresh) ← completeAuthenticatedLogin session.toSession userId timezone locale
  let sso := session.extractPendingSso
  let carried : SignInSession := {
    toSession := fresh, pendingSso := sso.getD fun _ => .null, pendingSsoUserId := sso.map fun _ => userId
    pendingReturns := session.extractPendingReturns }
  let (target, after) := carried.getPostAuthRedirect "/dashboard"
  pure (safePath target, after)

/-- The end of an assertion consumer endpoint, for a provider that needs no platform MFA. -/
def completeAcs (session : SignInSession) (userId : Id) (relayState : Text) : Service (Text × SignInSession) := do
  let maxAge ← read (·.sessionMaxAge)
  let fresh ← regenerateSession userId maxAge
  write (·.updateLastLogin userId)
  let carried : SignInSession := { toSession := fresh, pendingSso := session.extractPendingSso.getD fun _ => .null }
  let (target, after) := carried.getPostAuthRedirect (safeRelayState relayState)
  pure (safePath target, after)

end SignInSession

/-- A request on the way to a sign-in that has passed its own checks and leaves a step to take. -/
inductive InterimRequest
  | login (userId : Id) (method : MfaMethod) (timezone locale : Text)
  /-- A SAML response or an OIDC callback, of a provider that asks for platform MFA. -/
  | upstream (userId : Id) (method : MfaMethod)
  | mustEnroll (userId : Id) (timezone locale : Text)

def Session.remember (session : Session) (timezone locale : Text) : Session := { session with
  pendingTimezone := if timezone = [] then session.pendingTimezone else some timezone
  pendingLocale := if locale = [] then session.pendingLocale else some locale }

def Session.interim (session : Session) : InterimRequest → Session
  | .login userId method timezone locale => { session.remember timezone locale with
      pendingMfaUserId := some userId, pendingMfaMethod := some method }
  | .upstream userId method => { session with pendingMfaUserId := some userId, pendingMfaMethod := some method }
  | .mustEnroll userId timezone locale =>
    { session.remember timezone locale with pendingEnhancedEnrollmentUserId := some userId }

/-- The request that ends a sign-in, its own checks passed. -/
inductive Completion
  | mfaVerify (userId : Id) (timezone locale : Text)
  | enroll (userId : Id)
  | passkey (userId : Id)
  | oidcCallback (userId : Id)
  | samlAcs (userId : Id) (relayState : Text)

namespace SignInSession

def completeBy (session : SignInSession) : Completion → Service (Text × SignInSession)
  | .mfaVerify userId timezone locale => session.complete userId timezone locale
  | .enroll userId =>
    { session with
      pendingEnhancedEnrollmentUserId := none
      pendingMfaUserId := none
      pendingMfaMethod := none }.complete userId [] []
  | .passkey userId => { session with toSession := session.clearLoginSession }.complete userId [] []
  | .oidcCallback userId => session.complete userId [] []
  | .samlAcs userId relayState => session.completeAcs userId relayState

def signIn (session : SignInSession) (before : List InterimRequest) (last : Completion) :
    Service (Text × SignInSession) :=
  { session with toSession := before.foldl Session.interim session.toSession }.completeBy last

def Resumes (session : SignInSession) (before : List InterimRequest) (last : Completion) (db : Db) (key : ReturnKey)
    (target : Text) : Prop :=
  ∃ response after, (session.signIn before last db).1 = .ok (response, after) ∧
    if session.SsoPending then after.pendingReturns key = .str target else response = target

/-- The sign-in does not end at an assertion consumer endpoint, and the path is one the browser is sent to before
any other. -/
def Resumable (session : SignInSession) (key : ReturnKey) (target : Text) : Completion → Prop
  | .samlAcs _ relayState => ¬ session.SsoPending ∧ isSafePath target = true ∧ relayState = target
  | _ => session.SsoPending ∨ isSafePath target = true ∧
      ∀ other ∈ ReturnKey.all.takeWhile (· ≠ key), other.honoured (session.pendingReturns other) = none

end SignInSession

variable {key : ReturnKey} {target : Text}

theorem ReturnKey.eq_of_root {other : ReturnKey} (h : key.root <+: target)
    (h' : other.root <+: target) : key = other := by
  have hroots := List.prefix_or_prefix_of_prefix h h'
  revert hroots
  cases key <;> cases other <;> decide

theorem ReturnKey.root_not_dashboard (key : ReturnKey) : ¬ key.root <+: "/dashboard" := by
  cases key <;> decide

theorem safePath_eq_iff {path : Text} (h : key.root <+: target) :
    safePath path = target ↔ isSafePath target = true ∧ path = target := by
  unfold safePath
  split
  · rename_i hsafe
    exact ⟨fun heq => ⟨heq ▸ hsafe, heq⟩, (·.2)⟩
  · rename_i hunsafe
    constructor
    · rintro rfl
      exact absurd h key.root_not_dashboard
    · rintro ⟨hsafe, rfl⟩
      exact absurd hsafe hunsafe

theorem safeRelayState_eq_iff {relayState : Text} (h : key.root <+: target)
    (hsafe : isSafePath target = true) : safeRelayState relayState = target ↔ relayState = target := by
  simp only [isSafePath, decide_eq_true_eq] at hsafe
  unfold safeRelayState
  split
  · constructor
    · rintro rfl
      exact absurd h key.root_not_dashboard
    · rintro rfl
      tauto
  · rfl

theorem popReturns_all (default : Text) (returns : ReturnKey → Json) : (popReturns default ReturnKey.all returns).1 =
    (ReturnKey.all.findSome? fun key => key.honoured (returns key)).getD default := by
  simp only [ReturnKey.all, popReturns, findSome?_cons]
  rw [Function.update_of_ne (by decide), Function.update_of_ne (by decide), Function.update_of_ne (by decide)]
  cases ReturnKey.forwardAuthAuthorize.honoured (returns .forwardAuthAuthorize) with
  | some target => rfl
  | none =>
    cases ReturnKey.oauth2Authorize.honoured (returns .oauth2Authorize) with
    | some target => rfl
    | none => cases ReturnKey.deviceVerification.honoured (returns .deviceVerification) <;> rfl

theorem ReturnKey.root_of_honoured {value : Json} (h : key.honoured value = some target) : key.root <+: target := by
  cases value with
  | str path =>
    simp only [ReturnKey.honoured, Option.ite_none_right_eq_some, Option.some.injEq] at h
    obtain ⟨hsafe, rfl⟩ := h
    simp only [isSafeReturnPath, decide_eq_true_eq] at hsafe
    exact hsafe.1
  | _ => cases h

theorem honoured_of_safe (h : key.root <+: target) (hsafe : isSafePath target = true) :
    key.honoured (.str target) = some target := by
  simp only [isSafePath, decide_eq_true_eq] at hsafe
  obtain ⟨-, -, -, hrooted, -, hcontrol, hscheme, -⟩ := hsafe
  refine if_pos (decide_eq_true ⟨h, hrooted, hscheme, fun hr => ?_, fun hn => ?_⟩)
  · exact hcontrol _ hr (.inl (by decide))
  · exact hcontrol _ hn (.inl (by decide))

theorem extractPendingReturns_apply (session : SignInSession) (key : ReturnKey) :
    key.honoured (session.extractPendingReturns key) = key.honoured (session.pendingReturns key) := by
  unfold SignInSession.extractPendingReturns
  cases session.pendingReturns key with
  | str target =>
    cases target with
    | nil => cases key <;> rfl
    | cons c path => rfl
  | _ => rfl

theorem first_honoured_iff {returns : ReturnKey → Json} (h : key.honoured (returns key) = some target) :
    (ReturnKey.all.findSome? fun other => other.honoured (returns other)).getD "/dashboard".toList = target ↔
      ∀ other ∈ ReturnKey.all.takeWhile (· ≠ key), other.honoured (returns other) = none := by
  obtain ⟨rest, hsplit⟩ : ∃ rest, ReturnKey.all = ReturnKey.all.takeWhile (· ≠ key) ++ key :: rest := by
    cases key <;> exact ⟨_, rfl⟩
  rw [← findSome?_eq_none_iff]
  conv_lhs => rw [hsplit, findSome?_append, findSome?_cons, h]
  cases hfirst : (ReturnKey.all.takeWhile (· ≠ key)).findSome? fun other => other.honoured (returns other) with
  | none => simp
  | some path =>
    obtain ⟨other, hother, hpath⟩ := exists_of_findSome?_eq_some hfirst
    have hne := mem_takeWhile_imp hother
    simp only [Option.some_or, reduceCtorEq, iff_false]
    rintro rfl
    exact absurd (ReturnKey.eq_of_root (ReturnKey.root_of_honoured hpath) (ReturnKey.root_of_honoured h))
      (by simpa using hne)

namespace SignInSession

variable {session : SignInSession}

/-- Where the end of a sign-in sends the browser that has no return path. -/
def fallback : Completion → Text
  | .samlAcs _ relayState => safeRelayState relayState
  | _ => "/dashboard"

def carriedReturns (session : SignInSession) : Completion → ReturnKey → Json
  | .samlAcs .. => fun _ => .null
  | _ => session.extractPendingReturns

theorem signIn_ok (session : SignInSession) (before : List InterimRequest) (last : Completion) (db : Db) :
    ∃ carried : SignInSession, carried.pendingSso = session.extractPendingSso.getD (fun _ => .null) ∧
      carried.pendingReturns = session.carriedReturns last ∧
      (session.signIn before last db).1 = .ok (safePath (carried.getPostAuthRedirect (fallback last)).1,
        (carried.getPostAuthRedirect (fallback last)).2) := by
  cases last <;> exact ⟨_, rfl, rfl, rfl⟩

theorem ssoPending_carried {carried : SignInSession}
    (h : carried.pendingSso = session.extractPendingSso.getD fun _ => .null) :
    carried.SsoPending ↔ session.SsoPending := by
  unfold SsoPending
  rw [h, extractPendingSso]
  by_cases hsso : session.SsoPending
  · cases hentity : session.pendingSso .spEntityId <;> simp_all [Json.truthy]
  · rw [if_neg hsso]
    exact iff_of_false (by simp [Json.truthy]) hsso

theorem suspended_request_resumed_iff (session : SignInSession) (before : List InterimRequest) (last : Completion)
    (db : Db) (key : ReturnKey) (target : Text) :
    (session.pendingReturns key = .str target ∧ key.root <+: target → session.Resumes before last db key target) ↔
      (session.pendingReturns key = .str target ∧ key.root <+: target → session.Resumable key target last) := by
  refine imp_congr_right fun ⟨hpending, hroot⟩ => ?_
  obtain ⟨carried, hcarried, hreturns, hok⟩ := session.signIn_ok before last db
  have hsso := ssoPending_carried hcarried
  have hresumes : session.Resumes before last db key target ↔ if session.SsoPending then
      session.carriedReturns last key = .str target else isSafePath target = true ∧
        (popReturns (fallback last) ReturnKey.all (session.carriedReturns last)).1 = target := by
    unfold Resumes
    rw [hok]
    by_cases hpend : session.SsoPending
    · simp [getPostAuthRedirect, hsso, hpend, hreturns]
    · simp [getPostAuthRedirect, hsso, hpend, hreturns, safePath_eq_iff hroot]
  rw [hresumes, popReturns_all]
  have hextracted : session.extractPendingReturns key = .str target := by
    rw [extractPendingReturns, hpending]
    cases target with
    | nil => exact absurd hroot (by cases key <;> decide)
    | cons c path => rfl
  cases last with
  | samlAcs =>
    split
    · rename_i hpend
      simp [carriedReturns, Resumable, hpend]
    · rename_i hpend
      simp only [Resumable, hpend, not_false_eq_true, true_and]
      exact and_congr_right fun hsafe => safeRelayState_eq_iff hroot hsafe
  | _ =>
    split
    · rename_i hpend
      simp [carriedReturns, Resumable, hpend, hextracted]
    · rename_i hpend
      simp only [carriedReturns, Resumable, hpend, false_or, extractPendingReturns_apply]
      exact and_congr_right fun hsafe => first_honoured_iff (hpending ▸ honoured_of_safe hroot hsafe)

/-- A visitor sent to sign in by an OAuth2 client comes back through SAML and lands on the dashboard. -/
theorem suspended_request_dropped_by_acs :
    let session : SignInSession := {
      pendingReturns := Function.update (fun _ => .null) .oauth2Authorize (.str "/oauth2/authorize?client_id=a") }
    ReturnKey.oauth2Authorize.root <+: "/oauth2/authorize?client_id=a" ∧ ¬ session.SsoPending ∧
      ¬ session.Resumes [] (.samlAcs 1 "/dashboard") {} .oauth2Authorize "/oauth2/authorize?client_id=a" := by
  refine ⟨by decide, by decide, ?_⟩
  rintro ⟨response, after, hok, hresponse⟩
  cases hok
  rw [if_neg (by decide)] at hresponse
  exact absurd hresponse (by decide)

end SignInSession

end WeftId
