import WeftId.Auth.Enrollment

/-!
Forced password resets.  A sign-in of a flagged user leaves a marker in the browser's session, and the reset
form asks for nothing but this marker: neither the form nor the service looks at the flag again.  Session
cookies can be presented as often as one likes, so the marker outlives the reset it was made for.
-/

namespace WeftId

open List Proc Run

variable (env : Env) {session : Session} {newPasswordConfirm : Text}

def serviceErrorCode (x : Service Unit) : Service (Option String) :=
  rescue (do
    x
    pure none) fun e =>
    match e.serviceCode with
    | some code => pure (some code)
    | none => raise e

def proceedToMfa (session : Session) (userId : Id) : Service (Response × Session) := do
  let user ← read (·.getUserById userId)
  match user with
  | none => pure (.redirect "/login", session)
  | some user => pure (.redirect "/mfa/verify",
      { session with pendingMfaUserId := some user.id, pendingMfaMethod := user.mfaMethod })

def forcedPasswordReset (session : Session) (newPassword newPasswordConfirm : Text) : Service (Response × Session) :=
  match session.pendingPasswordResetUserId with
  | none => pure (.redirect "/login", session)
  | some userId =>
    if newPassword ≠ newPasswordConfirm then
      pure (.redirect "/login/reset-password?error=passwords_dont_match", session)
    else do
      let error ← serviceErrorCode (completeForcedPasswordReset env userId newPassword)
      match error with
      | some code => pure (.redirect ("/login/reset-password?error=" ++ code), session)
      | none => proceedToMfa { session with pendingPasswordResetUserId := none } userId

def resetTarget (db : Db) (session : Session) (newPassword newPasswordConfirm : Text) : Option Id :=
  session.pendingPasswordResetUserId.filter fun userId =>
    newPassword = newPasswordConfirm ∧ (completeForcedPasswordReset env userId newPassword db).1.isOk

/-- A session the server has signed, and how many passwords had been set when its reset marker was. -/
structure ResetCookie where
  session : Session
  markedAfter : Nat
  deriving DecidableEq

structure ResetWorld where
  db : Db
  /-- Every cookie the server ever issued. -/
  issued : List ResetCookie := []
  /-- The users whose passwords were set, in order. -/
  passwordsSet : List Id := []

inductive ResetEvent
  | login (cookie : Option ResetCookie) (request : LoginRequest)
  | forcedPasswordReset (cookie : Option ResetCookie) (newPassword newPasswordConfirm : Text)
  /-- Another page: it may write other keys of the session, and it keeps or drops the marker. -/
  | request (cookie : Option ResetCookie) (others : Session) (keepsMarker : Bool)
  | changePassword (user : RequestingUser) (currentPassword newPassword : Text)
  | completeSelfServicePasswordReset (userId : Id) (newPassword : Text)
  /-- The update that an invitation link ends in. -/
  | setPassword (userId : Id) (passwordHash : Text)
  | forcePasswordReset (user : RequestingUser) (targetUserId : Id)
  /-- A job or a bulk action flags users. -/
  | bulkSetPasswordResetRequired (userIds : List Id)
  | inactivateUser (user : RequestingUser) (userId : Id)
  | reactivateUser (user : RequestingUser) (userId : Id)
  | wait (micros : Nat)

namespace ResetWorld

def present (w : ResetWorld) (cookie : Option ResetCookie) : ResetCookie :=
  (cookie.filter (· ∈ w.issued)).getD { session := {}, markedAfter := 0 }

def respond (w : ResetWorld) (session : Session) (markedAfter : Nat) : ResetWorld :=
  if session = {} then w else { w with issued := { session, markedAfter } :: w.issued }

def serve (w : ResetWorld) (call : Service Unit) (sets : Option Id) : ResetWorld :=
  match call w.db with
  | (.ok (), db) => { w with db, passwordsSet := w.passwordsSet ++ sets.toList }
  | (.error _, db) => { w with db }

def step (w : ResetWorld) : ResetEvent → ResetWorld
  | .login cookie request =>
    let presented := w.present cookie
    match login env presented.session request w.db with
    | (.ok (response, session), db) =>
      ({ w with db }).respond session
        (if response = Response.redirect "/login/reset-password" then w.passwordsSet.length else presented.markedAfter)
    | (.error _, db) => { w with db }
  | .forcedPasswordReset cookie newPassword newPasswordConfirm =>
    let presented := w.present cookie
    let target := resetTarget env w.db presented.session newPassword newPasswordConfirm
    match WeftId.forcedPasswordReset env presented.session newPassword newPasswordConfirm w.db with
    | (.ok (_, session), db) =>
      ({ w with db, passwordsSet := w.passwordsSet ++ target.toList }).respond session presented.markedAfter
    | (.error _, db) => { w with db }
  | .request cookie others keepsMarker =>
    let presented := w.present cookie
    w.respond { others with
      pendingPasswordResetUserId := if keepsMarker then presented.session.pendingPasswordResetUserId else none }
      presented.markedAfter
  | .changePassword user currentPassword newPassword =>
    w.serve (WeftId.changePassword env user currentPassword newPassword) (some user.id)
  | .completeSelfServicePasswordReset userId newPassword =>
    w.serve (WeftId.completeSelfServicePasswordReset env userId newPassword) (some userId)
  | .setPassword userId passwordHash => w.serve (write (·.updatePassword userId passwordHash)) (some userId)
  | .forcePasswordReset user targetUserId => w.serve (WeftId.forcePasswordReset user targetUserId) none
  | .bulkSetPasswordResetRequired userIds =>
    { w with db := userIds.foldl (fun db userId => db.setPasswordResetRequired userId true) w.db }
  | .inactivateUser user userId => w.serve (WeftId.inactivateUser user userId) none
  | .reactivateUser user userId => w.serve (WeftId.reactivateUser user userId) none
  | .wait micros => { w with db := w.db.wait micros }

def resets (w : ResetWorld) : ResetEvent → Option Id
  | .forcedPasswordReset cookie newPassword newPasswordConfirm =>
    resetTarget env w.db (w.present cookie).session newPassword newPasswordConfirm
  | _ => none

def Authorised (w : ResetWorld) (event : ResetEvent) : Prop :=
  ∀ userId ∈ w.resets env event, ∃ user, w.db.getUserById userId = some user ∧ user.passwordResetRequired = true

def MarkerCurrent (w : ResetWorld) : ResetEvent → Prop
  | .forcedPasswordReset cookie _ _ =>
    ∀ userId ∈ (w.present cookie).session.pendingPasswordResetUserId,
      userId ∉ w.passwordsSet.drop (w.present cookie).markedAfter
  | _ => True

instance (w : ResetWorld) (event : ResetEvent) : Decidable (w.MarkerCurrent event) := by
  cases event <;> unfold ResetWorld.MarkerCurrent <;> infer_instance

end ResetWorld

section Flags

variable {env} {db db' : Db} {userId : Id} {newPassword : Text}

def Db.Flagged (db : Db) (userId : Id) : Prop :=
  ∀ user, db.getUserById userId = some user → user.passwordResetRequired = true

/-- Only users in the list may lose the flag. -/
def Db.KeepsFlags (cleared : List Id) (db db' : Db) : Prop := ∀ userId ∉ cleared, db.Flagged userId → db'.Flagged userId

theorem Db.KeepsFlags.of_users (h : db'.users = db.users) (cleared : List Id) : db.KeepsFlags cleared db' := by
  intro userId _ hflag user huser
  refine hflag user ?_
  rwa [getUserById, h] at huser

theorem Db.KeepsFlags.trans {db'' : Db} {cleared : List Id} (h : db.KeepsFlags cleared db')
    (h' : db'.KeepsFlags cleared db'') : db.KeepsFlags cleared db'' :=
  fun userId hnot hflag => h' userId hnot (h userId hnot hflag)

theorem Db.keepsFlags_updateUser {f : User → User} (hid : ∀ u, (f u).id = u.id)
    (hflag : ∀ u, u.passwordResetRequired = true → (f u).passwordResetRequired = true) {userId : Id} {cleared : List Id}
    (db : Db) : db.KeepsFlags cleared (db.updateUser userId f) := by
  intro a _ ha user huser
  rw [getUserById_updateUser hid] at huser
  split_ifs at huser with h
  · obtain ⟨u, hu, rfl⟩ := Option.map_eq_some_iff.mp huser
    exact hflag u (ha u hu)
  · exact ha user huser

theorem Db.keepsFlags_updatePassword {passwordHash : Text} :
    db.KeepsFlags [userId] (db.updatePassword userId passwordHash) := by
  intro a hne ha user huser
  have hne' : a ≠ userId := by simpa using hne
  rw [updatePassword, getUserById_updateUser, if_neg hne'] at huser
  · exact ha user huser
  · exact fun _ => rfl

theorem Db.keepsFlags_bulkSet (userIds cleared : List Id) (db : Db) :
    db.KeepsFlags cleared (userIds.foldl (fun db userId => db.setPasswordResetRequired userId true) db) := by
  induction userIds generalizing db with
  | nil => exact .of_users rfl cleared
  | cons userId userIds ih =>
    have hfirst : db.KeepsFlags cleared (db.setPasswordResetRequired userId true) :=
      keepsFlags_updateUser (by exact fun _ => rfl) (by exact fun _ _ => rfl) db
    exact hfirst.trans (ih _)

theorem login_cases (session : Session) (request : LoginRequest) (db : Db) :
    (∃ response, login env session request db = (.ok (response, session), db) ∧
      response ≠ .redirect "/login/reset-password") ∨
    ∃ user, db.getUserById user.id = some user ∧ login env session request db =
      (.ok (passwordStep session request { user with lastLogin := some db.now }), db.updateLastLogin user.id) := by
  by_cases hblocked : request.blocked = true
  · left
    rw [login, if_pos hblocked]
    exact ⟨_, rfl, by simp⟩
  · by_cases hsigns : ∃ user, PasswordSignsIn env db request.email request.password user
    · obtain ⟨user, huser⟩ := hsigns
      exact .inr ⟨user, huser.getUserById, login_of_signsIn session (by simpa using hblocked) huser⟩
    · left
      obtain ⟨result, hverify, hstatus⟩ := verifyLoginWithStatus_failure (not_exists.mp hsigns)
      rw [login, if_neg hblocked, bind_apply_of_ok hverify]
      obtain ⟨status, user, canRequest⟩ := result
      cases status with
      | success => exact absurd rfl hstatus
      | invalidCredentials | inactivated | pending | denied => exact ⟨_, rfl, by simp⟩

theorem serviceErrorCode_of_ok {x : Service Unit} (h : x db = (.ok (), db')) :
    serviceErrorCode x db = (.ok none, db') := by
  unfold serviceErrorCode rescue
  rw [bind_apply_of_ok h]
  rfl

theorem serviceErrorCode_of_error {x : Service Unit} {e : Error} (h : x db = (.error e, db')) :
    serviceErrorCode x db = (match e.serviceCode with
      | some code => .ok (some code)
      | none => .error e, db') := by
  unfold serviceErrorCode rescue
  rw [bind_apply_of_error h]
  cases hcode : e.serviceCode with
  | none => simp only [hcode]; rfl
  | some code => simp only [hcode]; rfl

theorem proceedToMfa_apply (session : Session) (userId : Id) (db : Db) :
    ∃ response after, proceedToMfa session userId db = (.ok (response, after), db) ∧
      after.pendingPasswordResetUserId = session.pendingPasswordResetUserId := by
  unfold proceedToMfa
  rw [read_bind_apply]
  cases db.getUserById userId with
  | none => exact ⟨_, _, rfl, rfl⟩
  | some user => exact ⟨_, _, rfl, rfl⟩

theorem forcedPasswordReset_refused
    (h : ∀ userId ∈ session.pendingPasswordResetUserId, newPassword = newPasswordConfirm →
      ∃ e, completeForcedPasswordReset env userId newPassword db = (.error e, db)) :
    ∃ result, forcedPasswordReset env session newPassword newPasswordConfirm db = (result, db) ∧
      ∀ response after, result = .ok (response, after) → after = session := by
  unfold forcedPasswordReset
  cases hpending : session.pendingPasswordResetUserId with
  | none => exact ⟨_, rfl, fun response after h => (Except.ok_snd h).symm⟩
  | some userId =>
    dsimp only
    by_cases hsame : newPassword = newPasswordConfirm
    · rw [if_neg (not_not_intro hsame)]
      obtain ⟨e, he⟩ := h userId hpending hsame
      have herror := serviceErrorCode_of_error he
      cases hcode : e.serviceCode with
      | none =>
        simp only [hcode] at herror
        refine ⟨_, bind_apply_of_error herror _, fun response after h => ?_⟩
        cases h
      | some code =>
        simp only [hcode] at herror
        refine ⟨_, bind_apply_of_ok herror _, fun response after h => ?_⟩
        exact (Except.ok_snd h).symm
    · rw [if_pos hsame]
      exact ⟨_, rfl, fun response after h => (Except.ok_snd h).symm⟩

theorem resetTarget_eq_some : resetTarget env db session newPassword newPasswordConfirm = some userId ↔
      session.pendingPasswordResetUserId = some userId ∧ newPassword = newPasswordConfirm ∧
        (completeForcedPasswordReset env userId newPassword db).1.isOk = true := by
  rw [resetTarget]
  simp

theorem completeForcedPasswordReset_cases :
    (∃ e, completeForcedPasswordReset env userId newPassword db = (.error e, db)) ∨
    (∃ user, db.getUserById userId = some user) ∧ completeForcedPasswordReset env userId newPassword db =
      (.ok (), db.updatePassword userId (env.hashPassword newPassword)) := by
  have hspec := completeForcedPasswordReset_spec env userId newPassword db
  cases hcall : completeForcedPasswordReset env userId newPassword db with
  | mk result db' =>
    rw [Ensures, hcall] at hspec
    cases result with
    | error e =>
      rw [show db' = db from hspec]
      exact .inl ⟨e, rfl⟩
    | ok result =>
      rw [show db' = db.updatePassword userId (env.hashPassword newPassword) from hspec]
      refine .inr ⟨?_, rfl⟩
      cases huser : db.getUserById userId with
      | some user => exact ⟨user, rfl⟩
      | none =>
        simp [completeForcedPasswordReset, orRaise, bind, huser] at hcall

theorem forcedPasswordReset_cases (session : Session) (newPassword newPasswordConfirm : Text) (db : Db) :
    (resetTarget env db session newPassword newPasswordConfirm = none ∧
      ∃ result, forcedPasswordReset env session newPassword newPasswordConfirm db = (result, db) ∧
        ∀ response after, result = .ok (response, after) → after = session) ∨
    ∃ userId response after, resetTarget env db session newPassword newPasswordConfirm = some userId ∧
      forcedPasswordReset env session newPassword newPasswordConfirm db =
        (.ok (response, after), db.updatePassword userId (env.hashPassword newPassword)) ∧
      after.pendingPasswordResetUserId = none := by
  cases htarget : resetTarget env db session newPassword newPasswordConfirm with
  | none =>
    refine .inl ⟨rfl, forcedPasswordReset_refused fun userId hpending hsame => ?_⟩
    rcases completeForcedPasswordReset_cases with herror | ⟨-, hok⟩
    · exact herror
    · have hsome := resetTarget_eq_some.mpr ⟨hpending, hsame, by rw [hok]; rfl⟩
      rw [htarget] at hsome
      cases hsome
  | some userId =>
    obtain ⟨hpending, rfl, hisOk⟩ := resetTarget_eq_some.mp htarget
    rcases completeForcedPasswordReset_cases with ⟨e, herror⟩ | ⟨-, hok⟩
    · rw [herror] at hisOk
      cases hisOk
    · obtain ⟨response, after, hproceed, hafter⟩ := proceedToMfa_apply
        { session with pendingPasswordResetUserId := none } userId
        (db.updatePassword userId (env.hashPassword newPassword))
      refine .inr ⟨userId, response, after, rfl, ?_, hafter⟩
      unfold forcedPasswordReset
      rw [hpending]
      dsimp only
      rw [if_neg (not_not_intro rfl), bind_apply_of_ok (serviceErrorCode_of_ok hok)]
      exact hproceed

end Flags

namespace ResetWorld

variable {env} {w w' : ResetWorld} {cookie : ResetCookie} {presented : Option ResetCookie}

/-- A marker that no password of its user has been set after stands for a flagged user. -/
def Marks (w : ResetWorld) (cookie : ResetCookie) : Prop :=
  cookie.markedAfter ≤ w.passwordsSet.length ∧ ∀ userId ∈ cookie.session.pendingPasswordResetUserId,
    userId ∉ w.passwordsSet.drop cookie.markedAfter → w.db.Flagged userId

/-- Passwords are set, and only their owners may lose the flag. -/
def Grows (w w' : ResetWorld) : Prop :=
  ∃ cleared, w'.passwordsSet = w.passwordsSet ++ cleared ∧ w.db.KeepsFlags cleared w'.db

theorem Marks.grows (h : w.Marks cookie) (hgrows : w.Grows w') : w'.Marks cookie := by
  obtain ⟨cleared, hset, hkeeps⟩ := hgrows
  obtain ⟨hle, hmarks⟩ := h
  refine ⟨by rw [hset, length_append]; omega, fun userId hpending hnot => ?_⟩
  rw [hset, drop_append_of_le_length hle, mem_append, not_or] at hnot
  exact hkeeps userId hnot.2 (hmarks userId hpending hnot.1)

theorem marks_present (h : ∀ cookie ∈ w.issued, w.Marks cookie) (presented : Option ResetCookie) :
    w.Marks (w.present presented) := by
  unfold present
  cases hfilter : presented.filter (· ∈ w.issued) with
  | none => exact ⟨Nat.zero_le _, fun userId hpending => by cases hpending⟩
  | some cookie =>
    have hmem := (Option.filter_eq_some_iff.mp hfilter).2
    exact h cookie (by simpa using hmem)

theorem marks_respond (h : ∀ cookie ∈ w.issued, w.Marks cookie) {markedAfter : Nat}
    (hnew : w.Marks { session, markedAfter }) : ∀ cookie ∈ (w.respond session markedAfter).issued,
      (w.respond session markedAfter).Marks cookie := by
  unfold respond
  split_ifs
  · exact h
  · intro cookie hcookie
    rcases mem_cons.mp hcookie with rfl | hold
    · exact hnew
    · exact h cookie hold

theorem marks_serve {call : Service Unit} {sets : Option Id} {P : Db → Prop} (h : ∀ cookie ∈ w.issued, w.Marks cookie)
    (hspec : call.Ensures w.db (OrUnchanged w.db P)) (hP : ∀ db, P db → w.db.KeepsFlags sets.toList db) :
    ∀ cookie ∈ (w.serve call sets).issued, (w.serve call sets).Marks cookie := by
  unfold serve
  cases hcall : call w.db with
  | mk result db =>
    rw [Ensures, hcall] at hspec
    cases result with
    | ok result => exact fun cookie hcookie => (h cookie hcookie).grows ⟨sets.toList, rfl, hP db hspec⟩
    | error e =>
      obtain rfl : db = w.db := hspec
      exact h

theorem marks_login (h : ∀ cookie ∈ w.issued, w.Marks cookie)
    {request : LoginRequest} : ∀ cookie ∈ (w.step env (.login presented request)).issued,
      (w.step env (.login presented request)).Marks cookie := by
  have hpresent := marks_present h presented
  unfold step
  rcases @login_cases env (w.present presented).session request w.db with
    ⟨response, hlogin, hresponse⟩ | ⟨user, huser, hlogin⟩
  · simp only [hlogin, if_neg hresponse]
    exact marks_respond h hpresent
  · simp only [hlogin]
    have hgrows : w.Grows { w with db := w.db.updateLastLogin user.id } :=
      ⟨[], (append_nil _).symm, Db.keepsFlags_updateUser (by exact fun _ => rfl) (by exact fun _ h => h) _⟩
    refine marks_respond (w := { w with db := w.db.updateLastLogin user.id })
      (fun cookie hcookie => (h cookie hcookie).grows hgrows) ?_
    unfold passwordStep
    by_cases hreset : user.passwordResetRequired = true
    · rw [if_pos hreset]
      -- the marker is set for the user just read, whose row still bears the flag
      refine ⟨le_refl _, fun userId hpending _ found hfound => ?_⟩
      obtain rfl := Option.some.inj hpending
      rw [getUserById_updateLastLogin huser] at hfound
      obtain rfl := Option.some.inj hfound
      exact hreset
    · rw [if_neg hreset]
      exact hpresent.grows hgrows

theorem marks_forcedPasswordReset (h : ∀ cookie ∈ w.issued, w.Marks cookie) {newPassword : Text} :
    ∀ cookie ∈ (w.step env (.forcedPasswordReset presented newPassword newPasswordConfirm)).issued,
      (w.step env (.forcedPasswordReset presented newPassword newPasswordConfirm)).Marks cookie := by
  have hpresent := marks_present h presented
  unfold step
  rcases @forcedPasswordReset_cases env (w.present presented).session newPassword newPasswordConfirm w.db with
    ⟨htarget, result, hform, hafter⟩ | ⟨userId, response, after, htarget, hform, hafter⟩
  · simp only [htarget, hform]
    cases result with
    | error e => exact h
    | ok result =>
      obtain ⟨response, after⟩ := result
      obtain rfl := hafter response after rfl
      rw [Option.toList_none, append_nil]
      exact marks_respond h hpresent
  · simp only [htarget, hform]
    have hgrows : w.Grows { w with
        db := w.db.updatePassword userId (env.hashPassword newPassword)
        passwordsSet := w.passwordsSet ++ [userId] } :=
      ⟨[userId], rfl, Db.keepsFlags_updatePassword⟩
    refine marks_respond (w := { w with
        db := w.db.updatePassword userId (env.hashPassword newPassword)
        passwordsSet := w.passwordsSet ++ [userId] })
      (fun cookie hcookie => (h cookie hcookie).grows hgrows) ⟨(hpresent.grows hgrows).1, ?_⟩
    intro other hpending
    rw [hafter] at hpending
    cases hpending

theorem marks_step (h : ∀ cookie ∈ w.issued, w.Marks cookie) {event : ResetEvent} :
    ∀ cookie ∈ (w.step env event).issued, (w.step env event).Marks cookie := by
  cases event with
  | login => exact marks_login h
  | forcedPasswordReset =>
    exact marks_forcedPasswordReset h
  | request presented others keepsMarker =>
    have hpresent := marks_present h presented
    refine marks_respond h ⟨hpresent.1, fun userId hpending hnot => ?_⟩
    cases keepsMarker with
    | true => exact hpresent.2 userId hpending hnot
    | false => cases hpending
  | changePassword =>
    refine marks_serve h (changePassword_spec env) ?_
    rintro _ rfl
    exact Db.keepsFlags_updatePassword
  | completeSelfServicePasswordReset =>
    refine marks_serve h (completeSelfServicePasswordReset_spec env) ?_
    rintro _ rfl
    exact Db.keepsFlags_updatePassword.trans (.of_users rfl _)
  | setPassword userId passwordHash =>
    refine marks_serve h rfl ?_
    rintro _ rfl
    exact Db.keepsFlags_updatePassword
  | forcePasswordReset user targetUserId =>
    refine marks_serve h forcePasswordReset_spec ?_
    rintro _ ⟨-, rfl⟩
    exact Db.keepsFlags_updateUser (by exact fun _ => rfl) (by exact fun _ _ => rfl) _
  | bulkSetPasswordResetRequired userIds =>
    exact fun cookie hcookie => (h cookie hcookie).grows
      ⟨[], (append_nil _).symm, Db.keepsFlags_bulkSet userIds [] w.db⟩
  | inactivateUser user userId =>
    refine marks_serve h inactivateUser_spec ?_
    rintro _ ⟨-, rfl⟩
    refine Db.keepsFlags_updateUser ?_ ?_ _
    · intro u
      split_ifs
      · rfl
      · rfl
    · intro u hflag
      split_ifs
      · exact hflag
      · exact hflag
  | reactivateUser user userId =>
    refine marks_serve h reactivateUser_spec ?_
    rintro _ ⟨-, rfl⟩
    have hreactivate : w.db.KeepsFlags [] (w.db.reactivateUser userId) := by
      refine Db.keepsFlags_updateUser ?_ ?_ _
      · intro u
        split_ifs
        · rfl
        · rfl
      · intro u hflag
        split_ifs
        · exact hflag
        · exact hflag
    exact hreactivate.trans (Db.keepsFlags_updateUser (by exact fun _ => rfl) (by exact fun _ h => h) _)
  | wait micros =>
    exact fun cookie hcookie => (h cookie hcookie).grows ⟨[], (append_nil _).symm, .of_users rfl _⟩

/-- Whatever cookies are presented, the reset form sets only passwords of flagged users, provided that no
marker is used after its user's password was set anew. -/
theorem forced_reset_sets_flagged_passwords (env : Env) {w : ResetWorld} (hstart : w.issued = [])
    (events : List ResetEvent) (hcurrent : Along (step env) MarkerCurrent w events) :
    Along (step env) (Authorised env) w events := by
  refine along_of_invariant (I := fun w => ∀ cookie ∈ w.issued, w.Marks cookie)
    (fun w event h _ => marks_step h) ?_ (by simp [hstart]) hcurrent
  intro w event h hmarker userId hresets
  cases event with
  | forcedPasswordReset presented =>
    obtain ⟨hpending, rfl, hisOk⟩ := resetTarget_eq_some.mp hresets
    have hflagged : w.db.Flagged userId :=
      (marks_present h presented).2 userId hpending (hmarker userId hpending)
    rcases completeForcedPasswordReset_cases with ⟨e, herror⟩ | ⟨⟨user, huser⟩, -⟩
    · rw [herror] at hisOk
      cases hisOk
    · exact ⟨user, huser, hflagged user huser⟩
  | _ => cases hresets

def flaggedTenant : ResetWorld where
  db := {
    nextId := 10
    users := [{ id := 1, passwordHash := some (Env.ascii.hashPassword "old"), passwordResetRequired := true }]
    userEmails := [{ id := 2, userId := 1, email := "ann@x.io", isPrimary := true, verifiedAt := some 0 }] }

def markedCookie : ResetCookie where
  session := { pendingPasswordResetUserId := some 1 }
  markedAfter := 0

def resetOnce : List ResetEvent :=
  [.login none { email := "ann@x.io", password := "old" },
    .forcedPasswordReset (some markedCookie) "new" "new"]

/-- The cookie from before the reset is kept and sets the password once more. -/
theorem replayed_marker_sets_password_again : ¬ Along (step Env.ascii) (Authorised Env.ascii) flaggedTenant
      (resetOnce ++ [.forcedPasswordReset (some markedCookie) "newer" "newer"]) := by
  intro h
  obtain ⟨user, huser, hflag⟩ := h resetOnce _ [] rfl 1 (by decide +kernel)
  have hcleared : ∀ user ∈ (run (step Env.ascii) flaggedTenant resetOnce).db.getUserById 1,
      user.passwordResetRequired = false := by decide +kernel
  rw [hcleared user huser] at hflag
  cases hflag

theorem first_reset_authorised : Along (step Env.ascii) (Authorised Env.ascii) flaggedTenant resetOnce :=
  forced_reset_sets_flagged_passwords Env.ascii rfl resetOnce (by decide +kernel)

end ResetWorld

end WeftId
