import WeftId.Auth.Session
import WeftId.Lib.Run

/-!
Sessions that an inactivation or a forced password reset cuts off.  The cut-off is only a flag on the
user's row: a session that makes a request while the flag is set is dropped, one that stays idle until
the flag is cleared lives on.
-/

namespace WeftId

open List Proc Run

structure Web where
  db : Db
  sessions : Nat → Session := fun _ => {}

inductive WebEvent
  | signIn (browser : Nat) (userId : Id)
  | request (browser : Nat)
  | inactivateUser (user : RequestingUser) (userId : Id)
  | reactivateUser (user : RequestingUser) (userId : Id)
  | forcePasswordReset (user : RequestingUser) (targetUserId : Id)
  | completeForcedPasswordReset (userId : Id) (newPassword : Text)
  | wait (micros : Nat)

def Db.Blocked (db : Db) (userId : Id) : Prop := ∃ u, db.getUserById userId = some u ∧ u.Blocked

theorem Db.Blocked.updateUser {db : Db} {userId target : Id} {f : User → User} (h : db.Blocked userId)
    (hid : ∀ u, (f u).id = u.id)
    (hf : target = userId → ∀ u, db.getUserById userId = some u → u.Blocked → (f u).Blocked) :
    (db.updateUser target f).Blocked userId := by
  obtain ⟨u, hu, hblocked⟩ := h
  by_cases htarget : userId = target
  · refine ⟨f u, ?_, hf htarget.symm u hu hblocked⟩
    rw [getUserById_updateUser hid, if_pos htarget, hu, Option.map_some]
  · refine ⟨u, ?_, hblocked⟩
    rw [getUserById_updateUser hid, if_neg htarget, hu]

namespace Web

variable (env : Env)

def withSession {α : Type} (w : Web) (browser : Nat) (call : Session → Service (α × Session)) : Web :=
  match call (w.sessions browser) w.db with
  | (.ok (_, session), db) => { db, sessions := Function.update w.sessions browser session }
  | (.error _, db) => { w with db }

def step (w : Web) : WebEvent → Web
  | .signIn browser userId => w.withSession browser fun session => completeAuthenticatedLogin session userId [] []
  | .request browser => w.withSession browser getCurrentUser
  | .inactivateUser user userId => { w with db := (WeftId.inactivateUser user userId).exec w.db }
  | .reactivateUser user userId => { w with db := (WeftId.reactivateUser user userId).exec w.db }
  | .forcePasswordReset user userId => { w with db := (WeftId.forcePasswordReset user userId).exec w.db }
  | .completeForcedPasswordReset userId newPassword =>
    { w with db := (WeftId.completeForcedPasswordReset env userId newPassword).exec w.db }
  | .wait micros => { w with db := { w.db with now := w.db.now + micros } }

def CutsOff (userId : Id) (w : Web) : WebEvent → Prop
  | .inactivateUser user target => target = userId ∧ (WeftId.inactivateUser user target w.db).1 = .ok ()
  | .forcePasswordReset user target => target = userId ∧ (WeftId.forcePasswordReset user target w.db).1 = .ok ()
  | _ => False

def Lifts (userId : Id) (w : Web) : WebEvent → Prop
  | .reactivateUser user target => target = userId ∧ (WeftId.reactivateUser user target w.db).1 = .ok () ∧
      ∃ u, w.db.getUserById userId = some u ∧ u.isInactivated ∧ ¬ u.passwordResetRequired
  | .completeForcedPasswordReset target newPassword => target = userId ∧
      (WeftId.completeForcedPasswordReset env target newPassword w.db).1 = .ok () ∧
      ∃ u, w.db.getUserById userId = some u ∧ u.passwordResetRequired ∧ ¬ u.isInactivated
  | _ => False

def currentUser (w : Web) (browser : Nat) : Option User :=
  match (getCurrentUser (w.sessions browser) w.db).1 with
  | .ok (user, _) => user
  | .error _ => none

def NoSignIn (browser : Nat) (events : List WebEvent) : Prop :=
  ∀ userId, .signIn browser userId ∉ events

variable {env} {w : Web} {userId : Id} {browser : Nat} {event : WebEvent}

theorem currentUser_id (h : w.db.Blocked userId ∨ (w.sessions browser).userId ≠ some userId) :
    ∀ u, w.currentUser browser = some u → u.id ≠ userId := by
  rintro u hu rfl
  obtain ⟨user, after, nextId, hcall, -, -, huser⟩ := getCurrentUser_apply
  rw [currentUser, hcall] at hu
  obtain ⟨hsession, hrow, hfree, -⟩ := huser u hu
  rcases h with ⟨u', hrow', hblocked⟩ | hother
  · rw [hrow] at hrow'
    obtain rfl := Option.some.inj hrow'
    exact hfree hblocked
  · exact hother hsession

theorem CutsOff.blocked (h : CutsOff userId w event) : (w.step env event).db.Blocked userId := by
  cases event with
  | inactivateUser user target =>
    obtain ⟨rfl, hok⟩ := h
    obtain ⟨⟨u, hu, hactive⟩, hdb⟩ := (inactivateUser_spec).of_ok hok
    rw [step, hdb]
    have hrow := Db.getUserById_updateUser_self (fun u : User =>
      if u.isInactivated then u else { u with isInactivated := true, inactivatedAt := some w.db.now })
      (fun u => by split_ifs <;> rfl) hu
    rw [if_neg hactive] at hrow
    exact ⟨_, hrow, .inl rfl⟩
  | forcePasswordReset user target =>
    obtain ⟨rfl, hok⟩ := h
    obtain ⟨⟨u, hu, -⟩, hdb⟩ := (forcePasswordReset_spec).of_ok hok
    rw [step, hdb]
    have hrow := Db.getUserById_updateUser_self (fun u : User => { u with passwordResetRequired := true })
      (fun _ => rfl) hu
    exact ⟨_, hrow, .inr rfl⟩
  | signIn | request | reactivateUser | completeForcedPasswordReset | wait => exact h.elim

theorem withSession_of_ok {α : Type} {call : Session → Service (α × Session)} {a : α} {session : Session} {db : Db}
    (h : call (w.sessions browser) w.db = (.ok (a, session), db)) :
    w.withSession browser call = { db, sessions := Function.update w.sessions browser session } := by
  rw [withSession, h]

theorem step_request {env : Env} : ∃ session nextId, w.step env (.request browser) =
      { db := { w.db with nextId }, sessions := Function.update w.sessions browser session } ∧
    (session.userId = (w.sessions browser).userId ∨ session.userId = none) := by
  obtain ⟨user, after, nextId, hcall, -, hafter, -⟩ := getCurrentUser_apply
  refine ⟨after, nextId, withSession_of_ok hcall, ?_⟩
  rcases hafter with rfl | rfl | ⟨-, rfl, -⟩
  · exact .inl rfl
  · exact .inr rfl
  · exact .inl rfl

theorem blocked_step (h : w.db.Blocked userId) (hevent : ¬ Lifts env userId w event) :
    (w.step env event).db.Blocked userId := by
  cases event with
  | signIn =>
    rw [step]
    refine Db.Blocked.updateUser (Db.Blocked.updateUser ?_ (fun _ => rfl) fun _ _ _ hu => hu) (fun _ => rfl)
      fun _ _ _ hu => hu
    exact h
  | request =>
    obtain ⟨session, nextId, hstep, -⟩ := step_request
    rw [hstep]
    exact h
  | inactivateUser user target =>
    rcases (inactivateUser_spec).exec_or with hdb | ⟨-, hdb⟩ <;> rw [step, hdb]
    · exact h
    · refine Db.Blocked.updateUser h (fun u => by split_ifs <;> rfl) fun _ u _ hu => ?_
      split_ifs
      · exact hu
      · exact .inl rfl
  | reactivateUser =>
    rcases reactivateUser_spec.exec_cases with hdb | ⟨⟨_, hok⟩, ⟨u, hu, hinactive⟩, hdb⟩ <;>
      rw [step, hdb]
    · exact h
    · refine Db.Blocked.updateUser (Db.Blocked.updateUser h (fun u => by split_ifs <;> rfl) ?_) (fun _ => rfl)
        fun _ _ _ hu => hu
      rintro rfl u' hu' -
      have hreset : u'.passwordResetRequired = true := by
        by_contra hreset
        rw [hu'] at hu
        obtain rfl := Option.some.inj hu
        exact hevent ⟨rfl, hok, u', hu', hinactive, hreset⟩
      split_ifs
      · exact .inr hreset
      · exact .inr hreset
  | forcePasswordReset user target =>
    rcases (forcePasswordReset_spec).exec_or with hdb | ⟨-, hdb⟩ <;> rw [step, hdb]
    · exact h
    · exact Db.Blocked.updateUser h (fun _ => rfl) fun _ _ _ _ => .inr rfl
  | completeForcedPasswordReset target newPassword =>
    rcases (completeForcedPasswordReset_spec env target newPassword w.db).exec_cases with hdb | ⟨⟨_, hok⟩, hdb⟩ <;>
      rw [step, hdb]
    · exact h
    · refine Db.Blocked.updateUser h (fun _ => rfl) ?_
      rintro rfl u hu hblocked
      left
      by_contra hactive
      exact hevent ⟨rfl, hok, u, hu, hblocked.resolve_left hactive, hactive⟩
  | wait micros => exact h

theorem step_session {env : Env} (hevent : ∀ user, event ≠ .signIn browser user) :
    ((w.step env event).sessions browser).userId = (w.sessions browser).userId ∨
      ((w.step env event).sessions browser).userId = none := by
  cases event with
  | signIn other user =>
    have hne : browser ≠ other := fun hb => hevent user (by rw [hb])
    exact .inl (congrArg Session.userId (Function.update_of_ne hne _ _))
  | request other =>
    obtain ⟨session, nextId, hstep, hsession⟩ := step_request
    rw [hstep]
    by_cases hb : browser = other
    · subst hb
      simpa only [Function.update_self] using hsession
    · exact .inl (congrArg Session.userId (Function.update_of_ne hb _ _))
  | inactivateUser | reactivateUser | forcePasswordReset | completeForcedPasswordReset | wait => exact .inl rfl

/-- The browser's session from before the cut-off is of no use. -/
def OutOfReach (userId : Id) (browser : Nat) (w : Web) : Prop :=
  w.db.Blocked userId ∨ (w.sessions browser).userId ≠ some userId

theorem OutOfReach.step (h : OutOfReach userId browser w) (hsign : ∀ user, event ≠ .signIn browser user)
    (hlift : Lifts env userId w event → (w.sessions browser).userId ≠ some userId) :
    OutOfReach userId browser (w.step env event) := by
  have hkept : (w.sessions browser).userId ≠ some userId →
      ((w.step env event).sessions browser).userId ≠ some userId := by
    intro hne heq
    rcases step_session hsign with hsame | hnone
    · exact hne (hsame ▸ heq)
    · rw [hnone] at heq
      cases heq
  by_cases hlifts : Lifts env userId w event
  · exact .inr (hkept (hlift hlifts))
  · rcases h with hblocked | hne
    · exact .inl (blocked_step hblocked hlifts)
    · exact .inr (hkept hne)

variable {events : List WebEvent}

/-- Whenever the last block on the user is lifted, no browser holds a session of the user that was signed
in before a cut-off. -/
def IdleSessionsGone (env : Env) (userId : Id) (w : Web) (events : List WebEvent) : Prop :=
  ∀ before cutOff between lift after, events = before ++ cutOff :: between ++ lift :: after →
    CutsOff userId (run (step env) w before) cutOff →
    Lifts env userId (run (step env) w (before ++ cutOff :: between)) lift →
    ∀ browser, NoSignIn browser between →
      ((run (step env) w (before ++ cutOff :: between)).sessions browser).userId ≠ some userId

theorem outOfReach_run (h : IdleSessionsGone env userId w events) {before : List WebEvent} {cutOff : WebEvent}
    {between after : List WebEvent} (hevents : events = before ++ cutOff :: between ++ after)
    (hcut : CutsOff userId (run (step env) w before) cutOff) (hsign : NoSignIn browser between) :
    OutOfReach userId browser (run (step env) w (before ++ cutOff :: between)) := by
  induction between using reverseRecOn generalizing after with
  | nil =>
    rw [run_append]
    exact .inl hcut.blocked
  | append_singleton between event ih =>
    have hsplit : events = before ++ cutOff :: between ++ event :: after := by
      rw [hevents]
      simp
    have hbetween : NoSignIn browser between := fun user hmem => hsign user (mem_append_left _ hmem)
    have hevent : ∀ user, event ≠ .signIn browser user := by
      rintro user rfl
      exact hsign user (mem_append_right _ mem_cons_self)
    have hreach := ih hsplit hbetween
    rw [← cons_append, ← append_assoc, run_append]
    exact hreach.step hevent fun hlift => h before cutOff between event after hsplit hcut hlift browser hbetween

/-- In every run in which blocks are lifted only when no idle session from before the cut-off is left, a
session from before a cut-off is never again answered for the user. -/
theorem cut_off_sessions_stay_cut_off (h : IdleSessionsGone env userId w events) :
    ∀ before cutOff between after, events = before ++ cutOff :: between ++ after →
      CutsOff userId (run (step env) w before) cutOff → ∀ browser, NoSignIn browser between →
      ∀ u, (run (step env) w (before ++ cutOff :: between)).currentUser browser = some u → u.id ≠ userId := by
  intro before cutOff between after hevents hcut browser hsign
  exact currentUser_id (outOfReach_run h hevents hcut hsign)

theorem idleSessionsGone_of_along (h : Along (step env) (fun w event => Lifts env userId w event →
    ∀ browser, (w.sessions browser).userId ≠ some userId) w events) : IdleSessionsGone env userId w events :=
  fun before cutOff between lift after hevents _ hlift browser _ =>
    h (before ++ cutOff :: between) lift after hevents hlift browser

def cutOffTenant : Web where
  db := { nextId := 10, users := [{ id := 1, role := .admin }, { id := 2 }] }

/-- Ada's browser stays idle while Ada is inactivated and reactivated; its old session still works. -/
theorem idle_session_survives :
    CutsOff 2 (run (step Env.ascii) cutOffTenant [.signIn 0 2]) (.inactivateUser ⟨1, .admin⟩ 2) ∧
      NoSignIn 0 [.reactivateUser ⟨1, .admin⟩ 2] ∧
      ((run (step Env.ascii) cutOffTenant ([.signIn 0 2] ++ .inactivateUser ⟨1, .admin⟩ 2 ::
        [.reactivateUser ⟨1, .admin⟩ 2])).currentUser 0).map (·.id) = some 2 := by
  refine ⟨⟨rfl, by rfl⟩, ?_, by decide⟩
  intro user hmem
  cases mem_singleton.mp hmem

/-- When Ada's browser made a request in between, its session is gone after the reactivation. -/
theorem used_session_stays_cut_off :
    ((run (step Env.ascii) cutOffTenant ([.signIn 0 2] ++ .inactivateUser ⟨1, .admin⟩ 2 ::
      [.request 0, .reactivateUser ⟨1, .admin⟩ 2])).currentUser 0).map (·.id) ≠ some 2 := by
  intro hcurrent
  obtain ⟨u, hu, hid⟩ := Option.map_eq_some_iff.mp hcurrent
  refine cut_off_sessions_stay_cut_off (idleSessionsGone_of_along ?_) [.signIn 0 2]
    (.inactivateUser ⟨1, .admin⟩ 2) [.request 0, .reactivateUser ⟨1, .admin⟩ 2] [] rfl ⟨rfl, by rfl⟩
    0 ?_ u hu hid
  · simp only [cons_append, nil_append, along_cons]
    refine ⟨fun h => h.elim, fun h => h.elim, fun h => h.elim, fun _ browser => ?_, along_nil⟩
    cases browser with
    | zero => decide
    | succ => exact nofun
  · intro user hmem
    simp at hmem

end Web

end WeftId
