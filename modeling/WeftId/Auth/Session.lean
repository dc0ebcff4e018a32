import WeftId.Users.State

/-!
Browser sessions.  A session is a signed cookie; the server keeps only a list of revoked session
identifiers, and looks at the user's row each time a session is used.
-/

namespace WeftId

open Proc

structure Session where
  userId : Option Id := none
  sessionStart : Option Nat := none
  maxAge : Option Nat := none
  sid : Option Id := none
  pendingPasswordResetUserId : Option Id := none
  pendingMfaUserId : Option Id := none
  pendingMfaMethod : Option MfaMethod := none
  pendingTimezone : Option Text := none
  pendingLocale : Option Text := none
  pendingEnhancedEnrollmentUserId : Option Id := none
  pendingMfaDowngrade : Bool := false
  webauthnRegChallenge : Option Text := none
  webauthnRegChallengeAt : Option Nat := none
  webauthnLoginChallenge : Option Text := none
  webauthnLoginChallengeAt : Option Nat := none
  pendingPasskeyUserId : Option Id := none
  deriving DecidableEq

inductive Response
  | page (template : String) (error : Option String := none) (context : List (String × Text) := [])
  | redirect (url : String)
  | json (statusCode : Nat) (error : Option String := none) (content : List (String × Text) := [])
  deriving DecidableEq

namespace Db

def updateLastLogin (db : Db) (userId : Id) : Db := db.updateUser userId fun u => { u with lastLogin := some db.now }

def isSessionRevoked (db : Db) (sid : Id) : Bool := db.revokedSessions.any (·.sid = sid)

def revokeSession (db : Db) (sid : Id) : Db :=
  if db.isSessionRevoked sid then db
  else { db with revokedSessions := db.revokedSessions ++ [{ sid, revokedAt := db.now }] }

def wait (db : Db) (micros : Nat) : Db := { db with now := db.now + micros }

def sessionTimedOut (db : Db) (sessionStart : Option Nat) : Bool :=
  (sessionStart.filter (· ≠ 0)).any fun start =>
    ((db.securitySettings.bind (·.sessionTimeoutSeconds)).filter (· ≠ 0)).any fun timeout => db.time - start > timeout

end Db

def newSessionId : Service Id := do
  let sid ← read (·.nextId)
  write fun db => { db with nextId := db.nextId + 1 }
  pure sid

def ensureSessionId (session : Session) : Service Session :=
  match session.sid with
  | some _ => pure session
  | none => do
    let sid ← newSessionId
    pure { session with sid := some sid }

def User.Blocked (user : User) : Prop := user.isInactivated ∨ user.passwordResetRequired
  deriving Decidable

def getCurrentUser (session : Session) : Service (Option User × Session) :=
  match session.userId with
  | none => pure (none, session)
  | some userId => do
    let timedOut ← read (·.sessionTimedOut session.sessionStart)
    let revoked ← read fun db => session.sid.any db.isSessionRevoked
    if timedOut ∨ revoked then pure (none, {})
    else do
      let session ← ensureSessionId session
      let user ← read (·.getUserById userId)
      if ∃ u ∈ user, u.Blocked then pure (none, {}) else pure (user, session)

variable {session : Session}

theorem ensureSessionId_apply {db : Db} :
    ∃ after nextId, ensureSessionId session db = (.ok after, { db with nextId }) ∧ db.nextId ≤ nextId ∧
      (after = session ∨ session.sid = none ∧ after = { session with sid := some db.nextId } ∧ db.nextId < nextId) := by
  unfold ensureSessionId
  cases hsid : session.sid with
  | some sid => exact ⟨session, db.nextId, rfl, Nat.le_refl _, .inl rfl⟩
  | none => exact ⟨_, db.nextId + 1, rfl, Nat.le_succ _, .inr ⟨rfl, rfl, Nat.lt_succ_self _⟩⟩

/-- What using a session can do: the session is kept, dropped or given an identifier, and a user is
returned only if the row is not blocked and the session is not revoked. -/
theorem getCurrentUser_apply {db : Db} :
    ∃ user after nextId, getCurrentUser session db = (.ok (user, after), { db with nextId }) ∧ db.nextId ≤ nextId ∧
      (after = session ∨ after = {} ∨
        session.sid = none ∧ after = { session with sid := some db.nextId } ∧ db.nextId < nextId) ∧
      ∀ u, user = some u → session.userId = some u.id ∧ db.getUserById u.id = some u ∧ ¬ u.Blocked ∧
        ∀ sid, session.sid = some sid → db.isSessionRevoked sid = false := by
  unfold getCurrentUser
  cases huser : session.userId with
  | none => exact ⟨none, session, db.nextId, rfl, Nat.le_refl _, .inl rfl, by simp⟩
  | some userId =>
    dsimp only
    rw [read_bind_apply, read_bind_apply]
    by_cases hover : db.sessionTimedOut session.sessionStart = true ∨ session.sid.any db.isSessionRevoked = true
    · rw [if_pos hover]
      exact ⟨none, {}, db.nextId, rfl, Nat.le_refl _, .inr (.inl rfl), by simp⟩
    · rw [if_neg hover]
      obtain ⟨after, nextId, hensure, hle, hafter⟩ := ensureSessionId_apply
      rw [huser] at hafter
      rw [bind_apply_of_ok hensure, read_bind_apply]
      have hget : ({ db with nextId } : Db).getUserById userId = db.getUserById userId := rfl
      rw [hget]
      by_cases hblocked : ∃ u ∈ db.getUserById userId, u.Blocked
      · rw [if_pos hblocked]
        exact ⟨none, {}, nextId, rfl, hle, .inr (.inl rfl), by simp⟩
      · rw [if_neg hblocked]
        refine ⟨db.getUserById userId, after, nextId, rfl, hle, hafter.imp_right .inr, fun u hu => ?_⟩
        have hid : u.id = userId := by simpa using List.find?_some hu
        refine ⟨by rw [hid], by rw [hid, hu], fun hb => hblocked ⟨u, hu, hb⟩, fun sid hsid => ?_⟩
        by_contra hrevoked
        rw [Bool.not_eq_false] at hrevoked
        exact hover (.inr (by rw [hsid]; exact hrevoked))

def regenerateSession (userId : Id) (maxAge : Option Nat) : Service Session := do
  let sessionStart ← read (·.time)
  let sid ← newSessionId
  pure { userId := some userId, sessionStart := some sessionStart, maxAge, sid := some sid }

def Db.sessionMaxAge (db : Db) : Option Nat :=
  let settings := db.securitySettings.getD {}
  if ¬ settings.persistentSessions then none
  else some ((settings.sessionTimeoutSeconds.filter (· ≠ 0)).getD (30 * 24 * 3600))

def completeAuthenticatedLogin (session : Session) (userId : Id) (timezone locale : Text) :
    Service (Response × Session) := do
  let timezone := if timezone = [] then session.pendingTimezone.getD [] else timezone
  let locale := if locale = [] then session.pendingLocale.getD [] else locale
  let maxAge ← read (·.sessionMaxAge)
  let session ← regenerateSession userId maxAge
  write (·.updateUser userId fun u => { u with
    tz := if timezone = [] then u.tz else some timezone
    locale := if locale = [] then u.locale else some locale })
  write (·.updateLastLogin userId)
  pure (.redirect "/dashboard", session)

end WeftId
