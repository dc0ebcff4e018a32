import WeftId.Auth.Session
import WeftId.Lib.Run

/-!
Signed session cookies and the list of revoked sessions.  Every response signs a non-empty session again,
so a cookie that is only shown to pages which never ask for the signed-in user stays fresh for as long as
somebody keeps presenting it, while the sweep forgets the revocation after fifteen days.
-/

namespace WeftId

open List Proc Run

structure Cookie where
  session : Session
  signedAt : Nat
  deriving DecidableEq

def cookieMaxAge : Nat := 14 * 24 * 3600

def revocationRetention : Nat := 15 * 24 * 3600 * 1000000

namespace Db

def cookieExpired (db : Db) (cookie : Cookie) : Bool := db.time - cookie.signedAt > cookieMaxAge

def loadSession (db : Db) : Option Cookie → Session
  | none => {}
  | some cookie => if db.cookieExpired cookie then {} else cookie.session

def purgeRevokedSessions (db : Db) : Db :=
  { db with revokedSessions := db.revokedSessions.filter fun row => ¬ row.revokedAt + revocationRetention < db.now }

end Db

/-- What a request does with its session.  Handlers may write other keys at will; the user, the start and
the identifier of a session are set by sign-ins only. -/
inductive Handler
  | signIn (userId : Id)
  | authenticated (others : Session)
  | anonymous (others : Session)
  | logout

def Session.withOthers (session others : Session) : Session :=
  { others with
    userId := session.userId, sessionStart := session.sessionStart, maxAge := session.maxAge, sid := session.sid }

def terminateSession (session : Session) : Service Session := do
  match session.userId, session.sid with
  | some _, some sid => write (·.revokeSession sid)
  | _, _ => pure ()
  pure {}

def Handler.run (session : Session) : Handler → Service Session
  | .signIn userId => do
    let (_, session) ← completeAuthenticatedLogin session userId [] []
    pure session
  | .authenticated others => do
    let (_, session) ← getCurrentUser session
    pure (session.withOthers others)
  | .anonymous others => pure (session.withOthers others)
  | .logout => terminateSession session

structure CookieSystem where
  db : Db
  issued : List Cookie := []

inductive CookieEvent
  | request (cookie : Option Cookie) (handler : Handler)
  | backchannelLogout (sid : Id)
  | sweep
  | wait (micros : Nat)

namespace CookieSystem

def present (x : CookieSystem) (cookie : Option Cookie) : Session :=
  x.db.loadSession (cookie.filter (· ∈ x.issued))

def respond (x : CookieSystem) (session : Session) (db : Db) : CookieSystem where
  db
  issued := if session = {} then x.issued else { session, signedAt := db.time } :: x.issued

def step (x : CookieSystem) : CookieEvent → CookieSystem
  | .request cookie handler =>
    match handler.run (x.present cookie) x.db with
    | (.ok session, db) => x.respond session db
    | (.error _, db) => { x with db }
  | .backchannelLogout sid =>
    if x.issued.any (·.session.sid = some sid) then { x with db := x.db.revokeSession sid } else x
  | .sweep => { x with db := x.db.purgeRevokedSessions }
  | .wait micros => { x with db := { x.db with now := x.db.now + micros } }

def Revokes (sid : Id) (x : CookieSystem) : CookieEvent → Prop
  | .request cookie .logout => (x.present cookie).sid = some sid ∧ (x.present cookie).userId.isSome
  | .backchannelLogout other => other = sid ∧ ∃ cookie ∈ x.issued, cookie.session.sid = some sid
  | _ => False

/-- The user that `get_current_user` returns when the cookie is presented. -/
def currentUser (x : CookieSystem) (cookie : Cookie) : Option User :=
  match (getCurrentUser (x.present (some cookie)) x.db).1 with
  | .ok (user, _) => user
  | .error _ => none

def SweepSafe (x : CookieSystem) : CookieEvent → Prop
  | .sweep => ∀ row ∈ x.db.revokedSessions, row.revokedAt + revocationRetention < x.db.now →
      ∀ cookie ∈ x.issued, cookie.session.sid = some row.sid → x.db.cookieExpired cookie
  | _ => True

def Minted (x : CookieSystem) : Prop := ∀ cookie ∈ x.issued, ∀ sid, cookie.session.sid = some sid → sid < x.db.nextId

/-- No cookie that carries the identifier is of use. -/
def Retired (sid : Id) (x : CookieSystem) : Prop :=
  x.db.isSessionRevoked sid = true ∨ ∀ cookie ∈ x.issued, cookie.session.sid = some sid →
    x.db.cookieExpired cookie = true

variable {x : CookieSystem} {sid : Id} {cookie : Cookie} {event : CookieEvent} {session : Session} {db : Db}

theorem isSessionRevoked_revokeSession (db : Db) (sid other : Id) :
    (db.revokeSession sid).isSessionRevoked other = (db.isSessionRevoked other || decide (sid = other)) := by
  unfold Db.revokeSession
  split_ifs with hlisted
  · by_cases hsid : sid = other
    · rw [← hsid, hlisted, Bool.true_or]
    · simp [hsid]
  · simp [Db.isSessionRevoked]

theorem run_handler (handler : Handler) :
    ∃ after db', handler.run session db = (.ok after, db') ∧ db'.now = db.now ∧ db.nextId ≤ db'.nextId ∧
      (∀ sid, db.isSessionRevoked sid = true → db'.isSessionRevoked sid = true) ∧
      ∀ sid, after.sid = some sid → session.sid = some sid ∨ sid = db.nextId ∧ db.nextId < db'.nextId := by
  cases handler with
  | signIn userId =>
    refine ⟨_, _, rfl, rfl, Nat.le_succ _, fun _ h => h, fun sid hsid => .inr ?_⟩
    exact ⟨(Option.some.inj hsid).symm, Nat.lt_succ_self _⟩
  | authenticated others =>
    obtain ⟨user, after, nextId, hcall, hle, hafter, -⟩ := getCurrentUser_apply
    refine ⟨after.withOthers others, { db with nextId }, ?_, rfl, hle, fun _ h => h, fun sid hsid => ?_⟩
    · rw [Handler.run, bind_apply_of_ok hcall]
      rfl
    · rcases hafter with rfl | rfl | ⟨-, rfl, hlt⟩
      · exact .inl hsid
      · cases hsid
      · exact .inr ⟨(Option.some.inj hsid).symm, hlt⟩
  | anonymous others => exact ⟨_, _, rfl, rfl, le_refl _, fun _ h => h, fun sid hsid => .inl hsid⟩
  | logout =>
    rcases session with ⟨_ | userId, start, maxAge, _ | sid, _⟩
    · exact ⟨_, _, rfl, rfl, le_refl _, fun _ h => h, by simp⟩
    · exact ⟨_, _, rfl, rfl, le_refl _, fun _ h => h, by simp⟩
    · exact ⟨_, _, rfl, rfl, le_refl _, fun _ h => h, by simp⟩
    · refine ⟨{}, db.revokeSession sid, rfl, ?_, le_of_eq ?_, fun other hother => ?_, by simp⟩
      · unfold Db.revokeSession
        split_ifs <;> rfl
      · unfold Db.revokeSession
        split_ifs <;> rfl
      · rw [isSessionRevoked_revokeSession, hother, Bool.true_or]

theorem present_sid {cookie : Option Cookie} (h : (x.present cookie).sid = some sid) :
    ∃ c ∈ x.issued, c.session.sid = some sid ∧ x.db.cookieExpired c = false := by
  unfold present at h
  cases hfilter : cookie.filter (· ∈ x.issued) with
  | none =>
    rw [hfilter] at h
    cases h
  | some c =>
    rw [hfilter, Db.loadSession] at h
    obtain ⟨-, hmem⟩ := Option.filter_eq_some_iff.mp hfilter
    by_cases hexpired : x.db.cookieExpired c = true
    · rw [if_pos hexpired] at h
      cases h
    · rw [if_neg hexpired] at h
      exact ⟨c, of_decide_eq_true hmem, h, by simpa using hexpired⟩

theorem mem_respond (h : cookie ∈ (x.respond session db).issued) :
    cookie ∈ x.issued ∨ cookie = { session, signedAt := db.time } := by
  unfold respond at h
  split_ifs at h
  · exact .inl h
  · exact (mem_cons.mp h).symm

theorem minted_step (h : x.Minted) : (x.step event).Minted := by
  cases event with
  | request cookie handler =>
    obtain ⟨after, db', hrun, -, hle, -, hsid⟩ := run_handler handler
    rw [step, hrun]
    intro c hc sid hcsid
    rcases mem_respond hc with hold | rfl
    · exact lt_of_lt_of_le (h c hold sid hcsid) hle
    · rcases hsid sid hcsid with hpresented | ⟨rfl, hlt⟩
      · obtain ⟨c', hc', hcsid', -⟩ := present_sid hpresented
        exact lt_of_lt_of_le (h c' hc' sid hcsid') hle
      · exact hlt
  | backchannelLogout other =>
    rw [step]
    split_ifs
    · unfold Db.revokeSession
      split_ifs
      · exact h
      · exact h
    · exact h
  | sweep => exact h
  | wait micros => exact h

theorem cookieExpired_mono {db' : Db} (hnow : db.now ≤ db'.now)
    (h : db.cookieExpired cookie = true) : db'.cookieExpired cookie = true := by
  have htime : db.time ≤ db'.time := Nat.div_le_div_right hnow
  have hold := of_decide_eq_true h
  exact decide_eq_true (by omega)

theorem retired_step (hminted : sid < x.db.nextId) (h : Retired sid x)
    (hevent : SweepSafe x event) : Retired sid (x.step event) := by
  cases event with
  | request cookie handler =>
    obtain ⟨after, db', hrun, hnow, -, hrevoked, hsid⟩ := run_handler handler
    rw [step, hrun]
    rcases h with hlisted | hexpired
    · exact .inl (hrevoked sid hlisted)
    · refine .inr fun c hc hcsid => ?_
      rcases mem_respond hc with hold | rfl
      · exact cookieExpired_mono (le_of_eq hnow.symm) (hexpired c hold hcsid)
      · rcases hsid sid hcsid with hpresented | ⟨rfl, -⟩
        · obtain ⟨c', hc', hcsid', hfresh⟩ := present_sid hpresented
          rw [hexpired c' hc' hcsid'] at hfresh
          cases hfresh
        · exact absurd hminted (lt_irrefl _)
  | backchannelLogout other =>
    rw [step]
    split_ifs
    · rcases h with hlisted | hexpired
      · left
        rw [isSessionRevoked_revokeSession, hlisted, Bool.true_or]
      · refine .inr fun c hc hcsid => cookieExpired_mono (le_of_eq ?_) (hexpired c hc hcsid)
        unfold Db.revokeSession
        split_ifs <;> rfl
    · exact h
  | sweep =>
    rcases h with hlisted | hexpired
    · obtain ⟨row, hrow, hrowsid⟩ := any_eq_true.mp hlisted
      rw [decide_eq_true_eq] at hrowsid
      by_cases hold : row.revokedAt + revocationRetention < x.db.now
      · exact .inr fun c hc hcsid => hevent row hrow hold c hc (by rw [hcsid, hrowsid])
      · refine .inl (any_eq_true.mpr ⟨row, mem_filter.mpr ⟨hrow, ?_⟩, decide_eq_true hrowsid⟩)
        exact decide_eq_true hold
    · exact .inr hexpired
  | wait micros =>
    rcases h with hlisted | hexpired
    · exact .inl hlisted
    · exact .inr fun c hc hcsid => cookieExpired_mono (Nat.le_add_right _ _) (hexpired c hc hcsid)

theorem retired_revokeSession (hminted : x.Minted) {c : Cookie} (hc : c ∈ x.issued) (hcsid : c.session.sid = some sid) :
    sid < (x.db.revokeSession sid).nextId ∧ (x.db.revokeSession sid).isSessionRevoked sid = true := by
  have hnext : (x.db.revokeSession sid).nextId = x.db.nextId := by
    unfold Db.revokeSession
    split_ifs <;> rfl
  refine ⟨hnext ▸ hminted c hc sid hcsid, ?_⟩
  rw [isSessionRevoked_revokeSession, decide_eq_true rfl, Bool.or_true]

theorem Revokes.retired (hminted : x.Minted) (h : Revokes sid x event) :
    sid < (x.step event).db.nextId ∧ Retired sid (x.step event) := by
  cases event with
  | request cookie handler =>
    cases handler with
    | logout =>
      obtain ⟨hsid, huser⟩ := h
      obtain ⟨userId, huserId⟩ := Option.isSome_iff_exists.mp huser
      obtain ⟨c, hc, hcsid, -⟩ := present_sid hsid
      have hrun : Handler.run (x.present cookie) .logout x.db = (.ok {}, x.db.revokeSession sid) := by
        simp only [Handler.run, terminateSession, huserId, hsid]
        rfl
      rw [step, hrun]
      exact (retired_revokeSession hminted hc hcsid).imp_right .inl
    | signIn | authenticated | anonymous => exact h.elim
  | backchannelLogout other =>
    obtain ⟨rfl, c, hc, hcsid⟩ := h
    have hany : x.issued.any (·.session.sid = some other) = true :=
      any_eq_true.mpr ⟨c, hc, decide_eq_true hcsid⟩
    rw [step, if_pos hany]
    exact (retired_revokeSession hminted hc hcsid).imp_right .inl
  | sweep | wait => exact h.elim

theorem nextId_le_step : x.db.nextId ≤ (x.step event).db.nextId := by
  cases event with
  | request cookie handler =>
    obtain ⟨after, db', hrun, -, hle, -⟩ := run_handler handler
    rw [step, hrun]
    exact hle
  | backchannelLogout other =>
    rw [step]
    split_ifs
    · unfold Db.revokeSession
      split_ifs <;> exact le_refl _
    · exact le_refl _
  | sweep => exact le_refl _
  | wait micros => exact le_refl _

theorem currentUser_of_retired (h : Retired sid x) (hmem : cookie ∈ x.issued)
    (hsid : cookie.session.sid = some sid) : x.currentUser cookie = none := by
  have hpresent : x.present (some cookie) = if x.db.cookieExpired cookie then {} else cookie.session := by
    rw [present, Option.filter_some, if_pos (decide_eq_true hmem), Db.loadSession]
  obtain ⟨user, after, nextId, hcall, -, -, huser⟩ := getCurrentUser_apply
  rw [currentUser, hcall]
  cases huserEq : user with
  | none => rfl
  | some u =>
    exfalso
    obtain ⟨huserId, -, -, hrevoked⟩ := huser u huserEq
    rw [hpresent] at huserId hrevoked
    by_cases hexpired : x.db.cookieExpired cookie = true
    · rw [if_pos hexpired] at huserId
      cases huserId
    · rw [if_neg hexpired] at hrevoked
      rcases h with hlisted | hall
      · rw [hrevoked sid hsid] at hlisted
        cases hlisted
      · exact hexpired (hall cookie hmem hsid)

/-- In every run in which a sweep forgets a session only after all cookies that carry it have expired, no
cookie that carries a revoked session is ever again answered for a user. -/
theorem revoked_session_stays_revoked (sid : Id) {events : List CookieEvent} (hminted : x.Minted)
    (h : Along step SweepSafe x events) : ∀ before event between after, events = before ++ event :: between ++ after →
      Revokes sid (run step x before) event →
      ∀ cookie ∈ (run step x (before ++ event :: between)).issued, cookie.session.sid = some sid →
        (run step x (before ++ event :: between)).currentUser cookie = none := by
  intro before event between after hevents hrevokes cookie hmem hsid
  refine currentUser_of_retired ?_ hmem hsid
  have hbefore : (run step x before).Minted := invariant (fun x event h => minted_step h) hminted
  have hstart := hrevokes.retired hbefore
  have hrest : Along step SweepSafe ((run step x before).step event) between := by
    intro l₁ i l₂ hl
    have hall := h (before ++ event :: l₁) i (l₂ ++ after) (by rw [hevents, hl]; simp)
    rwa [run_append] at hall
  rw [run_append]
  refine (invariant_of_along (I := fun x : CookieSystem => sid < x.db.nextId ∧ Retired sid x) ?_ hstart hrest).2
  intro y i hy hsafe
  exact ⟨lt_of_lt_of_le hy.1 nextId_le_step, retired_step hy.1 hy.2 hsafe⟩

def oneUser : CookieSystem where
  db := { nextId := 10, users := [{ id := 2 }] }

def days (n : Nat) : Nat := n * 24 * 3600

def adaCookie (signedAt : Nat) : Cookie where
  session := { userId := some 2, sessionStart := some 0, maxAge := some (days 30), sid := some 10 }
  signedAt

/-- A copy of the cookie is shown to an anonymous page on day 10; the revocation is swept on day 16. -/
def keepCopyFresh : List CookieEvent :=
  [.wait (days 10 * 1000000), .request (some (adaCookie 0)) (.anonymous {}), .wait (days 6 * 1000000), .sweep]

/-- Ada logs out, but the copy that was signed again on day 10 signs in after the sweep. -/
theorem copied_cookie_outlives_revocation :
    let x := run step oneUser ([.request none (.signIn 2)] ++
      .request (some (adaCookie 0)) .logout :: keepCopyFresh)
    Revokes 10 (run step oneUser [.request none (.signIn 2)]) (.request (some (adaCookie 0)) .logout) ∧
      adaCookie (days 10) ∈ x.issued ∧ (adaCookie (days 10)).session.sid = some 10 ∧
      (x.currentUser (adaCookie (days 10))).map (·.id) = some 2 := by
  intro x
  exact ⟨⟨by decide, by decide⟩, by decide, rfl, by decide⟩

/-- Without the visit on day 10, all copies have expired when the revocation is swept. -/
theorem expired_cookie_stays_revoked :
    (run step oneUser ([.request none (.signIn 2)] ++ .request (some (adaCookie 0)) .logout ::
      [.wait (days 16 * 1000000), .sweep])).currentUser (adaCookie 0) = none := by
  refine revoked_session_stays_revoked 10 (by simp [Minted, oneUser]) ?_ [.request none (.signIn 2)]
    (.request (some (adaCookie 0)) .logout) [.wait (days 16 * 1000000), .sweep] [] rfl ⟨by decide, by decide⟩
    (adaCookie 0) (by decide) rfl
  simp only [cons_append, nil_append, along_cons]
  refine ⟨trivial, trivial, trivial, ?_, along_nil⟩
  rw [SweepSafe]
  decide

end CookieSystem

end WeftId
