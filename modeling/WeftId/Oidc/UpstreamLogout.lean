import WeftId.Lib.Fault
import WeftId.Lib.Run
import WeftId.Oidc.Links

/-!
Logout tokens of an upstream provider.  The identifier of a token is recorded before the sessions it names are ended
one after the other, each statement in a transaction of its own, so a delivery that fails half-way leaves the rest of
the sessions, and the same token is refused from then on.
-/

namespace WeftId

open List Proc Fault Run

structure LogoutTokenJti where
  idpId : Id
  jti : Text
  expiresAt : Nat

structure LogoutReceiver where
  db : Db
  jtis : List LogoutTokenJti := []

structure LogoutClaims where
  jti : Text
  exp : Nat
  sid : Option Text := none
  sub : Option Text := none

inductive LogoutError
  /-- The token is rejected, and the caller answers 400. -/
  | token (reason message : String)
  | database
  | timestamp
  deriving DecidableEq

/-- Python's `x or None`. -/
def nonEmpty (value : Option Text) : Option Text := value.filter (· ≠ [])

/-- The sessions of an upstream session, narrowed to the subject when both are given, or all of a subject. -/
def Db.findIdpSessions (db : Db) (idpId : Id) (upstreamSid upstreamSub : Option Text) : List OidcIdpSession :=
  if upstreamSid = none ∧ upstreamSub = none then []
  else db.oidcIdpSessions.filter fun s => s.idpId = idpId ∧ (upstreamSid = none ∨ s.upstreamSid = upstreamSid) ∧
    (upstreamSub = none ∨ some s.upstreamSub = upstreamSub)

namespace LogoutReceiver

def Recorded (s : LogoutReceiver) (idpId : Id) (jti : Text) : Prop := ∃ row ∈ s.jtis, row.idpId = idpId ∧ row.jti = jti
  deriving Decidable

def consumeLogoutTokenJti (s : LogoutReceiver) (idpId : Id) (jti : Text) (expiresAt : Nat) : Bool × LogoutReceiver :=
  if s.Recorded idpId jti then (false, s) else (true, { s with jtis := s.jtis ++ [{ idpId, jti, expiresAt }] })

end LogoutReceiver

abbrev Receiving := Proc (Scripted LogoutReceiver) LogoutError

def select {α : Type} (f : Db → α) : Receiving α := statement .database fun s => (f s.db, s)

def execute (f : Db → Db) : Receiving Unit := statement .database fun s => ((), { s with db := f s.db })

def Receiving.logEvent : Receiving Unit := execute id

def endUpstreamSession (sid : Id) : Receiving Unit := do
  execute (·.revokeSession sid)
  execute (·.deleteIdpSession sid)
  execute (·.consumeSessionClients sid)
  execute (·.revokeSessionRefreshTokens sid)
  Receiving.logEvent

def rejectToken {α : Type} (reason message : String) : Receiving α := do
  Receiving.logEvent
  raise (.token reason message)

def endNamedSessions (connectionId : Id) (claims : LogoutClaims) : Receiving Nat := do
  let rows ← select (·.findIdpSessions connectionId (nonEmpty claims.sid) (nonEmpty claims.sub))
  forEach rows fun row => endUpstreamSession row.sid
  pure rows.length

/-- The end of the year 9999, past which `datetime` raises. -/
def lastTimestamp : Nat := 253402300799

def consumeJti (connectionId : Id) (claims : LogoutClaims) : Receiving Bool :=
  if lastTimestamp < claims.exp + 60 then raise .timestamp
  else if 255 < claims.jti.length then pure false
  else statement .database fun s => s.consumeLogoutTokenJti connectionId claims.jti (claims.exp + 60)

def OidcConnection.receivesLogouts (connection : OidcConnection) : Bool :=
  connection.jwksUri.any (· ≠ []) ∧ connection.clientId.any (· ≠ [])

/-- `verdict` is what the validation of the token says: its claims, or the reason and message of its rejection. -/
def handleBackchannelLogout (connectionId : Id) (verdict : Except (String × String) LogoutClaims) : Receiving Nat := do
  let connection ← select (·.getConnection connectionId)
  match connection with
  | none => raise (.token "unknown_connection" "No such connection")
  | some connection =>
    if ¬ connection.receivesLogouts then rejectToken "configuration_error" "Connection has no JWKS or client_id"
    else
      match verdict with
      | .error (reason, message) => rejectToken reason message
      | .ok claims => do
        let fresh ← consumeJti connectionId claims
        if fresh then endNamedSessions connectionId claims
        else rejectToken "replay" "Logout token jti was already used"

/-- One delivery of a token: the time that passes before it, and which of its statements fail. -/
structure TokenDelivery where
  elapsed : Nat := 0
  faults : List Bool := []

def TokenDelivery.MeetsNoFailure (delivery : TokenDelivery) : Prop := true ∉ delivery.faults
  deriving Decidable

namespace LogoutReceiver

def deliver (connectionId : Id) (claims : LogoutClaims) (s : LogoutReceiver) (delivery : TokenDelivery) :
    Except LogoutError Nat × LogoutReceiver :=
  let (answer, after) := handleBackchannelLogout connectionId (.ok claims)
    ⟨{ s with db := s.db.wait delivery.elapsed }, delivery.faults⟩
  (answer, after.store)

def after (connectionId : Id) (claims : LogoutClaims) (s : LogoutReceiver) (delivery : TokenDelivery) :
    LogoutReceiver :=
  (s.deliver connectionId claims delivery).2

end LogoutReceiver

/-- The session is refused, and no refresh token of it is left. -/
structure Db.UpstreamEnded (db : Db) (sid : Id) : Prop where
  revoked : db.isSessionRevoked sid
  tokens : ∀ t ∈ db.oauth2Tokens, t.tokenType = .refresh → t.sid ≠ some sid

section Ended

variable {db : Db} {sid : Id}

theorem Db.revokedSessions_subset_revokeSession : db.revokedSessions ⊆ (db.revokeSession sid).revokedSessions := by
  unfold revokeSession
  split
  · exact fun _ h => h
  · exact fun _ h => mem_append_left _ h

theorem Db.isSessionRevoked_revokeSession (db : Db) (sid : Id) : (db.revokeSession sid).isSessionRevoked sid := by
  unfold revokeSession
  split
  · assumption
  · simp [isSessionRevoked]

theorem Db.upstreamEnded_endOidcSession (db : Db) (sid : Id) : (db.endOidcSession sid).UpstreamEnded sid := by
  refine ⟨db.isSessionRevoked_revokeSession sid, fun t ht htype hsid => ?_⟩
  have hkept := (mem_deleteTokens ht).2
  simp [htype, hsid] at hkept

theorem Db.UpstreamEnded.endOidcSession (h : db.UpstreamEnded sid) (other : Id) :
    (db.endOidcSession other).UpstreamEnded sid := by
  constructor
  · obtain ⟨row, hrow, hsid⟩ := any_eq_true.mp h.revoked
    exact any_eq_true.mpr ⟨row, db.revokedSessions_subset_revokeSession hrow, hsid⟩
  · intro t ht
    have hmem := (mem_deleteTokens ht).1
    refine h.tokens t ?_
    unfold revokeSession at hmem
    split at hmem
    · exact hmem
    · exact hmem

theorem Db.upstreamEnded_foldl {rows : List OidcIdpSession} {row : OidcIdpSession} (hrow : row ∈ rows) (db : Db) :
    (rows.foldl (fun db row => db.endOidcSession row.sid) db).UpstreamEnded row.sid := by
  have hkeep : ∀ (rows : List OidcIdpSession) (db : Db), db.UpstreamEnded row.sid →
      (rows.foldl (fun db row => db.endOidcSession row.sid) db).UpstreamEnded row.sid := by
    intro rows
    induction rows with
    | nil => exact fun db h => h
    | cons other rows ih => exact fun db h => ih _ (h.endOidcSession other.sid)
  induction rows generalizing db with
  | nil => cases hrow
  | cons other rows ih =>
    rcases mem_cons.mp hrow with rfl | hrow
    · exact hkeep rows _ (db.upstreamEnded_endOidcSession row.sid)
    · exact ih hrow (db.endOidcSession other.sid)

end Ended

section Completes

variable {connectionId : Id} {claims : LogoutClaims} {s : LogoutReceiver} {connection : OidcConnection}

theorem completes_execute {f : Db → Db} : Completes (execute f) s () { s with db := f s.db } :=
  completes_statement

theorem completes_select {α : Type} {f : Db → α} : Completes (select f) s (f s.db) s :=
  completes_statement

theorem completes_endUpstreamSession (sid : Id) (s : LogoutReceiver) :
    Completes (endUpstreamSession sid) s () { s with db := s.db.endOidcSession sid } := by
  refine completes_execute.bind (completes_execute.bind (completes_execute.bind ?_))
  exact completes_execute.bind completes_execute

theorem completes_endNamedSessions (connectionId : Id) (claims : LogoutClaims) (s : LogoutReceiver) :
    let rows := s.db.findIdpSessions connectionId (nonEmpty claims.sid) (nonEmpty claims.sub)
    Completes (endNamedSessions connectionId claims) s rows.length
      { s with db := rows.foldl (fun db row => db.endOidcSession row.sid) s.db } := by
  intro rows
  have hloop := completes_forEach (fun s row => completes_endUpstreamSession (OidcIdpSession.sid row) s) rows s
  have hfold : ∀ (rows : List OidcIdpSession) (s : LogoutReceiver),
      rows.foldl (fun s row => { s with db := s.db.endOidcSession row.sid }) s =
        { s with db := rows.foldl (fun db row => db.endOidcSession row.sid) s.db } := by
    intro rows
    induction rows with
    | nil => exact fun s => rfl
    | cons row rows ih => exact fun s => ih _
  rw [hfold] at hloop
  exact completes_select.bind (hloop.bind (completes_pure _ _))

variable (hjti : claims.jti.length ≤ 255) (hexp : claims.exp + 60 ≤ lastTimestamp)

include hjti hexp

theorem completes_consumeJti (s : LogoutReceiver) :
    Completes (consumeJti connectionId claims) s (s.consumeLogoutTokenJti connectionId claims.jti (claims.exp + 60)).1
      (s.consumeLogoutTokenJti connectionId claims.jti (claims.exp + 60)).2 := by
  unfold consumeJti
  rw [if_neg (not_lt.mpr hexp), if_neg (not_lt.mpr hjti)]
  exact completes_statement

variable (hconnection : s.db.getConnection connectionId = some connection) (hready : connection.receivesLogouts)

include hconnection hready

theorem completes_handleBackchannelLogout (hnew : ¬ s.Recorded connectionId claims.jti) :
    let rows := s.db.findIdpSessions connectionId (nonEmpty claims.sid) (nonEmpty claims.sub)
    Completes (handleBackchannelLogout connectionId (.ok claims)) s rows.length {
      db := rows.foldl (fun db row => db.endOidcSession row.sid) s.db
      jtis := s.jtis ++ [{ idpId := connectionId, jti := claims.jti, expiresAt := claims.exp + 60 }] } := by
  have hconsume := @completes_consumeJti connectionId claims hjti hexp s
  unfold LogoutReceiver.consumeLogoutTokenJti at hconsume
  rw [if_neg hnew] at hconsume
  refine completes_select.bind ?_
  rw [hconnection]
  dsimp only
  rw [if_neg (not_not.mpr hready)]
  exact hconsume.bind (completes_endNamedSessions connectionId claims _)

theorem refuses_handleBackchannelLogout (hused : s.Recorded connectionId claims.jti) :
    Refuses (handleBackchannelLogout connectionId (.ok claims)) s
      (.token "replay" "Logout token jti was already used") s := by
  have hconsume := @completes_consumeJti connectionId claims hjti hexp s
  unfold LogoutReceiver.consumeLogoutTokenJti at hconsume
  rw [if_pos hused] at hconsume
  refine completes_select.bind_refuses ?_
  rw [hconnection]
  dsimp only
  rw [if_neg (not_not.mpr hready)]
  exact hconsume.bind_refuses (completes_execute.bind_refuses refuses_raise)

end Completes

section Failures

variable {connectionId : Id} {claims : LogoutClaims} {s : Scripted LogoutReceiver}

def KeepsRecord (s s' : LogoutReceiver) : Prop := s'.jtis = s.jtis ∧ s'.db.oidcConnections = s.db.oidcConnections

instance : Std.Refl KeepsRecord := ⟨fun _ => ⟨rfl, rfl⟩⟩

instance : IsTrans LogoutReceiver KeepsRecord := ⟨fun _ _ _ h h' => ⟨h'.1.trans h.1, h'.2.trans h.2⟩⟩

theorem within_execute {f : Db → Db} (hf : ∀ db, (f db).oidcConnections = db.oidcConnections) :
    (execute f).Within (OnStore KeepsRecord) :=
  within_statement fun s => ⟨rfl, hf s.db⟩

theorem within_endUpstreamSession {sid : Id} : (endUpstreamSession sid).Within (OnStore KeepsRecord) := by
  have hrevoke : ∀ db : Db, (db.revokeSession sid).oidcConnections = db.oidcConnections := by
    intro db
    unfold Db.revokeSession
    split
    · rfl
    · rfl
  refine within_bind (within_execute hrevoke) fun _ => within_bind (within_execute fun _ => rfl) fun _ => ?_
  refine within_bind (within_execute fun _ => rfl) fun _ => within_bind (within_execute fun _ => rfl) fun _ => ?_
  exact within_execute fun _ => rfl

theorem within_endNamedSessions : (endNamedSessions connectionId claims).Within (OnStore KeepsRecord) := by
  refine within_bind (within_statement fun s => refl_of KeepsRecord s) fun rows => ?_
  exact within_bind (within_forEach fun row _ => within_endUpstreamSession) fun _ => within_pure _

theorem rejectToken_spec {α : Type} {reason message : String} :
    (rejectToken reason message : Receiving α).Ensures s fun r after => after.store = s.store ∧ ∃ e, r = .error e := by
  refine ensures_bind.mpr (ensures_statement (fun faults => ⟨rfl, _, rfl⟩) fun faults => ?_)
  exact ⟨rfl, _, rfl⟩

theorem handleBackchannelLogout_cases : (handleBackchannelLogout connectionId (.ok claims)).Ensures s fun r after =>
      after.store = s.store ∧ (∃ e, r = .error e) ∨
      ¬ s.store.Recorded connectionId claims.jti ∧ after.store.Recorded connectionId claims.jti ∧
        after.store.db.oidcConnections = s.store.db.oidcConnections := by
  refine ensures_bind.mpr (ensures_statement (fun faults => .inl ⟨rfl, _, rfl⟩) fun faults => ?_)
  dsimp only
  cases s.store.db.getConnection connectionId with
  | none => exact .inl ⟨rfl, _, rfl⟩
  | some =>
    dsimp only
    split
    · exact rejectToken_spec.mono fun _ _ => .inl
    have hreplay : ∀ faults, (rejectToken "replay" "Logout token jti was already used" : Receiving Nat).Ensures
        ⟨s.store, faults⟩ fun r after => after.store = s.store ∧ (∃ e, r = .error e) ∨
          ¬ s.store.Recorded connectionId claims.jti ∧ after.store.Recorded connectionId claims.jti ∧
            after.store.db.oidcConnections = s.store.db.oidcConnections :=
      fun faults => rejectToken_spec.mono fun _ _ => .inl
    unfold consumeJti
    split
    · exact .inl ⟨rfl, _, rfl⟩
    split
    · exact hreplay _
    refine ensures_bind.mpr (ensures_statement (fun faults => .inl ⟨rfl, _, rfl⟩) fun faults => ?_)
    unfold LogoutReceiver.consumeLogoutTokenJti
    by_cases hused : s.store.Recorded connectionId claims.jti
    · rw [if_pos hused]
      exact hreplay _
    · rw [if_neg hused]
      have hrows : LogoutReceiver.Recorded { s.store with jtis := s.store.jtis ++
          [{ idpId := connectionId, jti := claims.jti, expiresAt := claims.exp + 60 }] } connectionId claims.jti :=
        ⟨_, mem_append_right _ mem_cons_self, rfl, rfl⟩
      -- the sessions are ended or not, but the record stays
      obtain ⟨hjtis, hconnections⟩ := within_endNamedSessions ⟨{ s.store with jtis := s.store.jtis ++
        [{ idpId := connectionId, jti := claims.jti, expiresAt := claims.exp + 60 }] }, faults⟩
      obtain ⟨row, hrow, hkeys⟩ := hrows
      exact .inr ⟨hused, ⟨row, hjtis ▸ hrow, hkeys⟩, hconnections⟩

end Failures

namespace LogoutReceiver

variable {connectionId : Id} {claims : LogoutClaims} {s : LogoutReceiver} {connection : OidcConnection}
  {deliveries : List TokenDelivery}

def wait (s : LogoutReceiver) (micros : Nat) : LogoutReceiver := { s with db := s.db.wait micros }

theorem wait_wait (a b : Nat) : (s.wait a).wait b = s.wait (a + b) := by
  simp only [wait, Db.wait, add_assoc]

theorem deliver_cases (s : LogoutReceiver) (delivery : TokenDelivery) :
    s.after connectionId claims delivery = s.wait delivery.elapsed ∧
        (∃ e, (s.deliver connectionId claims delivery).1 = .error e) ∨
      ¬ s.Recorded connectionId claims.jti ∧ (s.after connectionId claims delivery).Recorded connectionId claims.jti ∧
        (s.after connectionId claims delivery).db.oidcConnections = s.db.oidcConnections :=
  handleBackchannelLogout_cases

theorem getConnection_run :
    (run (after connectionId claims) s deliveries).db.getConnection connectionId = s.db.getConnection connectionId := by
  have hsame : (run (after connectionId claims) s deliveries).db.oidcConnections = s.db.oidcConnections := by
    refine invariant (I := fun s' : LogoutReceiver => s'.db.oidcConnections = s.db.oidcConnections)
      (fun s' delivery h => ?_) rfl
    obtain ⟨heq, -⟩ | ⟨-, -, hconnections⟩ := @deliver_cases connectionId claims s' delivery
    · rw [heq]
      exact h
    · exact hconnections.trans h
  unfold Db.getConnection
  rw [hsame]

/-- A run records the token or lets time pass. -/
theorem run_cases : (∃ micros, run (after connectionId claims) s deliveries = s.wait micros) ∨
    ¬ s.Recorded connectionId claims.jti ∧
      (run (after connectionId claims) s deliveries).Recorded connectionId claims.jti := by
  induction deliveries generalizing s with
  | nil => exact .inl ⟨0, rfl⟩
  | cons delivery deliveries ih =>
    rw [run_cons]
    obtain ⟨heq, -⟩ | ⟨hnew, hrecorded, -⟩ := @deliver_cases connectionId claims s delivery
    · rw [heq]
      refine (@ih (s.wait delivery.elapsed)).imp_left fun ⟨micros, hrun⟩ => ⟨delivery.elapsed + micros, ?_⟩
      rw [hrun, wait_wait]
    · refine .inr ⟨hnew, ?_⟩
      obtain ⟨micros, hrun⟩ | ⟨-, hlater⟩ := @ih (s.after connectionId claims delivery)
      · rw [hrun]
        exact hrecorded
      · exact hlater

/-- Of all deliveries of a token only one can act, the one that records it.  If no statement fails in it, every session
that was linked at the start is ended for good; the others change nothing, and those that come later are refused. -/
theorem logout_token_acts_once (s : LogoutReceiver) (connectionId : Id) (claims : LogoutClaims)
    (connection : OidcConnection) (hconnection : s.db.getConnection connectionId = some connection)
    (hready : connection.receivesLogouts) (hjti : claims.jti.length ≤ 255) (hexp : claims.exp + 60 ≤ lastTimestamp)
    (earlier : List TokenDelivery) (delivery : TokenDelivery) (later : List TokenDelivery) :
    let before := run (after connectionId claims) s earlier
    let final := run (after connectionId claims) s (earlier ++ delivery :: later)
    (¬ before.Recorded connectionId claims.jti → delivery.MeetsNoFailure →
      (∃ ended, (before.deliver connectionId claims delivery).1 = .ok ended) ∧
      ∀ row ∈ s.db.findIdpSessions connectionId (nonEmpty claims.sid) (nonEmpty claims.sub),
        final.db.UpstreamEnded row.sid) ∧
    (before.Recorded connectionId claims.jti → (∃ micros, final = before.wait micros) ∧
      (∃ e, (before.deliver connectionId claims delivery).1 = .error e) ∧
      (delivery.MeetsNoFailure → (before.deliver connectionId claims delivery).1 =
        .error (.token "replay" "Logout token jti was already used"))) ∧
    ∀ ended, (before.deliver connectionId claims delivery).1 = .ok ended →
      (before.after connectionId claims delivery).Recorded connectionId claims.jti := by
  intro before final
  have hfound : (before.wait delivery.elapsed).db.getConnection connectionId = some connection :=
    getConnection_run.trans hconnection
  have hfinal : final = run (after connectionId claims) (before.after connectionId claims delivery) later := by
    rw [← run_cons, ← run_append]
  refine ⟨fun hnew hclear => ?_, fun hused => ⟨?_, ?_, fun hclear => ?_⟩, fun ended hended => ?_⟩
  · obtain ⟨micros, hbefore⟩ := run_cases.resolve_right fun h => hnew h.2
    obtain ⟨faults, -, hhandle⟩ := completes_handleBackchannelLogout hjti hexp hfound hready hnew delivery.faults hclear
    have hrows : (before.wait delivery.elapsed).db.findIdpSessions connectionId (nonEmpty claims.sid)
        (nonEmpty claims.sub) = s.db.findIdpSessions connectionId (nonEmpty claims.sid) (nonEmpty claims.sub) := by
      change ((run (after connectionId claims) s earlier).wait delivery.elapsed).db.findIdpSessions _ _ _ = _
      rw [hbefore]
      rfl
    have hafter := congrArg (fun r => r.2.store) hhandle
    refine ⟨⟨_, congrArg Prod.fst hhandle⟩, fun row hrow => ?_⟩
    have hended : (before.after connectionId claims delivery).db.UpstreamEnded row.sid := by
      rw [show before.after connectionId claims delivery = _ from hafter]
      exact Db.upstreamEnded_foldl (hrows ▸ hrow) _
    have hrecorded : (before.after connectionId claims delivery).Recorded connectionId claims.jti := by
      rw [show before.after connectionId claims delivery = _ from hafter]
      exact ⟨_, mem_append_right _ mem_cons_self, rfl, rfl⟩
    obtain ⟨micros', hlater⟩ := run_cases.resolve_right fun h => h.1 hrecorded
    rw [hfinal, hlater]
    exact ⟨hended.revoked, hended.tokens⟩
  · rw [show final = run (after connectionId claims) before (delivery :: later) from run_append]
    exact run_cases.resolve_right fun h => h.1 hused
  · obtain ⟨-, herror⟩ | ⟨hnew, -⟩ := @deliver_cases connectionId claims before delivery
    · exact herror
    · exact absurd hused hnew
  · obtain ⟨faults, hhandle⟩ := refuses_handleBackchannelLogout hjti hexp hfound hready hused delivery.faults hclear
    exact congrArg Prod.fst hhandle
  · obtain ⟨-, e, herror⟩ | ⟨-, hrecorded, -⟩ := @deliver_cases connectionId claims before delivery
    · cases hended.symm.trans herror
    · exact hrecorded

def linkedSessions : LogoutReceiver where
  db := {
    nextId := 20
    oidcConnections := [{ id := 1, name := "up", clientId := some "c".toList, jwksUri := some "j".toList }]
    oidcIdpSessions := [
      { sid := 11, idpId := 1, userId := 2, upstreamSub := "ada", upstreamSid := some "u".toList },
      { sid := 12, idpId := 1, userId := 2, upstreamSub := "ada", upstreamSid := some "u".toList }]
    oauth2Tokens := [
      { id := 13, clientId := 5, userId := 2, tokenType := .refresh, sid := some 11, expiresAt := 1000 },
      { id := 14, clientId := 5, userId := 2, tokenType := .refresh, sid := some 12, expiresAt := 1000 }] }

def upstreamLogout : LogoutClaims where
  jti := "t"
  exp := 300
  sid := some "u".toList

/-- Repeating the delivery helps as long as the token was not recorded. -/
theorem logout_token_acts_once_retried :
    let retried := run (after 1 upstreamLogout) linkedSessions [{ faults := [true] }, {}]
    (linkedSessions.deliver 1 upstreamLogout { faults := [true] }).1 = .error .database ∧
      ∀ row ∈ linkedSessions.db.findIdpSessions 1 (nonEmpty upstreamLogout.sid) (nonEmpty upstreamLogout.sub),
        retried.db.UpstreamEnded row.sid :=
  ⟨by decide +kernel, ((logout_token_acts_once linkedSessions 1 upstreamLogout _ rfl (by decide) (by decide) (by decide)
    [{ faults := [true] }] {} []).1 (by decide +kernel) (by decide)).2⟩

/-- The statement that revokes the refresh tokens of the first session fails: the same token is then refused, the second
session is never revoked, and both refresh tokens stay. -/
theorem failed_logout_not_repeatable :
    let failed : TokenDelivery := { faults := [false, false, false, false, false, false, true] }
    let retried := run (after 1 upstreamLogout) linkedSessions [failed, {}]
    (linkedSessions.deliver 1 upstreamLogout failed).1 = .error .database ∧
      ((linkedSessions.after 1 upstreamLogout failed).deliver 1 upstreamLogout {}).1 =
        .error (.token "replay" "Logout token jti was already used") ∧
      retried.db.isSessionRevoked 12 = false ∧ retried.db.oauth2Tokens.map (·.sid) = [some 11, some 12] := by
  decide +kernel

end LogoutReceiver

end WeftId
