import WeftId.OAuth.LiveGrants

/-!
What the end of a session leaves behind.  It revokes the refresh tokens tied to the session and forgets which
clients were signed in to, but an authorization code of the session stays redeemable, and redeeming it brings
both back.
-/

namespace WeftId

open List Proc Run

namespace Db

/-- No live refresh token is tied to the session, and no client is recorded for it. -/
structure SessionEnded (db : Db) (sid : Id) : Prop where
  tokens : ∀ t ∈ db.oauth2Tokens, t.tokenType = .refresh → t.sid = some sid → ¬ db.now < t.expiresAt
  clients : ∀ r ∈ db.oidcSessionClients, r.sid ≠ sid

structure SessionCleared (db : Db) (sid : Id) : Prop where
  tokens : ∀ t ∈ db.oauth2Tokens, t.tokenType = .refresh → t.sid ≠ some sid
  clients : ∀ r ∈ db.oidcSessionClients, r.sid ≠ sid

end Db

section Cleared

variable {db db' : Db} {sid : Id} {out moved : Id → Prop}

theorem Db.SessionCleared.ended (h : db.SessionCleared sid) : db.SessionEnded sid :=
  ⟨fun t ht htype hsid => absurd hsid (h.tokens t ht htype), h.clients⟩

theorem Db.SessionCleared.of_subset (h : db.SessionCleared sid) (ht : db'.oauth2Tokens ⊆ db.oauth2Tokens)
    (hs : db'.oidcSessionClients ⊆ db.oidcSessionClients) : db'.SessionCleared sid :=
  ⟨fun t hmem => h.tokens t (ht hmem), fun r hmem => h.clients r (hs hmem)⟩

theorem Db.SessionCleared.touches (h : db.SessionCleared sid) (ht : Touches out moved db db') :
    db'.SessionCleared sid :=
  h.of_subset ht.tokens ht.sessionClients

theorem Db.SessionCleared.issues (h : db.SessionCleared sid)
    (hi : Issues (fun _ tied => tied ≠ some sid) (fun s => s ≠ sid) db db') : db'.SessionCleared sid := by
  refine ⟨fun t ht htype => ?_, fun r hr => ?_⟩
  · rcases hi.tokens t ht htype with ⟨t₀, ht₀, htype₀, -, hsid⟩ | hnew
    · rw [← hsid]
      exact h.tokens t₀ ht₀ htype₀
    · exact hnew
  · rcases hi.sessionClients r hr with ⟨r₀, hr₀, hsid⟩ | hnew
    · rw [← hsid]
      exact h.clients r₀ hr₀
    · exact hnew

theorem sessionCleared_endOidcSession : (db.endOidcSession sid).SessionCleared sid := by
  refine ⟨fun t ht htype hsid => ?_, fun r hr => ?_⟩
  · have hkept := (Db.mem_deleteTokens ht).2
    simp [htype, hsid] at hkept
  · simpa using (mem_filter.mp hr).2

end Cleared

def Sheds (db db' : Db) : Prop :=
  db'.oauth2Tokens ⊆ db.oauth2Tokens ∧ db'.oidcSessionClients ⊆ db.oidcSessionClients

instance : Std.Refl Sheds := ⟨fun _ => ⟨List.Subset.refl _, List.Subset.refl _⟩⟩

instance : IsTrans Db Sheds := ⟨fun _ _ _ h h' => ⟨List.Subset.trans h'.1 h.1, List.Subset.trans h'.2 h.2⟩⟩

section ClientSettings

variable {user : RequestingUser} {clientId groupId : Id}

theorem sheds_deleteTokens {db : Db} {p : OAuth2Token → Bool} : Sheds db (db.deleteTokens p) :=
  ⟨deleteTokens_subset, List.Subset.refl _⟩

theorem sheds_getNormalClient : (getNormalClient clientId).Within Sheds :=
  .orRaise fun _ => .require fun _ => within_pure _

theorem sheds_setOidcSettings {oidcEnabled availableToAll : Option Bool} :
    (setOidcSettings user clientId oidcEnabled availableToAll).Within Sheds := by
  refine .require fun _ => within_bind sheds_getNormalClient fun old => ?_
  refine within_bind (within_write fun db => ⟨List.Subset.refl _, List.Subset.refl _⟩) fun _ => ?_
  exact within_whenever fun _ => within_write fun db => sheds_deleteTokens

theorem sheds_assignClientToGroup : (assignClientToGroup user clientId groupId).Within Sheds := by
  refine .require fun _ => within_bind sheds_getNormalClient fun _ => ?_
  refine .orRaise fun _ => within_bind (within_tx fun db created db' h => ?_) fun _ => ?_
  · obtain rfl := congrArg Prod.snd (Except.ok.inj h)
    unfold Db.createClientAssignment
    split_ifs <;> exact ⟨List.Subset.refl _, List.Subset.refl _⟩
  · exact within_require

theorem sheds_removeClientGroupAssignment : (removeClientGroupAssignment user clientId groupId).Within Sheds := by
  refine .require fun _ => within_bind sheds_getNormalClient fun client => ?_
  refine .read fun _ => ?_
  refine within_bind (within_write fun db => ⟨List.Subset.refl _, List.Subset.refl _⟩) fun _ => ?_
  refine .require fun _ => within_whenever fun _ => ?_
  exact within_write fun db => sheds_deleteTokens

end ClientSettings

section Redemption

variable {env : Env} {db : Db} {clientId sid : Id} {client : OAuth2Client} {code : AuthorizationCode}

theorem mem_upsertSessionClient {userId : Id} :
    ∃ r ∈ (db.upsertSessionClient sid clientId userId).oidcSessionClients, r.sid = sid :=
  ⟨⟨sid, clientId, userId⟩, KeyedRows.mem_store.mpr (.inl rfl), rfl⟩

theorem validateAndConsumeCode_of_unconsumed {request : TokenRequest} (hfound : db.findCode request = some code)
    (haccepts : code.accepts env request.codeVerifier) (hunconsumed : code.consumedAt = none) :
    validateAndConsumeCode env request db = (.ok (some code), (db.consumeCode code.id).2) := by
  have hmem := mem_of_find?_eq_some hfound
  have hopen : db.authorizationCodes.any fun c => c.id = code.id ∧ c.consumedAt = none :=
    any_eq_true.mpr ⟨code, hmem, by simp [hunconsumed]⟩
  have hconsume : tx (fun db => .ok (db.consumeCode code.id)) db = (.ok true, (db.consumeCode code.id).2) := by
    apply tx_apply_of_ok
    unfold Db.consumeCode
    rw [if_pos hopen]
  unfold validateAndConsumeCode
  rw [read_bind_apply, hfound]
  simp only [haccepts, hunconsumed, not_true_eq_false, if_false, Option.isSome_none, Bool.false_eq_true]
  rw [bind_apply_of_ok hconsume]
  rfl

theorem tokenEndpoint_records {request : GrantRequest} (h : Redeems env db clientId request client code)
    (htied : grantSession client code.scope code.sid = some sid) :
    ∃ r ∈ ((tokenEndpoint env clientId request).exec db).oidcSessionClients, r.sid = sid := by
  obtain ⟨text, redirectUri, verifier, rfl, htext, hredirect, hfound, haccepts⟩ := h.presented
  have hauthenticate : authenticateClient clientId db = (.ok client, db) := by
    simp [authenticateClient, orRaise, Bind.bind, h.client_found, h.client_active, require]
  have htype : ¬ (client.clientType ≠ .normal ∨ client.isPublic) := by
    simp [h.client_normal, h.client_confidential]
  have hvalidate := validateAndConsumeCode_of_unconsumed hfound haccepts h.unconsumed
  unfold tokenEndpoint exec
  rw [bind_apply_of_ok hauthenticate]
  dsimp only
  rw [authorizationCodeGrant, if_neg htype]
  simp only [Option.filter_some, htext, hredirect, ne_eq, not_false_eq_true, decide_true, if_true]
  rw [bind_apply_of_ok hvalidate]
  dsimp only
  obtain ⟨db', -, hissue⟩ := issueUserTokens_cases env
  rw [hissue, htied]
  exact mem_upsertSessionClient

end Redemption

namespace ServiceStep

variable {env : Env} {db : Db} {sid : Id} {step : ServiceStep}

def RedeemsInSession (env : Env) (sid : Id) (db : Db) : ServiceStep → Prop
  | .token clientId request =>
    ∃ client code, Redeems env db clientId request client code ∧ grantSession client code.scope code.sid = some sid
  | _ => False

theorem sessionCleared_exec (h : db.SessionCleared sid)
    (hstep : ¬ step.RedeemsInSession env sid db) : (step.exec env db).SessionCleared sid := by
  have hquiet : ∀ {db' : Db}, Touches (fun _ => False) (fun _ => False) db db' → db'.SessionCleared sid :=
    fun ht => h.touches ht
  have hless : ∀ {db' : Db}, Sheds db db' → db'.SessionCleared sid := fun hsheds => h.of_subset hsheds.1 hsheds.2
  cases step with
  | authorize => exact h.issues (within_handleAuthorizeRequest db)
  | authorizeGrant => exact h.issues (within_authorizeGrant db)
  | startDeviceAuthorization => exact h.issues (within_startDeviceAuthorization db)
  | deviceDecision => exact h.issues (within_deviceDecision db)
  | token =>
    refine h.issues (Granting.issues tokenEndpoint_cases (fun client code hredeems => ?_) fun v _ => nofun)
    have hother : grantSession client code.scope code.sid ≠ some sid :=
      fun htied => hstep ⟨client, code, hredeems, htied⟩
    refine ⟨hother, fun s hs => ?_⟩
    rintro rfl
    exact hother hs
  | lifecycle c => exact h.touches (c.touches_exec env db)
  | reactivateUser => exact hquiet (within_reactivateUser db)
  | setOidcSettings => exact hless (sheds_setOidcSettings db)
  | assignClientToGroup => exact hless (sheds_assignClientToGroup db)
  | removeClientGroupAssignment => exact hless (sheds_removeClientGroupAssignment db)
  | endOidcSession other => exact hquiet (touches_endOidcSession db)
  | wait micros => exact hquiet (touches_wait micros)

theorem not_redeemsInSession_of_ended (h : (step.exec env db).SessionEnded sid) :
    ¬ step.RedeemsInSession env sid db := by
  intro hredeems
  cases step with
  | token =>
    obtain ⟨client, code, hredeems, htied⟩ := hredeems
    obtain ⟨r, hr, hsid⟩ := tokenEndpoint_records hredeems htied
    exact h.clients r hr hsid
  | _ => exact hredeems

/-- An ended session stays ended exactly as long as no code of it is redeemed for tokens tied to it. -/
theorem ended_session_stays_ended_iff (env : Env) (db : Db) (sid : Id) (steps : List ServiceStep) :
    (∀ reached rest, steps = reached ++ rest →
      (run (exec env) ((WeftId.endOidcSession (some sid)).exec db) reached).SessionEnded sid) ↔
    Along (exec env) (fun db step => ¬ step.RedeemsInSession env sid db)
      ((WeftId.endOidcSession (some sid)).exec db) steps := by
  have hstart : ((WeftId.endOidcSession (some sid)).exec db).SessionCleared sid := sessionCleared_endOidcSession
  refine reached_iff_along (I := fun db : Db => db.SessionCleared sid) ?_ ?_ (fun _ h => h.ended) hstart
  · exact fun db step h hstep => sessionCleared_exec h hstep
  · exact fun db step _ h => not_redeemsInSession_of_ended h

/-- Ada signs in to the application, signs out, and the application redeems its code only then. -/
theorem code_revives_session :
    let issued := run (exec Env.ascii) appsTenant [.authorize { userId := some 2, sid := some 3 }
      { clientId := 6, redirectUri := "cb", scope := some "openid".toList } true]
    ¬ (run (exec Env.ascii) ((WeftId.endOidcSession (some 3)).exec issued) [.token 6 adaRedeems]).SessionEnded 3 := by
  intro issued h
  have hrow : ∃ r ∈ (run (exec Env.ascii) ((WeftId.endOidcSession (some 3)).exec issued)
      [.token 6 adaRedeems]).oidcSessionClients, r.sid = 3 := by decide +kernel
  obtain ⟨r, hr, hsid⟩ := hrow
  exact h.clients r hr hsid

end ServiceStep

end WeftId
