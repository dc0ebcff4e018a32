import WeftId.OAuth.TokenEndpoint

/-!
Chains of refresh tokens.  A rotation replaces a refresh token by one with the same grant and the same expiry
and hangs the access tokens of the old one onto the new one.  The new access token gets its hour from a later
reading of the clock than the one at which the refresh token was found unexpired, so it outlives its parent by at
most an hour and the time in between.  The sweep of expired tokens, which takes the children of a token with it,
waits a day.
-/

namespace WeftId

open List Proc Run

namespace Db

/-- Deletes tokens that expired more than the given number of days ago, and what was minted from them. -/
def purgeExpiredTokens (db : Db) (olderThanDays : Nat) : Db :=
  db.deleteTokens fun t => t.expiresAt + olderThanDays * 86400 * 1000000 < db.now

def cleanupExpiredTokens (db : Db) : Db := db.purgeExpiredTokens 1

def TokensNumbered (db : Db) : Prop := ∀ t ∈ db.oauth2Tokens, t.id < db.nextId

variable {db : Db} {old t : OAuth2Token}

theorem mem_rotateRefreshToken_self (hold : old.id < db.nextId) :
    { old with id := db.nextId, parentTokenId := none } ∈ (db.rotateRefreshToken old).2.oauth2Tokens := by
  refine mem_filter.mpr ⟨mem_map.mpr ⟨{ old with id := db.nextId, parentTokenId := none }, ?_, ?_⟩, ?_⟩
  · exact mem_append_right _ (mem_singleton.mpr rfl)
  · exact reparent_of_parent_none rfl
  · have hne := ne_of_gt hold
    simp [hne]

end Db

/-- The refresh token of a first pair: the first row that the request adds. -/
structure FirstRefresh (db : Db) (refresh : OAuth2Token) : Prop where
  id : refresh.id = db.nextId
  tokenType : refresh.tokenType = .refresh
  parentTokenId : refresh.parentTokenId = none
  expiresAt : db.now ≤ refresh.expiresAt

/-- The access token of a request, a child of the first row that the request adds. -/
structure NewAccess (env : Env) (db : Db) (access : OAuth2Token) : Prop where
  id : access.id = db.nextId + 1
  tokenType : access.tokenType = .access
  parentTokenId : access.parentTokenId = some db.nextId
  expiresAt : access.expiresAt = db.now + env.tokenPause + env.accessTokenExpiry * 1000000

structure Rotates (env : Env) (db db' : Db) (old access : OAuth2Token) : Prop where
  mem : old ∈ db.oauth2Tokens
  tokenType : old.tokenType = .refresh
  live : db.now < old.expiresAt
  nextId : db'.nextId = db.nextId + 2
  child : NewAccess env db access
  tokens : db'.oauth2Tokens = (db.rotateRefreshToken old).2.oauth2Tokens ++ [access]

inductive Minted (env : Env) (db : Db) (request : GrantRequest) : Except Error TokenAnswer → Db → Prop
  /-- Nothing for a user: tokens may be revoked, and a service user may get an access token. -/
  | kept {answer : Except Error TokenAnswer} {db' : Db} (hanswer : ∀ c u, answer ≠ .ok (.issued c u))
    (hnext : db.nextId ≤ db'.nextId)
    (htokens : ∀ t ∈ db'.oauth2Tokens, t ∈ db.oauth2Tokens ∨
      (t.id = db.nextId ∧ db.nextId < db'.nextId ∧ t.tokenType = .access ∧ t.parentTokenId = none)) :
    Minted env db request answer db'
  /-- A first pair of tokens. -/
  | granted {c u : Id} {db' : Db} (refresh access : OAuth2Token) (hrequest : ∀ id, request ≠ .refreshToken id)
    (hnext : db'.nextId = db.nextId + 2)
    (hrefresh : FirstRefresh db refresh) (haccess : NewAccess env db access)
    (htokens : db'.oauth2Tokens = db.oauth2Tokens ++ [refresh, access]) :
    Minted env db request (.ok (.issued c u)) db'
  | refreshed {c u : Id} {db' : Db} (old access : OAuth2Token) (hrequest : request = .refreshToken (some old.id))
    (hrotates : Rotates env db db' old access) : Minted env db request (.ok (.issued c u)) db'

variable {answer : Except Error TokenAnswer} {refresh : OAuth2Token}

section Endpoint

variable {env : Env} {db : Db}

/-- The steps before any token is added: the numbering stands still, and tokens may be revoked. -/
structure Revokes (db db' : Db) : Prop where
  nextId : db'.nextId = db.nextId
  tokens : db'.oauth2Tokens ⊆ db.oauth2Tokens

theorem Revokes.refl (db : Db) : Revokes db db := ⟨rfl, fun _ => id⟩

variable {request : GrantRequest}

theorem Minted.of_revokes {db' : Db}
    (h : Revokes db db') (hanswer : ∀ c u, answer ≠ .ok (.issued c u)) : Minted env db request answer db' :=
  .kept hanswer (le_of_eq h.nextId.symm) fun _ ht => .inl (h.tokens ht)

theorem consumeCode_tokens (db : Db) (codeId : Id) : (db.consumeCode codeId).2.now = db.now ∧
    (db.consumeCode codeId).2.nextId = db.nextId ∧ (db.consumeCode codeId).2.oauth2Tokens = db.oauth2Tokens := by
  unfold Db.consumeCode
  split_ifs
  · exact ⟨rfl, rfl, rfl⟩
  · exact ⟨rfl, rfl, rfl⟩

theorem redeemDeviceCode_tokens {requestId : Id} : (db.redeemDeviceCode requestId).2.now = db.now ∧
    (db.redeemDeviceCode requestId).2.nextId = db.nextId ∧
    (db.redeemDeviceCode requestId).2.oauth2Tokens = db.oauth2Tokens := by
  unfold Db.redeemDeviceCode
  split_ifs
  · exact ⟨rfl, rfl, rfl⟩
  · exact ⟨rfl, rfl, rfl⟩

theorem issueUserTokens_minted {db₁ db' : Db} {r : Except Error TokenAnswer}
    {client : OAuth2Client} {userId : Id} {scope : Option Text} {grantId : Id} {sid : Option Id}
    (hrequest : ∀ id, request ≠ .refreshToken id)
    (h : db₁.now = db.now ∧ db₁.nextId = db.nextId ∧ db₁.oauth2Tokens = db.oauth2Tokens)
    (hissue : issueUserTokens env client userId scope grantId sid db₁ = (r, db')) : Minted env db request r db' := by
  obtain ⟨hnow, hnext, htokens⟩ := h
  obtain ⟨db₂, hcreate, hdb'⟩ := issueUserTokens_cases env
  obtain ⟨rfl, rfl⟩ := Prod.mk.inj (hdb'.symm.trans hissue)
  obtain ⟨-, hdb₂⟩ := Db.createAccessToken_eq_ok hcreate
  have hgranted : ∀ db' : Db, db'.nextId = db₂.nextId → db'.oauth2Tokens = db₂.oauth2Tokens →
      Minted env db request (.ok (.issued client.id userId)) db' := by
    intro db' hnext' htokens'
    rw [hdb₂] at hnext' htokens'
    refine .granted _ _ hrequest (hnext'.trans (congrArg (· + 2) hnext)) ?_ ?_
      (htokens'.trans ((append_assoc _ _ _).trans (congrArg (· ++ _) htokens)))
    · exact ⟨hnext, rfl, rfl, le_trans (le_of_eq hnow.symm) (Nat.le_add_right _ _)⟩
    · exact ⟨congrArg (· + 1) hnext, rfl, congrArg some hnext, congrArg (· + _ + _) hnow⟩
  cases grantSession client scope sid with
  | none => exact hgranted _ rfl rfl
  | some s => exact hgranted _ rfl rfl

theorem tokenEndpoint_minted (hnumbered : db.TokensNumbered) {clientId : Id} :
    (tokenEndpoint env clientId request).Ensures db fun r db' => Minted env db request r db' := by
  refine tokenEndpoint_cases.mono fun r db' h => ?_
  cases h with
  | kept hr => exact .of_revokes (Revokes.refl db) hr
  | reused hr codeId h =>
    obtain ⟨-, hnext, htokens⟩ := consumeCode_tokens db codeId
    rcases h with rfl | rfl
    · exact .of_revokes ⟨rfl, fun t ht => (Db.mem_deleteTokens ht).1⟩ hr
    · exact .of_revokes ⟨hnext, fun t ht => htokens ▸ (Db.mem_deleteTokens ht).1⟩ hr
  | polled hr => exact .of_revokes ⟨rfl, fun _ => id⟩ hr
  | code h hissue =>
    obtain ⟨_, _, _, rfl, -⟩ := h.presented
    exact issueUserTokens_minted (fun _ h => by cases h) (consumeCode_tokens db _) hissue
  | refresh _ hrequest hfound _ hcreate =>
    obtain ⟨hmem, -, hrefresh, -, hlive⟩ := Db.findRefreshToken_spec hfound
    obtain ⟨-, rfl⟩ := Db.createAccessToken_eq_ok hcreate
    exact .refreshed _ _ hrequest ⟨hmem, hrefresh, hlive, rfl, ⟨rfl, rfl, rfl, rfl⟩, rfl⟩
  | orphaned hfound hcreate =>
    have hnew : ∃ t ∈ ((db.rotateRefreshToken _).2.wait env.tokenPause).oauth2Tokens, t.id = db.nextId :=
      ⟨_, Db.mem_rotateRefreshToken_self (hnumbered _ (Db.findRefreshToken_spec hfound).1), rfl⟩
    obtain ⟨db', hdb'⟩ := Db.createAccessToken_of_parent hnew
    cases hdb'.symm.trans hcreate
  | service _ _ hcreate =>
    obtain ⟨-, rfl⟩ := Db.createAccessToken_eq_ok hcreate
    refine .kept (by simp) (Nat.le_succ _) fun t ht => ?_
    rcases mem_concat_iff.mp ht with ht | rfl
    · exact .inl ht
    · exact .inr ⟨rfl, Nat.lt_succ_self _, rfl, rfl⟩
  | device _ hrequest _ _ _ _ hissue =>
    exact issueUserTokens_minted (by simp [hrequest]) redeemDeviceCode_tokens hissue
  | unredeemed hr =>
    obtain ⟨-, hnext, htokens⟩ := redeemDeviceCode_tokens
    exact .of_revokes ⟨hnext, htokens ▸ fun _ => id⟩ hr

end Endpoint

structure Chain where
  refresh : List OAuth2Token
  access : List Id

namespace Chain

/-- What a request from `db` to `db'` has added. -/
def created (db db' : Db) : Chain where
  refresh := db'.oauth2Tokens.filter fun t => t.tokenType = .refresh ∧ db.nextId ≤ t.id
  access := (db'.oauth2Tokens.filter fun t => t.tokenType = .access ∧ db.nextId ≤ t.id).map (·.id)

def append (new chain : Chain) : Chain where
  refresh := new.refresh ++ chain.refresh
  access := new.access ++ chain.access

end Chain

structure ChainWorld where
  db : Db
  chains : List Chain := []

inductive ChainEvent
  /-- A token request, with the time that it takes. -/
  | token (pause : Nat) (clientId : Id) (request : GrantRequest)
  /-- Any revocation, of whichever tokens. -/
  | revoke (selected : OAuth2Token → Bool)
  /-- Anything that happens to the other tables. -/
  | elsewhere (other : Db)
  | cleanupExpiredTokens
  | wait (micros : Nat)

def ChainEvent.pause : ChainEvent → Nat
  | .token pause _ _ => pause
  | _ => 0

namespace ChainWorld

def prolong (chains : List Chain) (request : GrantRequest) (new : Chain) : List Chain :=
  match request with
  | .refreshToken (some old) => chains.map fun chain =>
      if ∃ t ∈ chain.refresh, t.id = old then new.append chain else chain
  | _ => new :: chains

def answered (w : ChainWorld) (request : GrantRequest) : Except Error TokenAnswer → Db → ChainWorld
  | .ok (.issued _ _), db => { db, chains := prolong w.chains request (Chain.created w.db db) }
  | _, db => { w with db }

def step (env : Env) (w : ChainWorld) : ChainEvent → ChainWorld
  | .token pause clientId request =>
    let (answer, db) := tokenEndpoint { env with tokenPause := pause } clientId request w.db
    w.answered request answer db
  | .revoke selected => { w with db := w.db.deleteTokens selected }
  | .elsewhere other =>
    { w with db := { other with
        now := w.db.now
        nextId := max w.db.nextId other.nextId
        oauth2Tokens := w.db.oauth2Tokens } }
  | .cleanupExpiredTokens => { w with db := w.db.cleanupExpiredTokens }
  | .wait micros => { w with db := { w.db with now := w.db.now + micros } }

end ChainWorld

structure OAuth2Token.SameGrant (t t' : OAuth2Token) : Prop where
  clientId : t.clientId = t'.clientId
  userId : t.userId = t'.userId
  scope : t.scope = t'.scope
  grantId : t.grantId = t'.grantId
  sid : t.sid = t'.sid
  expiresAt : t.expiresAt = t'.expiresAt

theorem OAuth2Token.SameGrant.symm {t t' : OAuth2Token} (h : t.SameGrant t') : t'.SameGrant t :=
  ⟨h.1.symm, h.2.symm, h.3.symm, h.4.symm, h.5.symm, h.6.symm⟩

def Db.AcceptsRefresh (db : Db) (tokenId : Id) : Prop := ∃ clientId, (db.findRefreshToken tokenId clientId).isSome

def accessLifetime : Nat := 3600 * 1000000

namespace Chain

/-- The refresh tokens of the chain agree, at most one of them is stored, and the access tokens hang on one of
them and do not outlive it by more than an hour and the given slack. -/
structure Sound (slack : Nat) (db : Db) (chain : Chain) : Prop where
  refresh_lt : ∀ t ∈ chain.refresh, t.id < db.nextId
  access_lt : ∀ id ∈ chain.access, id < db.nextId
  orphan : ∀ t ∈ chain.refresh, t.parentTokenId = none
  stored : ∀ t ∈ chain.refresh, ∀ t' ∈ db.oauth2Tokens, t'.id = t.id → t' = t
  grant : ∀ t ∈ chain.refresh, ∀ t' ∈ chain.refresh, t.SameGrant t'
  sole : ∀ t ∈ chain.refresh, ∀ t' ∈ chain.refresh, t ∈ db.oauth2Tokens → t' ∈ db.oauth2Tokens → t = t'
  parent : ∀ a ∈ db.oauth2Tokens, a.id ∈ chain.access → ∃ p ∈ chain.refresh, a.parentTokenId = some p.id ∧
    a.expiresAt ≤ p.expiresAt + slack + accessLifetime

variable {slack : Nat} {env : Env} {db db' : Db} {chain : Chain} {old access t : OAuth2Token}

theorem Sound.later (h : chain.Sound slack db) (hnext : db.nextId ≤ db'.nextId)
    (htokens : ∀ t ∈ db'.oauth2Tokens, t ∈ db.oauth2Tokens ∨ db.nextId ≤ t.id) : chain.Sound slack db' := by
  have hold : ∀ t ∈ db'.oauth2Tokens, t.id < db.nextId → t ∈ db.oauth2Tokens := by
    intro t ht hlt
    rcases htokens t ht with hmem | hle
    · exact hmem
    · exact absurd hlt (not_lt.mpr hle)
  refine ⟨fun t ht => lt_of_lt_of_le (h.refresh_lt t ht) hnext,
    fun id hid => lt_of_lt_of_le (h.access_lt id hid) hnext, h.orphan, ?_, h.grant, ?_, ?_⟩
  · intro t ht t' ht' hid
    exact h.stored t ht t' (hold t' ht' (hid ▸ h.refresh_lt t ht)) hid
  · intro t ht t' ht' hmem hmem'
    exact h.sole t ht t' ht' (hold t hmem (h.refresh_lt t ht)) (hold t' hmem' (h.refresh_lt t' ht'))
  · intro a ha hid
    exact h.parent a (hold a ha (h.access_lt a.id hid)) hid

theorem mem_created_refresh : t ∈ (created db db').refresh ↔
    t ∈ db'.oauth2Tokens ∧ t.tokenType = .refresh ∧ db.nextId ≤ t.id := by
  simp [created]

theorem mem_created_access {id : Id} : id ∈ (created db db').access ↔
    ∃ t ∈ db'.oauth2Tokens, (t.tokenType = .access ∧ db.nextId ≤ t.id) ∧ t.id = id := by
  simp [created, and_assoc]

/-- The hour of an access token and a pause between the statements within the slack. -/
structure Timely (slack : Nat) (env : Env) : Prop where
  expiry : env.accessTokenExpiry = 3600
  pause : env.tokenPause ≤ slack

theorem expiresAt_le_of_newAccess (haccess : NewAccess env db access) (htimely : Timely slack env) {e : Nat}
    (h : db.now ≤ e) : access.expiresAt ≤ e + slack + accessLifetime := by
  rw [haccess.expiresAt, htimely.expiry]
  exact Nat.add_le_add_right (Nat.add_le_add h htimely.pause) _

theorem sound_created (hnumbered : db.TokensNumbered) (htimely : Timely slack env)
    (hrefresh : FirstRefresh db refresh) (haccess : NewAccess env db access) (hnext : db'.nextId = db.nextId + 2)
    (htokens : db'.oauth2Tokens = db.oauth2Tokens ++ [refresh, access]) :
    (created db db').Sound slack db' := by
  have hcases : ∀ t ∈ db'.oauth2Tokens, db.nextId ≤ t.id → t = refresh ∨ t = access := by
    intro t ht hle
    rw [htokens, mem_append] at ht
    rcases ht with ht | ht
    · exact absurd (hnumbered t ht) (not_lt.mpr hle)
    · simpa using ht
  have hr : ∀ t ∈ (created db db').refresh, t = refresh := by
    intro t ht
    obtain ⟨hmem, htype, hle⟩ := mem_created_refresh.mp ht
    rcases hcases t hmem hle with rfl | rfl
    · rfl
    · rw [haccess.tokenType] at htype
      cases htype
  have ha : ∀ id ∈ (created db db').access, id = db.nextId + 1 := by
    intro id hid
    obtain ⟨t, hmem, ⟨htype, hle⟩, rfl⟩ := mem_created_access.mp hid
    rcases hcases t hmem hle with rfl | rfl
    · rw [hrefresh.tokenType] at htype
      cases htype
    · exact haccess.id
  have hmem : refresh ∈ (created db db').refresh :=
    mem_created_refresh.mpr ⟨by simp [htokens], hrefresh.tokenType, le_of_eq hrefresh.id.symm⟩
  have hne : access.id ≠ refresh.id := by
    rw [haccess.id, hrefresh.id]
    exact Nat.succ_ne_self _
  refine ⟨fun t ht => ?_, fun id hid => ?_, fun t ht => ?_, fun t ht t' ht' hid => ?_, fun t ht t' ht' => ?_,
    fun t ht t' ht' _ _ => (hr t ht).trans (hr t' ht').symm, fun a hmema hid => ?_⟩
  · rw [hr t ht, hrefresh.id, hnext]
    exact Nat.lt_add_of_pos_right two_pos
  · rw [ha id hid, hnext]
    exact Nat.lt_succ_self _
  · rw [hr t ht]
    exact hrefresh.parentTokenId
  · rw [hr t ht] at hid ⊢
    rcases hcases t' ht' (hid ▸ le_of_eq hrefresh.id.symm) with rfl | rfl
    · rfl
    · exact absurd hid hne
  · rw [hr t ht, hr t' ht']
    exact ⟨rfl, rfl, rfl, rfl, rfl, rfl⟩
  · have hid' := ha a.id hid
    rcases hcases a hmema (hid' ▸ Nat.le_succ _) with rfl | rfl
    · exact absurd (haccess.id.trans hid'.symm) hne
    · refine ⟨refresh, hmem, by rw [haccess.parentTokenId, hrefresh.id], ?_⟩
      exact expiresAt_le_of_newAccess haccess htimely hrefresh.expiresAt

section Rotation

variable (hrotates : Rotates env db db' old access)
include hrotates

theorem Rotates.mem_cases (ht : t ∈ db'.oauth2Tokens) :
    t = { old with id := db.nextId, parentTokenId := none } ∨ t = access ∨
      ∃ t₀ ∈ db.oauth2Tokens, t₀.id ≠ old.id ∧ t = db.reparent old t₀ := by
  rw [hrotates.tokens, mem_append, mem_singleton] at ht
  rcases ht with ht | ht
  · obtain ⟨hne, hnew | ⟨t₀, ht₀, rfl⟩⟩ := Db.mem_rotateRefreshToken_cases ht
    · exact .inl hnew
    · exact .inr (.inr ⟨t₀, ht₀, Db.reparent_id ▸ hne, rfl⟩)
  · exact .inr (.inl ht)

theorem Rotates.mem_of_lt (ht : t ∈ db'.oauth2Tokens) (hlt : t.id < db.nextId) :
    ∃ t₀ ∈ db.oauth2Tokens, t₀.id ≠ old.id ∧ t₀.id = t.id ∧ t = db.reparent old t₀ := by
  rcases Rotates.mem_cases hrotates ht with rfl | rfl | ⟨t₀, ht₀, hne, rfl⟩
  · exact absurd hlt (lt_irrefl _)
  · rw [hrotates.child.id] at hlt
    exact absurd hlt (not_lt.mpr (Nat.le_succ _))
  · exact ⟨t₀, ht₀, hne, Db.reparent_id.symm, rfl⟩

theorem Rotates.mem_of_ge (hnumbered : db.TokensNumbered) (ht : t ∈ db'.oauth2Tokens)
    (hle : db.nextId ≤ t.id) : t = { old with id := db.nextId, parentTokenId := none } ∨ t = access := by
  rcases Rotates.mem_cases hrotates ht with hnew | haccess | ⟨t₀, ht₀, -, rfl⟩
  · exact .inl hnew
  · exact .inr haccess
  · rw [Db.reparent_id] at hle
    exact absurd (hnumbered t₀ ht₀) (not_lt.mpr hle)

theorem Rotates.nextId_lt : db.nextId < db'.nextId := by
  rw [hrotates.nextId]
  exact Nat.lt_add_of_pos_right two_pos

theorem Sound.stored_of_rotates (h : chain.Sound slack db) {t' : OAuth2Token} (ht : t ∈ chain.refresh)
    (ht' : t' ∈ db'.oauth2Tokens) (hid : t'.id = t.id) : t' = t ∧ t ∈ db.oauth2Tokens ∧ t.id ≠ old.id := by
  obtain ⟨t₀, ht₀, hne, hid₀, rfl⟩ := Rotates.mem_of_lt hrotates ht' (hid ▸ h.refresh_lt t ht)
  obtain rfl : t₀ = t := h.stored t ht t₀ ht₀ (hid₀.trans hid)
  exact ⟨Db.reparent_of_parent_none (h.orphan t₀ ht), ht₀, hne⟩

theorem Sound.of_rotates_other (h : chain.Sound slack db) (hother : ¬ ∃ t ∈ chain.refresh, t.id = old.id) :
    chain.Sound slack db' := by
  have hlt := Rotates.nextId_lt hrotates
  refine ⟨fun t ht => lt_trans (h.refresh_lt t ht) hlt, fun id hid => lt_trans (h.access_lt id hid) hlt,
    h.orphan, fun t ht t' ht' hid => (h.stored_of_rotates hrotates ht ht' hid).1, h.grant,
    fun t ht t' ht' hmem hmem' => ?_, fun a ha hid => ?_⟩
  · exact h.sole t ht t' ht' (h.stored_of_rotates hrotates ht hmem rfl).2.1
      (h.stored_of_rotates hrotates ht' hmem' rfl).2.1
  · obtain ⟨a₀, ha₀, -, hid₀, rfl⟩ := Rotates.mem_of_lt hrotates ha (h.access_lt a.id hid)
    obtain ⟨p, hp, hparent, hle⟩ := h.parent a₀ ha₀ (hid₀ ▸ hid)
    have hne : ¬ a₀.parentTokenId = some old.id := by
      rw [hparent]
      exact fun heq => hother ⟨p, hp, Option.some.inj heq⟩
    rw [Db.reparent, if_neg hne]
    exact ⟨p, hp, hparent, hle⟩

theorem Rotates.created_refresh (hnumbered : db.TokensNumbered) :
    t ∈ (created db db').refresh ↔ t = { old with id := db.nextId, parentTokenId := none } := by
  rw [mem_created_refresh]
  constructor
  · rintro ⟨ht, htype, hle⟩
    rcases Rotates.mem_of_ge hrotates hnumbered ht hle with hnew | rfl
    · exact hnew
    · rw [hrotates.child.tokenType] at htype
      cases htype
  · rintro rfl
    refine ⟨?_, hrotates.tokenType, le_refl _⟩
    rw [hrotates.tokens]
    exact mem_append_left _ (Db.mem_rotateRefreshToken_self (hnumbered old hrotates.mem))

theorem Rotates.created_access (hnumbered : db.TokensNumbered) {id : Id} (h : id ∈ (created db db').access) :
    id = db.nextId + 1 := by
  obtain ⟨t, ht, ⟨htype, hle⟩, rfl⟩ := mem_created_access.mp h
  rcases Rotates.mem_of_ge hrotates hnumbered ht hle with rfl | rfl
  · have hrefresh := htype
    rw [hrotates.tokenType] at hrefresh
    cases hrefresh
  · exact hrotates.child.id

theorem Sound.of_rotates (h : chain.Sound slack db) (hnumbered : db.TokensNumbered) (htimely : Timely slack env)
    (hold : old ∈ chain.refresh) : ((created db db').append chain).Sound slack db' := by
  have hlt := Rotates.nextId_lt hrotates
  have hmem : ∀ t, t ∈ ((created db db').append chain).refresh ↔
      t = { old with id := db.nextId, parentTokenId := none } ∨ t ∈ chain.refresh := by
    intro t
    rw [append, mem_append, Rotates.created_refresh hrotates hnumbered]
  -- the other tokens of the chain were gone before, and the old one goes now
  have hgone : ∀ t ∈ chain.refresh, t ∉ db'.oauth2Tokens := by
    intro t ht hstored
    obtain ⟨-, hmemt, hne⟩ := h.stored_of_rotates hrotates ht hstored rfl
    exact hne (congrArg OAuth2Token.id (h.sole t ht old hold hmemt hrotates.mem))
  have hgrant : ∀ t ∈ chain.refresh,
      OAuth2Token.SameGrant { old with id := db.nextId, parentTokenId := none } t := by
    intro t ht
    obtain ⟨hc, hu, hs, hg, hsid, he⟩ := h.grant old hold t ht
    exact ⟨hc, hu, hs, hg, hsid, he⟩
  refine ⟨fun t ht => ?_, fun id hid => ?_, fun t ht => ?_, fun t ht t' ht' hid => ?_, fun t ht t' ht' => ?_,
    fun t ht t' ht' hs hs' => ?_, fun a ha hid => ?_⟩
  · rcases (hmem t).mp ht with rfl | ht
    · exact hlt
    · exact lt_trans (h.refresh_lt t ht) hlt
  · rcases mem_append.mp hid with hid | hid
    · rw [Rotates.created_access hrotates hnumbered hid, hrotates.nextId]
      exact Nat.lt_succ_self _
    · exact lt_trans (h.access_lt id hid) hlt
  · rcases (hmem t).mp ht with rfl | ht
    · rfl
    · exact h.orphan t ht
  · rcases (hmem t).mp ht with rfl | ht
    · rcases Rotates.mem_of_ge hrotates hnumbered ht' (le_of_eq hid.symm) with hnew | rfl
      · exact hnew
      · rw [hrotates.child.id] at hid
        exact absurd hid (Nat.succ_ne_self _)
    · exact (h.stored_of_rotates hrotates ht ht' hid).1
  · rcases (hmem t).mp ht with rfl | ht <;> rcases (hmem t').mp ht' with rfl | ht'
    · exact ⟨rfl, rfl, rfl, rfl, rfl, rfl⟩
    · exact hgrant t' ht'
    · exact (hgrant t ht).symm
    · exact h.grant t ht t' ht'
  · rcases (hmem t).mp ht with rfl | ht
    · rcases (hmem t').mp ht' with rfl | ht'
      · rfl
      · exact absurd hs' (hgone t' ht')
    · exact absurd hs (hgone t ht)
  · have hnew := (hmem _).mpr (.inl rfl)
    rcases mem_append.mp hid with hid | hid
    · have hid' := Rotates.created_access hrotates hnumbered hid
      rcases Rotates.mem_of_ge hrotates hnumbered ha (hid' ▸ Nat.le_succ _) with rfl | rfl
      · exact absurd hid'.symm (Nat.succ_ne_self _)
      · exact ⟨_, hnew, hrotates.child.parentTokenId,
          expiresAt_le_of_newAccess hrotates.child htimely (le_of_lt hrotates.live)⟩
    · obtain ⟨a₀, ha₀, -, hid₀, rfl⟩ := Rotates.mem_of_lt hrotates ha (h.access_lt a.id hid)
      obtain ⟨p, hp, hparent, hle⟩ := h.parent a₀ ha₀ (hid₀ ▸ hid)
      by_cases heq : p.id = old.id
      · obtain rfl : old = p := h.stored p hp old hrotates.mem heq.symm
        rw [Db.reparent, if_pos hparent]
        exact ⟨_, hnew, rfl, hle⟩
      · have hne : ¬ a₀.parentTokenId = some old.id := by
          rw [hparent]
          exact fun h => heq (Option.some.inj h)
        rw [Db.reparent, if_neg hne]
        exact ⟨p, (hmem p).mpr (.inr hp), hparent, hle⟩

end Rotation

end Chain

namespace ChainWorld

variable {slack : Nat} {env : Env} {w : ChainWorld} {db : Db} {access : OAuth2Token}

structure Sound (slack : Nat) (w : ChainWorld) : Prop where
  numbered : w.db.TokensNumbered
  chain : ∀ chain ∈ w.chains, chain.Sound slack w.db
  begun : ∀ t ∈ w.db.oauth2Tokens, t.tokenType = .refresh → ∃ chain ∈ w.chains, t ∈ chain.refresh
  covered : ∀ a ∈ w.db.oauth2Tokens, a.parentTokenId.isSome → ∃ chain ∈ w.chains, a.id ∈ chain.access

theorem Sound.later (h : w.Sound slack) (hnext : w.db.nextId ≤ db.nextId)
    (htokens : ∀ t ∈ db.oauth2Tokens, t ∈ w.db.oauth2Tokens ∨
      (t.id = w.db.nextId ∧ w.db.nextId < db.nextId ∧ t.tokenType = .access ∧ t.parentTokenId = none)) :
    Sound slack { w with db } := by
  refine ⟨fun t ht => ?_, fun chain hchain => ?_, fun t ht htype => ?_, fun a ha hparent => ?_⟩
  · rcases htokens t ht with hmem | ⟨hid, hlt, -⟩
    · exact lt_of_lt_of_le (h.numbered t hmem) hnext
    · exact hid ▸ hlt
  · refine (h.chain chain hchain).later hnext fun t ht => ?_
    rcases htokens t ht with hmem | ⟨hid, -⟩
    · exact .inl hmem
    · exact .inr (le_of_eq hid.symm)
  · rcases htokens t ht with hmem | ⟨-, -, haccess, -⟩
    · exact h.begun t hmem htype
    · rw [haccess] at htype
      cases htype
  · rcases htokens a ha with hmem | ⟨-, -, -, hnone⟩
    · exact h.covered a hmem hparent
    · rw [hnone] at hparent
      cases hparent

theorem Sound.of_subset (h : w.Sound slack) (hnext : w.db.nextId ≤ db.nextId)
    (htokens : db.oauth2Tokens ⊆ w.db.oauth2Tokens) : Sound slack { w with db } :=
  h.later hnext fun _ ht => .inl (htokens ht)

theorem Sound.granted (h : w.Sound slack) (htimely : Chain.Timely slack env)
    (hrequest : ∀ id, request ≠ .refreshToken id)
    (hnext : db.nextId = w.db.nextId + 2) (hrefresh : FirstRefresh w.db refresh) (haccess : NewAccess env w.db access)
    (htokens : db.oauth2Tokens = w.db.oauth2Tokens ++ [refresh, access]) :
    Sound slack { db, chains := prolong w.chains request (Chain.created w.db db) } := by
  have hchains : prolong w.chains request (Chain.created w.db db) = Chain.created w.db db :: w.chains := by
    cases request with
    | refreshToken id => exact absurd rfl (hrequest id)
    | _ => rfl
  have hcases : ∀ t ∈ db.oauth2Tokens, t ∈ w.db.oauth2Tokens ∨ t = refresh ∨ t = access := by
    intro t ht
    rw [htokens] at ht
    simpa using ht
  have hlt : w.db.nextId + 1 < db.nextId := hnext ▸ Nat.lt_succ_self _
  rw [hchains]
  refine ⟨fun t ht => ?_, fun chain hchain => ?_, fun t ht htype => ?_, fun a ha hparent => ?_⟩
  · rcases hcases t ht with ht | rfl | rfl
    · exact lt_trans (h.numbered t ht) (Nat.lt_of_succ_lt hlt)
    · exact hrefresh.id ▸ Nat.lt_of_succ_lt hlt
    · exact haccess.id ▸ hlt
  · rcases mem_cons.mp hchain with rfl | hchain
    · exact Chain.sound_created h.numbered htimely hrefresh haccess hnext htokens
    · refine (h.chain chain hchain).later (le_of_lt (Nat.lt_of_succ_lt hlt)) fun t ht => ?_
      rcases hcases t ht with ht | rfl | rfl
      · exact .inl ht
      · exact .inr (le_of_eq hrefresh.id.symm)
      · exact .inr (haccess.id ▸ Nat.le_succ _)
  · rcases hcases t ht with hmem | rfl | rfl
    · obtain ⟨chain, hchain, hin⟩ := h.begun t hmem htype
      exact ⟨chain, mem_cons_of_mem _ hchain, hin⟩
    · exact ⟨_, mem_cons_self, Chain.mem_created_refresh.mpr ⟨ht, htype, le_of_eq hrefresh.id.symm⟩⟩
    · rw [haccess.tokenType] at htype
      cases htype
  · rcases hcases a ha with hmem | rfl | rfl
    · obtain ⟨chain, hchain, hin⟩ := h.covered a hmem hparent
      exact ⟨chain, mem_cons_of_mem _ hchain, hin⟩
    · rw [hrefresh.parentTokenId] at hparent
      cases hparent
    · refine ⟨_, mem_cons_self, Chain.mem_created_access.mpr ⟨a, ha, ⟨haccess.tokenType, ?_⟩, rfl⟩⟩
      exact haccess.id ▸ Nat.le_succ _

theorem exists_prolong {chains : List Chain} {chain new : Chain} {old : Id} (h : chain ∈ chains) :
    ∃ chain' ∈ prolong chains (.refreshToken (some old)) new, chain.refresh ⊆ chain'.refresh ∧
      chain.access ⊆ chain'.access := by
  refine ⟨_, mem_map_of_mem h, ?_⟩
  split_ifs
  · exact ⟨subset_append_right _ _, subset_append_right _ _⟩
  · exact ⟨fun _ => id, fun _ => id⟩

theorem Sound.refreshed {old : OAuth2Token} (h : w.Sound slack) (htimely : Chain.Timely slack env)
    (hrotates : Rotates env w.db db old access) :
    Sound slack { db, chains := prolong w.chains (.refreshToken (some old.id)) (Chain.created w.db db) } := by
  have hlt := Chain.Rotates.nextId_lt hrotates
  obtain ⟨own, hown, hold⟩ := h.begun old hrotates.mem hrotates.tokenType
  have hprolonged : (Chain.created w.db db).append own ∈
      prolong w.chains (.refreshToken (some old.id)) (Chain.created w.db db) :=
    mem_map.mpr ⟨own, hown, if_pos ⟨old, hold, rfl⟩⟩
  refine ⟨fun t ht => ?_, fun chain hchain => ?_, fun t ht htype => ?_, fun a ha hparent => ?_⟩
  · rcases Chain.Rotates.mem_cases hrotates ht with rfl | rfl | ⟨t₀, ht₀, -, rfl⟩
    · exact hlt
    · rw [hrotates.child.id, hrotates.nextId]
      exact Nat.lt_succ_self _
    · rw [Db.reparent_id]
      exact lt_trans (h.numbered t₀ ht₀) hlt
  · obtain ⟨chain₀, hchain₀, rfl⟩ := mem_map.mp hchain
    split_ifs with hin
    · obtain ⟨t, ht, hid⟩ := hin
      obtain rfl : old = t := (h.chain chain₀ hchain₀).stored t ht old hrotates.mem hid.symm
      exact (h.chain chain₀ hchain₀).of_rotates hrotates h.numbered htimely ht
    · exact (h.chain chain₀ hchain₀).of_rotates_other hrotates hin
  · rcases Chain.Rotates.mem_cases hrotates ht with rfl | rfl | ⟨t₀, ht₀, -, rfl⟩
    · refine ⟨_, hprolonged, mem_append_left _ ?_⟩
      exact (Chain.Rotates.created_refresh hrotates h.numbered).mpr rfl
    · rw [hrotates.child.tokenType] at htype
      cases htype
    · rw [Db.reparent_tokenType] at htype
      obtain ⟨chain, hchain, hin⟩ := h.begun t₀ ht₀ htype
      obtain ⟨chain', hchain', hsubset, -⟩ := exists_prolong hchain
      rw [Db.reparent_of_parent_none ((h.chain chain hchain).orphan t₀ hin)]
      exact ⟨chain', hchain', hsubset hin⟩
  · rcases Chain.Rotates.mem_cases hrotates ha with rfl | rfl | ⟨a₀, ha₀, -, rfl⟩
    · cases hparent
    · refine ⟨_, hprolonged, mem_append_left _ ?_⟩
      refine Chain.mem_created_access.mpr ⟨a, ha, ⟨hrotates.child.tokenType, ?_⟩, rfl⟩
      rw [hrotates.child.id]
      exact Nat.le_succ _
    · have hparent₀ : a₀.parentTokenId.isSome := by
        cases hnone : a₀.parentTokenId with
        | none =>
          rw [Db.reparent_of_parent_none hnone, hnone] at hparent
          cases hparent
        | some p => rfl
      obtain ⟨chain, hchain, hin⟩ := h.covered a₀ ha₀ hparent₀
      obtain ⟨chain', hchain', -, hsubset⟩ := exists_prolong hchain
      rw [Db.reparent_id]
      exact ⟨chain', hchain', hsubset hin⟩

theorem Sound.answered (h : w.Sound slack) (htimely : Chain.Timely slack env)
    (hminted : Minted env w.db request answer db) : (w.answered request answer db).Sound slack := by
  cases hminted with
  | kept hanswer hnext htokens =>
    have hsound := h.later hnext htokens
    rcases answer with e | answer
    · exact hsound
    · cases answer with
      | refused => exact hsound
      | issued c u => exact absurd rfl (hanswer c u)
      | serviceToken c u => exact hsound
  | granted refresh access hrequest hnext hrefresh haccess htokens =>
    exact h.granted htimely hrequest hnext hrefresh haccess htokens
  | refreshed old access hrequest hrotates =>
    subst hrequest
    exact h.refreshed htimely hrotates

theorem sound_step (hexpiry : env.accessTokenExpiry = 3600) (h : w.Sound slack) {event : ChainEvent}
    (hevent : event.pause ≤ slack) : (step env w event).Sound slack := by
  cases event with
  | token pause =>
    have htimely : Chain.Timely slack { env with tokenPause := pause } := ⟨hexpiry, hevent⟩
    exact h.answered htimely (tokenEndpoint_minted h.numbered)
  | revoke => exact h.of_subset (le_refl _) fun _ ht => (Db.mem_deleteTokens ht).1
  | elsewhere other => exact h.of_subset (le_max_left _ _) fun _ => id
  | cleanupExpiredTokens => exact h.of_subset (le_refl _) fun _ ht => (Db.mem_deleteTokens ht).1
  | wait micros => exact h.of_subset (le_refl _) fun _ => id

theorem Sound.mem_cleanupExpiredTokens (h : w.Sound slack) (hslack : slack ≤ 23 * accessLifetime)
    {t : OAuth2Token} (ht : t ∈ w.db.oauth2Tokens) (hlive : w.db.now < t.expiresAt) :
    t ∈ w.db.cleanupExpiredTokens.oauth2Tokens := by
  refine mem_filter.mpr ⟨ht, ?_⟩
  simp only [decide_eq_true_eq, not_or, any_eq_true, not_exists]
  refine ⟨by omega, ?_⟩
  rintro parent ⟨hmem, hparent, hexpired⟩
  obtain ⟨chain, hchain, hin⟩ := h.covered t ht (by rw [hparent]; rfl)
  obtain ⟨p, hp, hparent', hle⟩ := (h.chain chain hchain).parent t ht hin
  have hid := Option.some.inj (hparent.symm.trans hparent')
  obtain rfl : parent = p := (h.chain chain hchain).stored p hp parent hmem hid
  unfold accessLifetime at hle hslack
  omega

/-- Along every run each chain of refresh tokens stands for one grant, at most one of its tokens is accepted, its
access tokens hang on it and end at most an hour and the longest pause of a request after their parent, and the
sweep deletes no valid token while the pauses stay within 23 hours. -/
theorem refresh_rotation_preserves_grant (env : Env) (hexpiry : env.accessTokenExpiry = 3600) (slack : Nat) (db : Db)
    (hstart : db.oauth2Tokens = []) (events : List ChainEvent) (hpauses : ∀ event ∈ events, event.pause ≤ slack) :
    let w := run (step env) { db } events
    (∀ chain ∈ w.chains, (∀ t ∈ chain.refresh, ∀ t' ∈ chain.refresh, t.SameGrant t') ∧
      (∀ t ∈ chain.refresh, ∀ t' ∈ chain.refresh, w.db.AcceptsRefresh t.id → w.db.AcceptsRefresh t'.id → t = t') ∧
      ∀ a ∈ w.db.oauth2Tokens, a.id ∈ chain.access → ∃ p ∈ chain.refresh,
        a.parentTokenId = some p.id ∧ a.expiresAt ≤ p.expiresAt + slack + accessLifetime) ∧
    (∀ a ∈ w.db.oauth2Tokens, a.parentTokenId.isSome → ∃ chain ∈ w.chains, a.id ∈ chain.access) ∧
    (slack ≤ 23 * accessLifetime → ∀ t ∈ w.db.oauth2Tokens, w.db.now < t.expiresAt →
      t ∈ w.db.cleanupExpiredTokens.oauth2Tokens) := by
  intro w
  have hsound : Sound slack { db } := by
    have hnone : ∀ t, t ∉ db.oauth2Tokens := fun t => by simp [hstart]
    exact ⟨fun t ht => absurd ht (hnone t), fun _ hchain => absurd hchain not_mem_nil,
      fun t ht => absurd ht (hnone t), fun t ht => absurd ht (hnone t)⟩
  have hrun : w.Sound slack :=
    invariant_of_along (fun _ _ h hevent => sound_step hexpiry h hevent) hsound (along_of_forall hpauses)
  refine ⟨fun chain hchain => ⟨(hrun.chain chain hchain).grant, fun t ht t' ht' hacc hacc' => ?_,
    (hrun.chain chain hchain).parent⟩, hrun.covered, fun hslack t ht => hrun.mem_cleanupExpiredTokens hslack ht⟩
  have hstored : ∀ t ∈ chain.refresh, w.db.AcceptsRefresh t.id → t ∈ w.db.oauth2Tokens := by
    rintro t ht ⟨clientId, hfound⟩
    obtain ⟨row, hrow⟩ := Option.isSome_iff_exists.mp hfound
    have hmem := mem_of_find?_eq_some hrow
    have hmatch := find?_some hrow
    simp only [decide_eq_true_eq] at hmatch
    exact (hrun.chain chain hchain).stored t ht row hmem hmatch.1 ▸ hmem
  exact (hrun.chain chain hchain).sole t ht t' ht' (hstored t ht hacc) (hstored t' ht' hacc')

def codeTenant : Db where
  nextId := 10
  oauth2Clients := [{ id := 5, redirectUris := ["cb"] }]
  authorizationCodes := [{
    id := 3
    code := "c"
    clientId := 5
    userId := 2
    redirectUri := "cb"
    expiresAt := 300 * 1000000 }]

/-- The code is redeemed, the refresh token is used in its last second by a request that takes two, and the sweep
runs after its expiry. -/
def pairEvents : List ChainEvent :=
  [.token 0 5 (.authorizationCode (some "c") (some "cb") none), .wait (2591999 * 1000000),
    .token 2000000 5 (.refreshToken (some 10)), .wait (3000 * 1000000), .cleanupExpiredTokens]

/-- The access token of that request ends an hour and a second after its parent. -/
theorem access_outlives_parent_by_more_than_hour :
    let w := run (step Env.ascii) { db := codeTenant } pairEvents
    ¬ ∀ chain ∈ w.chains, ∀ a ∈ w.db.oauth2Tokens, a.id ∈ chain.access →
      ∃ p ∈ chain.refresh, a.parentTokenId = some p.id ∧ a.expiresAt ≤ p.expiresAt + accessLifetime := by
  decide +kernel

theorem rotated_pair_keeps_grant :
    let w := run (step Env.ascii) { db := codeTenant } pairEvents
    w.chains.map (fun c => (c.refresh.map (·.id), c.access)) = [([12, 10], [13, 11])] ∧
    (∀ chain ∈ w.chains, ∀ t ∈ chain.refresh, ∀ t' ∈ chain.refresh, t.SameGrant t') ∧
    ∀ t ∈ w.db.oauth2Tokens, w.db.now < t.expiresAt → t ∈ w.db.cleanupExpiredTokens.oauth2Tokens := by
  obtain ⟨hchains, -, hsweep⟩ := refresh_rotation_preserves_grant Env.ascii rfl 2000000 codeTenant rfl
    pairEvents (by decide)
  exact ⟨by decide +kernel, fun chain hchain => (hchains chain hchain).1, hsweep (by decide)⟩

end ChainWorld

end WeftId
