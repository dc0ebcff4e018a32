import WeftId.ForwardAuth.Gateway

/-!
Where a cookie of forward auth counts.  The portal host that sets it is found by its domain and tenant, but
the value names neither, so another portal host reads it just as well and asks only whether its own tables
let the user in.
-/

namespace WeftId

open Proc ClosureTable

def AnswersWithIdentity (answer : Except Error CheckAnswer) : Prop :=
  ∃ headers, answer = .ok (.allowed headers) ∧ headers ≠ []

def Gateway.Opens (g : Gateway) (tenantId userId appId : Id) : Prop :=
  (∃ a ∈ g.proxyApps, a.tenantId = tenantId ∧ a.id = appId ∧ a.availableToAll) ∨
    ∃ m ∈ (g.directory tenantId).memberships, m.userId = userId ∧ ∃ a ∈ g.assignments,
      a.tenantId = tenantId ∧ a.proxyAppId = appId ∧ (depthOf (g.directory tenantId).lineage a.groupId m.groupId).isSome

/-- The request is stopped by the rate limiter, or selects no app that would tell the user's identity: none at
all, one for which the path is public or no header is enabled or a header would not encode, or one that is not
open to the user. -/
def Shielded (env : ForwardAuthEnv) (g : Gateway) (portal : ProtectedDomain) (request : PortalRequest)
    (identity : ForwardIdentity) (userId : Id) : Prop :=
  request.blocked ∨ ∀ app, resolveApp env g portal request = some app →
    isPublicPath app (originalPath request) ∨ app.headerConfig = {} ∨
      (∃ header ∈ buildForwardedHeaders app identity, ∃ c ∈ header.2, 256 ≤ c.toNat) ∨
      ¬ g.Opens portal.tenantId userId app.id

section Check

variable {env : ForwardAuthEnv} {g : Gateway} {portal : ProtectedDomain} {request : PortalRequest} {id : Id}

theorem userCanAccessProxyApp_iff {tenantId userId appId : Id} :
    g.userCanAccessProxyApp tenantId userId appId = true ↔ g.Opens tenantId userId appId := by
  simp [Gateway.userCanAccessProxyApp, Gateway.Opens]

theorem bindUuid_eq_ok {value : Text} : bindUuid value = .ok id ↔ Numeral.readUuid value = some id := by
  unfold bindUuid
  cases Numeral.readUuid value <;> simp

theorem recheckCookieAccess_of_readUuid {userId : Text} (h : Numeral.readUuid userId = some id) (tenantId appId : Id) :
    recheckCookieAccess env g tenantId userId appId = .ok (g.userCanAccessProxyApp tenantId id appId) := by
  have hlooks := Numeral.looksLikeUuid_of_readUuid env.digitValue h
  unfold recheckCookieAccess
  rw [if_neg (not_not.mpr hlooks), bindUuid_eq_ok.mpr h]
  rfl

variable {identity : ForwardIdentity}

theorem buildForwardedHeaders_eq_nil {app : ProxyApp} :
    buildForwardedHeaders app identity = [] ↔ app.headerConfig = {} := by
  unfold buildForwardedHeaders
  rcases app.headerConfig with ⟨_ | _, _ | _, _ | _, _ | _⟩ <;> simp

theorem cookieIdentity_build (identity : ForwardIdentity) (ttlSeconds issued : Nat) :
    cookieIdentity env (Json.sortKeys (cookiePayload identity ttlSeconds issued)) = identity := by
  have hfield := Json.field_sortKeys (cookiePayload_keys identity ttlSeconds issued)
  have hgroups : (identity.groups.map Json.str).map (Scim.showJson env.toEnv) = identity.groups := by
    rw [List.map_map]
    exact List.map_id _
  unfold cookieIdentity
  simp only [hfield]
  exact congrArg (fun groups => { identity with groups }) hgroups

variable {issued : Nat} (hportal : g.portalDomain env request = some portal)
  (hcookie : request.cookie = some (buildForwardAuthCookieValue env identity issued))
  (hlifetime : g.now ≤ (issued / 1000000 + forwardAuthCookieTtl) * 1000000)
  (hid : Numeral.readUuid identity.userId = some id)

include hportal hcookie hlifetime hid

theorem forwardAuthCheck_of_cookie :
    forwardAuthCheck env g request = if request.blocked then .ok .tooManyRequests else
      match resolveApp env g portal request with
      | none => .ok (.denied "No application is configured for this address.")
      | some app =>
        if isPublicPath app (originalPath request) then .ok (.allowed [])
        else if g.userCanAccessProxyApp portal.tenantId id app.id then
          (encodeHeaders (buildForwardedHeaders app identity)).map .allowed
        else .ok (.denied "You do not have access to this application.") := by
  have hread : readForwardAuthCookie env request.cookie g.now =
      some (Json.sortKeys (cookiePayload identity forwardAuthCookieTtl issued)) := by
    rw [hcookie]
    exact readForwardAuthCookie_build hlifetime
  unfold forwardAuthCheck
  rw [hportal]
  dsimp only
  split
  · rfl
  cases resolveApp env g portal request with
  | none => rfl
  | some app =>
    dsimp only
    split
    · rfl
    rw [hread]
    dsimp only
    rw [cookieIdentity_build, recheckCookieAccess_of_readUuid hid]
    cases g.userCanAccessProxyApp portal.tenantId id app.id with
    | false => rfl
    | true => rfl

theorem answersWithIdentity_iff :
    AnswersWithIdentity (forwardAuthCheck env g request) ↔ ¬ Shielded env g portal request identity id := by
  have hother : ∀ answer, (∀ headers, answer ≠ .allowed headers) → ¬ AnswersWithIdentity (.ok answer) :=
    fun answer hne ⟨headers, heq, _⟩ => hne headers (Except.ok.inj heq)
  have hallowed : ∀ headers, AnswersWithIdentity (.ok (.allowed headers)) ↔ headers ≠ [] := by
    intro headers
    constructor
    · rintro ⟨headers', heq, hne⟩
      rwa [CheckAnswer.allowed.inj (Except.ok.inj heq)]
    · exact fun hne => ⟨headers, rfl, hne⟩
  rw [forwardAuthCheck_of_cookie hportal hcookie hlifetime hid]
  unfold Shielded
  split
  · rename_i hblocked
    exact iff_of_false (hother _ (by simp)) fun h => h (.inl hblocked)
  rename_i hblocked
  cases resolveApp env g portal request with
  | none => exact iff_of_false (hother _ (by simp)) fun h => h (.inr fun app happ => by cases happ)
  | some app =>
    simp only [hblocked, Bool.false_eq_true, false_or, Option.some.injEq, forall_eq']
    split
    · rename_i hpublic
      exact iff_of_false (by simp [hallowed]) fun h => h (.inl hpublic)
    rename_i hpublic
    split
    · rename_i hopens
      rw [userCanAccessProxyApp_iff] at hopens
      unfold encodeHeaders
      split
      · rename_i hlatin
        have hencodes : ¬ ∃ header ∈ buildForwardedHeaders app identity, ∃ c ∈ header.2, 256 ≤ c.toNat := by
          simpa using hlatin
        rw [Except.map, hallowed, ne_eq, buildForwardedHeaders_eq_nil]
        simp only [hpublic, hencodes, hopens, Bool.false_eq_true, not_true_eq_false, false_or, or_false]
      · rename_i hother
        have hbad : ∃ header ∈ buildForwardedHeaders app identity, ∃ c ∈ header.2, 256 ≤ c.toNat := by
          simpa using hother
        exact iff_of_false (by rintro ⟨_, ⟨⟩, _⟩) fun h => h (.inr (.inr (.inl hbad)))
    · rename_i hclosed
      rw [userCanAccessProxyApp_iff] at hclosed
      exact iff_of_false (hother _ (by simp)) fun h => h (.inr (.inr (.inr hclosed)))

end Check

section Callback

variable {env : ForwardAuthEnv} {g : Gateway} {request : PortalRequest} {token : Text}

theorem redeemAuthorizationToken_frame {expectedDomain : Text} :
    (redeemAuthorizationToken env token expectedDomain).Ensures g fun _ g' => ∃ nonces, g' = { g with nonces } := by
  refine .lookup (fun payload _ => ?_) fun _ _ => ⟨g.nonces, rfl⟩
  cases payload with
  | none => exact ⟨g.nonces, rfl⟩
  | some =>
    refine Ensures.bind (Q := fun _ g' => ∃ nonces, g' = { g with nonces }) ⟨_, rfl⟩
      (fun consumed g' h => ?_) fun _ _ h => h
    cases consumed with
    | none => exact h
    | some row =>
      dsimp only
      split
      · exact h
      · exact h

theorem buildForwardAuthIdentity_eq_some {tenantId : Id} {userId : Text}
    (h : buildForwardAuthIdentity env g tenantId userId = .ok (some identity)) :
    ∃ id user, Numeral.readUuid identity.userId = some id ∧ (g.directory tenantId).getUserById id = some user ∧
      ¬ (user.isInactivated ∨ user.isAnonymized) := by
  unfold buildForwardAuthIdentity at h
  cases hbind : bindUuid userId with
  | error e =>
    rw [hbind] at h
    cases h
  | ok id =>
    rw [hbind] at h
    dsimp only [bind, Except.bind] at h
    cases huser : (g.directory tenantId).getUserById id with
    | none =>
      rw [huser] at h
      cases h
    | some user =>
      rw [huser] at h
      dsimp only at h
      split at h
      · cases h
      · rename_i hactive
        cases h
        exact ⟨id, user, bindUuid_eq_ok.mp hbind, huser, hactive⟩

theorem forwardAuthCallback_spec :
    (forwardAuthCallback env request token).Ensures g fun r _ => ∀ location cookie domain,
      r = .ok (.signedIn location cookie domain) → ∃ portal identity id user,
        g.portalDomain env request = some portal ∧ domain = portal.domain ∧
        cookie = buildForwardAuthCookieValue env identity g.now ∧ Numeral.readUuid identity.userId = some id ∧
        (g.directory portal.tenantId).getUserById id = some user ∧ ¬ (user.isInactivated ∨ user.isAnonymized) := by
  refine .read ?_
  cases hportal : g.portalDomain env request with
  | none =>
    intro location cookie domain h
    have hsigned := Except.ok.inj h
    unfold guardHost at hsigned
    split at hsigned
    · cases hsigned
    · dsimp only at hsigned
      split_ifs at hsigned
  | some portal =>
    refine redeemAuthorizationToken_frame.bind (fun redeemed g' h => ?_)
      fun _ _ _ _ _ _ h => by cases h
    obtain ⟨nonces, rfl⟩ := h
    cases redeemed with
    | none => exact fun _ _ _ h => by cases h
    | some =>
      dsimp only
      split
      · exact fun _ _ _ h => by cases h
      refine .lookup (fun appId _ => ?_) fun _ _ _ _ _ h => by cases h
      refine .read ?_
      split
      · exact fun _ _ _ h => by cases h
      refine .lookup (fun identity hidentity => ?_) fun _ _ _ _ _ h => by cases h
      cases identity with
      | none => exact fun _ _ _ h => by cases h
      | some identity =>
        refine .lookup (fun destination _ => ?_) fun _ _ _ _ _ h => by cases h
        cases destination with
        | none => exact fun _ _ _ h => by cases h
        | some rd =>
          refine .read fun location cookie domain h => ?_
          obtain ⟨id, user, hid, huser, hactive⟩ := buildForwardAuthIdentity_eq_some hidentity
          obtain ⟨-, rfl, rfl⟩ := CallbackAnswer.signedIn.inj (Except.ok.inj h)
          exact ⟨portal, identity, id, user, rfl, rfl, rfl, hid, huser, hactive⟩

section Mint

variable {userId tenantId appId : Id} {domain rd nonce : Text} {ttlSeconds issued : Nat} {row : ForwardAuthNonce}

theorem showJson_token (env : Env) (key : String) : Scim.showJson env
    (Json.field (Json.sortKeys (tokenPayload userId tenantId domain appId rd nonce ttlSeconds issued)) key) =
      Scim.showJson env (Json.field (tokenPayload userId tenantId domain appId rd nonce ttlSeconds issued) key) :=
  congrArg (Scim.showJson env) (Json.field_sortKeys (tokenPayload_keys _ _ _ _ _ _ _ _) key)

theorem redeemAuthorizationToken_mint (htime : g.now ≤ (issued / 1000000 + ttlSeconds) * 1000000)
    (hascii : domain.all (·.toNat < 128) = true)
    (hrow : g.nonces.find? (fun n => n.nonce = nonce ∧ n.domain = domain ∧ g.now < n.expiresAt) = some row)
    (htenant : row.tenantId = tenantId) :
    (redeemAuthorizationToken env (mintAuthorizationToken env userId tenantId domain appId rd nonce ttlSeconds issued)
      domain).Ensures g fun r g' => (∃ nonces, g' = { g with nonces }) ∧
        r = .ok (some (Json.sortKeys (tokenPayload userId tenantId domain appId rd nonce ttlSeconds issued))) := by
  have hverify := @verifyAuthorizationToken_mint env userId tenantId domain appId rd nonce ttlSeconds issued g.now
    htime hascii
  have hconsume : (consumeNonce nonce domain).Ensures g fun r g' => (∃ nonces, g' = { g with nonces }) ∧
      r = .ok (some row) := ⟨⟨_, rfl⟩, congrArg Except.ok hrow⟩
  refine .lookup (fun found hfound => ?_) fun e he => by cases hverify.symm.trans he
  obtain rfl := Except.ok.inj (hverify.symm.trans hfound)
  have htid : Numeral.uuid row.tenantId = Scim.showJson env.toEnv (Json.field (Json.sortKeys
      (tokenPayload userId tenantId domain appId rd nonce ttlSeconds issued)) "tid") := by
    rw [showJson_token, htenant]
    rfl
  dsimp only
  rw [showJson_token env.toEnv "nonce"]
  refine hconsume.bind (fun consumed g' h => ?_) fun e g' h => by cases h.2
  obtain ⟨hframe, hrow⟩ := h
  obtain rfl := Except.ok.inj hrow
  dsimp only
  rw [if_neg (not_not.mpr htid)]
  exact ⟨hframe, rfl⟩

theorem forwardAuthCallback_mint {portal : ProtectedDomain} {app : ProxyApp} {location : Text}
    (hportal : g.portalDomain env request = some portal)
    (htime : g.now ≤ (issued / 1000000 + ttlSeconds) * 1000000) (hascii : portal.domain.all (·.toNat < 128) = true)
    (hrow : g.nonces.find? (fun n => n.nonce = nonce ∧ n.domain = portal.domain ∧ g.now < n.expiresAt) = some row)
    (htenant : row.tenantId = portal.tenantId) (happId : Numeral.readUuid (Numeral.uuid appId) = some appId)
    (happ : g.proxyApps.find? (fun a => a.tenantId = portal.tenantId ∧ a.id = appId) = some app)
    (henabled : app.enabled)
    (hidentity : buildForwardAuthIdentity env g portal.tenantId (Numeral.uuid userId) = .ok (some identity))
    (hrd : safeRd env rd app.externalUrl = .ok (some location)) : (forwardAuthCallback env request
      (mintAuthorizationToken env userId portal.tenantId portal.domain appId rd nonce ttlSeconds issued)).Ensures g
        fun r _ => r = .ok (.signedIn location (buildForwardAuthCookieValue env identity g.now) portal.domain) := by
  refine .read ?_
  rw [hportal]
  refine (redeemAuthorizationToken_mint htime hascii hrow htenant).bind (fun redeemed g' h => ?_)
    fun e g' h => by cases h.2
  obtain ⟨⟨nonces, rfl⟩, hpayload⟩ := h
  obtain rfl := Except.ok.inj hpayload
  have htid : Scim.showJson env.toEnv (Json.field (Json.sortKeys
      (tokenPayload userId portal.tenantId portal.domain appId rd nonce ttlSeconds issued)) "tid") =
        Numeral.uuid portal.tenantId := by
    rw [showJson_token]
    rfl
  have hidentity' := hidentity
  dsimp only
  rw [if_neg (not_not.mpr htid), showJson_token env.toEnv "app", showJson_token env.toEnv "sub",
    showJson_token env.toEnv "rd"]
  have hid := bindUuid_eq_ok.mpr happId
  refine .lookup (fun id hfound => ?_) fun e he => by cases hid.symm.trans he
  obtain rfl := Except.ok.inj (hid.symm.trans hfound)
  refine .read ?_
  have happ' : (g.proxyApps.find? (fun a => a.tenantId = portal.tenantId ∧ a.id = appId)).filter (·.enabled) =
      some app := by
    rw [happ]
    exact if_pos henabled
  simp only [happ']
  refine .lookup (fun found hfound => ?_) fun e he => by cases hidentity'.symm.trans he
  obtain rfl := Except.ok.inj (hidentity'.symm.trans hfound)
  refine .lookup (fun found hfound => ?_) fun e he => by cases hrd.symm.trans he
  obtain rfl := Except.ok.inj (hrd.symm.trans hfound)
  rfl

end Mint

/-- A cookie that a portal host has set tells an identity on that host only, unless another host shields its
apps from the user: nothing in the value keeps it from being read there. -/
theorem forward_auth_cookie_confined_iff (token : Text) {location cookie domain : Text}
    (hsigned : (forwardAuthCallback env request token g).1 = .ok (.signedIn location cookie domain)) :
    ∃ portal identity userId user, g.portalDomain env request = some portal ∧ domain = portal.domain ∧
      cookie = buildForwardAuthCookieValue env identity g.now ∧
      (g.directory portal.tenantId).getUserById userId = some user ∧
      ∀ (g' : Gateway) (check : PortalRequest) (portal' : ProtectedDomain), g'.portalDomain env check = some portal' →
        check.cookie = some cookie → g'.now ≤ (g.now / 1000000 + forwardAuthCookieTtl) * 1000000 →
        ((AnswersWithIdentity (forwardAuthCheck env g' check) →
            portal'.tenantId = portal.tenantId ∧ portal'.domain = portal.domain) ↔
          (portal'.tenantId = portal.tenantId ∧ portal'.domain = portal.domain) ∨
            Shielded env g' portal' check identity userId) := by
  obtain ⟨portal, identity, id, user, hportal, hdomain, hcookie, hid, huser, -⟩ :=
    forwardAuthCallback_spec location cookie domain hsigned
  refine ⟨portal, identity, id, user, hportal, hdomain, hcookie, huser,
    fun g' check portal' hportal' hcheck hlifetime => ?_⟩
  rw [hcookie] at hcheck
  have hanswers := answersWithIdentity_iff hportal' hcheck hlifetime hid
  constructor
  · intro hconfined
    by_cases hshielded : Shielded env g' portal' check identity id
    · exact .inr hshielded
    · exact .inl (hconfined (hanswers.mpr hshielded))
  · rintro (hsame | hshielded) hidentity
    · exact hsame
    · exact absurd hshielded (hanswers.mp hidentity)

end Callback

section TwoTenants

def ForwardAuthEnv.ascii : ForwardAuthEnv where
  toEnv := Env.ascii
  tokenKey := fun message => ⟨List.replicate 32 (UInt8.ofNat message.length), by simp⟩
  cookieKey := fun message => ⟨List.replicate 32 (UInt8.ofNat (message.length + 1)), by simp⟩
  readFloat := fun spelling => .float spelling false
  floatMicros := fun _ => none
  baseDomain := none
  collate := fun a b => a ≤ b
  acceptsNetloc := fun _ => true

def firstDomain : ProtectedDomain :=
  { id := 11, tenantId := 1, domain := "a.com", portalHost := "auth.a.com", verified := true }

def secondDomain : ProtectedDomain :=
  { id := 12, tenantId := 2, domain := "b.com", portalHost := "auth.b.com", verified := true }

def twoTenants (availableToAll : Bool) : Gateway where
  now := 0
  protectedDomains := [firstDomain, secondDomain]
  proxyApps := [
    { id := 21, tenantId := 1, protectedDomainId := 11, externalUrl := "https://x.a.com", availableToAll := true },
    { id := 22, tenantId := 2, protectedDomainId := 12, externalUrl := "https://x.b.com", availableToAll,
      headerConfig := { user := true } }]
  nonces := [{ id := 1, nonce := "n", tenantId := 1, domain := "a.com", expiresAt := 60000000 }]
  directory := fun tenantId => { users := if tenantId = 1 then [{ id := 5 }] else [] }

def returnRequest : PortalRequest := { host := some "auth.a.com".toList }

def returnToken : Text :=
  mintAuthorizationToken .ascii 5 1 "a.com" 21 "/" "n" forwardAuthTokenTtl 0

def visitorIdentity : ForwardIdentity :=
  { userId := Numeral.uuid 5, email := [], displayName := [], groups := [] }

def strayRequest : PortalRequest :=
  { host := some "auth.b.com".toList
    cookie := some (buildForwardAuthCookieValue .ascii visitorIdentity 0) }

theorem returnToken_signsIn {availableToAll : Bool} :
    (forwardAuthCallback .ascii returnRequest returnToken (twoTenants availableToAll)).1 =
      .ok (.signedIn "/" (buildForwardAuthCookieValue .ascii visitorIdentity 0) "a.com") := by
  have hidentity : buildForwardAuthIdentity .ascii (twoTenants availableToAll) 1 (Numeral.uuid 5) =
      .ok (some visitorIdentity) := by
    have hid : bindUuid (Numeral.uuid 5) = .ok 5 := bindUuid_eq_ok.mpr (by decide +kernel)
    have hgroups : Gateway.effectiveGroupNames .ascii (twoTenants availableToAll) 1 5 = [] := by
      simp [Gateway.effectiveGroupNames, twoTenants]
    unfold buildForwardAuthIdentity
    rw [hid]
    dsimp only [bind, Except.bind]
    rw [hgroups]
    rfl
  have hportal : (twoTenants availableToAll).portalDomain .ascii returnRequest = some firstDomain := by
    cases availableToAll <;> decide +kernel
  have hrow : (twoTenants availableToAll).nonces.find? (fun n => n.nonce = "n".toList ∧ n.domain = "a.com".toList ∧
      (twoTenants availableToAll).now < n.expiresAt) =
        some { id := 1, nonce := "n", tenantId := 1, domain := "a.com", expiresAt := 60000000 } := by
    cases availableToAll <;> decide +kernel
  have happ : (twoTenants availableToAll).proxyApps.find? (fun a => a.tenantId = 1 ∧ a.id = 21) = some
      { id := 21, tenantId := 1, protectedDomainId := 11, externalUrl := "https://x.a.com",
        availableToAll := true } := by
    cases availableToAll <;> decide +kernel
  have hlifetime : (twoTenants availableToAll).now ≤ (0 / 1000000 + forwardAuthTokenTtl) * 1000000 := Nat.zero_le _
  have happId : Numeral.readUuid (Numeral.uuid 21) = some 21 := by decide +kernel
  have hrd : safeRd .ascii "/" "https://x.a.com" = .ok (some "/") := rfl
  have hascii : "a.com".toList.all (·.toNat < 128) = true := by decide
  have hsigned := forwardAuthCallback_mint hportal hlifetime hascii hrow rfl happId happ rfl hidentity hrd
  exact hsigned

/-- The app of the second tenant is available to all of its users, and is told of a user of the first. -/
theorem cookie_of_one_tenant_tells_another_tenants_app :
    (∃ location, (forwardAuthCallback .ascii returnRequest returnToken (twoTenants true)).1 =
      .ok (.signedIn location (buildForwardAuthCookieValue .ascii visitorIdentity 0) "a.com")) ∧
    ((twoTenants true).directory 2).getUserById 5 = none ∧ forwardAuthCheck .ascii (twoTenants true) strayRequest =
      .ok (.allowed [("X-Forwarded-User", Numeral.uuid 5)]) := by
  refine ⟨⟨_, returnToken_signsIn⟩, rfl, ?_⟩
  have hportal : (twoTenants true).portalDomain .ascii strayRequest = some secondDomain := by
    decide +kernel
  have hid : Numeral.readUuid visitorIdentity.userId = some 5 := by decide +kernel
  rw [forwardAuthCheck_of_cookie hportal rfl (Nat.zero_le _) hid]
  decide +kernel

/-- The same cookie tells nothing to an app that is not available to all. -/
theorem cookie_tells_no_closed_app :
    ¬ AnswersWithIdentity (forwardAuthCheck .ascii (twoTenants false) strayRequest) := by
  obtain ⟨portal, identity, userId, user, hportal, -, -, -, hconfined⟩ :=
    forward_auth_cookie_confined_iff returnToken returnToken_signsIn
  have hissuer : (twoTenants false).portalDomain .ascii returnRequest = some firstDomain := by
    decide +kernel
  obtain rfl := Option.some.inj (hissuer.symm.trans hportal)
  have hreader : (twoTenants false).portalDomain .ascii strayRequest = some secondDomain := by
    decide +kernel
  have hclosed : ∀ appId, ¬ (twoTenants false).Opens 2 userId appId := by
    simp [Gateway.Opens, twoTenants]
  have hsame := hconfined _ strayRequest _ hreader rfl (Nat.zero_le _)
  intro hidentity
  have htenant := (hsame.mpr (.inr (.inr fun app _ => .inr (.inr (.inr (hclosed app.id))))) hidentity).1
  exact absurd htenant (by decide)

end TwoTenants

end WeftId
