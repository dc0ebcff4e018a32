import WeftId.ForwardAuth.Confinement

/-!
What the gateway hands on: the names of the user's groups to the app behind it, and the browser to the place
where the handshake began.
-/

namespace WeftId

open List

theorem cleanHeader_eq_self_iff {value : Text} : cleanHeader value = value ↔ '\r' ∉ value ∧ '\n' ∉ value := by
  simp only [cleanHeader, filter_eq_self, decide_eq_true_eq]
  constructor
  · exact fun h => ⟨fun hr => (h _ hr).1 rfl, fun hn => (h _ hn).2 rfl⟩
  · rintro ⟨hr, hn⟩ c hc
    exact ⟨fun h => hr (h ▸ hc), fun h => hn (h ▸ hc)⟩

theorem map_cleanHeader_eq_self_iff {names : List Text} :
    names.map cleanHeader = names ↔ ∀ name ∈ names, '\r' ∉ name ∧ '\n' ∉ name := by
  have hcleaned := @map_inj_left _ _ names cleanHeader id
  rw [map_id] at hcleaned
  exact hcleaned.trans (forall₂_congr fun name _ => cleanHeader_eq_self_iff)

/-- A backend that splits the header sees the user's groups, and no other, if every name is free of the
separator and of what is cleaned away; a user without groups seems to be in one with an empty name. -/
theorem forwarded_groups_faithful_iff (app : ProxyApp) (identity : ForwardIdentity) :
    (∀ header, ("X-Forwarded-Groups", header) ∈ buildForwardedHeaders app identity →
      Text.split ',' header = identity.groups) ↔ (app.headerConfig.groups = true → identity.groups ≠ [] ∧
      ∀ name ∈ identity.groups, ',' ∉ name ∧ '\r' ∉ name ∧ '\n' ∉ name) := by
  have hmem : ∀ header, ("X-Forwarded-Groups", header) ∈ buildForwardedHeaders app identity ↔
      app.headerConfig.groups = true ∧ header = Text.join ',' (identity.groups.map cleanHeader) := by
    simp [buildForwardedHeaders]
  simp only [hmem, and_imp, forall_eq_apply_imp_iff]
  refine forall_congr' fun _ => ?_
  constructor
  · intro h
    have hcomma : ∀ name ∈ identity.groups, ',' ∉ name := fun name hname =>
      Text.notMem_of_mem_split (h ▸ hname)
    have hne : identity.groups ≠ [] := h ▸ Text.split_ne_nil ',' _
    have hclean : identity.groups.map cleanHeader = identity.groups := by
      rwa [Text.split_join (by simpa using hne)] at h
      intro part hpart
      obtain ⟨name, hname, rfl⟩ := mem_map.mp hpart
      exact fun hc => hcomma name hname (mem_of_mem_filter hc)
    exact ⟨hne, fun name hname => ⟨hcomma name hname, map_cleanHeader_eq_self_iff.mp hclean name hname⟩⟩
  · rintro ⟨hne, hnames⟩
    rw [map_cleanHeader_eq_self_iff.mpr fun name hname => (hnames name hname).2]
    exact Text.split_join hne fun name hname => (hnames name hname).1

/-- An upstream provider may name a group so that its members seem to be in another one. -/
theorem forwarded_groups_split_name :
    let db : Db := { nextId := 3, identityProviders := [{ id := 2, name := "Okta".toList }] }
    let name := "staff,admins".toList
    ((db.createIdpGroup 2 name .saml).map fun created => created.2.groups.map (·.name)).toOption = some [name] ∧
      ∃ app, ∃ identity header, identity.groups = [name] ∧
        ("X-Forwarded-Groups", header) ∈ buildForwardedHeaders app identity ∧
        Text.split ',' header = ["staff".toList, "admins".toList] := by
  refine ⟨by decide +kernel, ?_⟩
  let app : ProxyApp :=
    { id := 21, tenantId := 1, protectedDomainId := 11, externalUrl := [], headerConfig := { groups := true } }
  exact ⟨app, { visitorIdentity with groups := ["staff,admins".toList] }, _, rfl, mem_singleton_self _, by decide⟩

section Destinations

variable (env : ForwardAuthEnv)

def rdHost (rd : Text) : Except Error Text :=
  if rd = [] then .ok []
  else (urlsplit env rd).map fun url =>
    match hostname env url with
    | some host => if url.scheme = "https" then normalizeHost env (some host) else []
    | none => []

/-- A text that a query compares with a text column; the driver refuses NUL. -/
def bindText (value : Text) : Except Error Text :=
  if '\x00' ∈ value then .error (.exception "DataError") else .ok value

def resolveAppForRd (g : Gateway) (tenantId protectedDomainId : Id) (rd : Text) : Except Error (Option ProxyApp) := do
  let host ← rdHost env rd
  if host ≠ [] then (bindText host).map (g.getEnabledProxyAppForDomainAndHost tenantId protectedDomainId)
  else
    match (g.listProxyAppsForDomain tenantId protectedDomainId).filter (·.enabled) with
    | [app] => pure (some app)
    | _ => pure none

def Rooted (rd : Text) : Prop := rd.take 1 = ['/'] ∧ rd.take 2 ≠ ['/', '/']

/-- The host and the port that a URL names; without a port it is that of `https`. -/
def endpoint (url : SplitUrl) : Except Error (Option Text × Nat) :=
  (port env url).map fun found => (hostname env url, found.getD 443)

/-- A path that the browser resolves at the app, or a URL of the app's own origin. -/
def StaysWith (appExternalUrl rd : Text) : Prop :=
  Rooted rd ∨ ∃ url app place, urlsplit env rd = .ok url ∧ url.scheme = "https" ∧
    urlsplit env appExternalUrl = .ok app ∧ endpoint env url = .ok place ∧ endpoint env app = .ok place

/-- The host is in lower case, without a colon and trailing dots, and the port, if there is one, a number other
than 0. -/
def PlainAuthority (url : SplitUrl) : Prop :=
  (∃ host, hostname env url = some host ∧ normalizeHost env (some host) = host) ∧
    ∃ found, port env url = .ok found ∧ found ≠ some 0

variable {env} {rd appExternalUrl : Text} {url : SplitUrl}

theorem resolveAppForRd_returns {g : Gateway} {tenantId protectedDomainId : Id} {host : Text}
    (hhost : rdHost env rd = .ok host) (hnul : '\x00' ∉ host) :
    ∃ found, resolveAppForRd env g tenantId protectedDomainId rd = .ok found := by
  simp only [resolveAppForRd, hhost, bindText, if_neg hnul, bind, Except.bind]
  split_ifs
  · exact ⟨_, rfl⟩
  · split <;> exact ⟨_, rfl⟩

theorem safeRd_of_rooted (h : Rooted rd) (hlength : rd.length ≤ 2048) :
    safeRd env rd appExternalUrl = .ok (some rd) := by
  have hne : rd ≠ [] := by
    rintro rfl
    cases h.1
  unfold safeRd
  rw [if_neg hne, take_of_length_le hlength]
  exact if_pos h

theorem safeRd_of_not_rooted (h : ¬ Rooted rd) (hlength : rd.length ≤ 2048) (hsplit : urlsplit env rd = .ok url) :
    safeRd env rd appExternalUrl = .ok none ∨ url.netloc ≠ [] ∧ url.scheme = "https" ∧
      safeRd env rd appExternalUrl = (urlsplit env appExternalUrl).bind fun app =>
        if normalizeHost env (hostname env url) ≠ normalizeHost env (hostname env app) then .ok none
        else (port env url).bind fun rdPort => (port env app).bind fun appPort =>
          if portOrDefault rdPort ≠ portOrDefault appPort then .ok none else .ok (some rd) := by
  unfold safeRd
  split_ifs with hrd
  · exact .inl rfl
  · have hpath : ¬ (rd.take 1 = ['/'] ∧ rd.take 2 ≠ ['/', '/']) := h
    simp only [take_of_length_le hlength, if_neg hpath, hsplit, bind, Except.bind]
    by_cases hrefused : url.scheme ≠ "https" ∨ url.netloc = []
    · exact .inl (if_pos hrefused)
    · rw [if_neg hrefused]
      rw [not_or, not_not] at hrefused
      exact .inr ⟨hrefused.2, hrefused.1, rfl⟩

theorem endpoint_eq_of_plain {app : SplitUrl} (h : PlainAuthority env url) (happ : PlainAuthority env app)
    (hhost : normalizeHost env (hostname env url) = normalizeHost env (hostname env app)) :
    ∃ rdPort appPort, port env url = .ok rdPort ∧ port env app = .ok appPort ∧
      (portOrDefault rdPort = portOrDefault appPort → endpoint env url = endpoint env app) := by
  obtain ⟨⟨host, hname, hnormal⟩, found, hport, hzero⟩ := h
  obtain ⟨⟨appHost, happName, happNormal⟩, appFound, happPort, happZero⟩ := happ
  refine ⟨found, appFound, hport, happPort, fun hsame => ?_⟩
  rw [hname, happName, hnormal, happNormal] at hhost
  have hdefault : ∀ {p : Option Nat}, p ≠ some 0 → portOrDefault p = p.getD 443 := by
    rintro (_ | n) hp
    · rfl
    · have hn : n ≠ 0 := fun h => hp (by rw [h])
      simp [portOrDefault, Option.filter, hn]
  rw [hdefault hzero, hdefault happZero] at hsame
  simp [endpoint, hport, happPort, hname, happName, hhost, hsame, Except.map]

/-- What is decided about a destination that is not a path. -/
theorem safeRd_stays (h : ¬ Rooted rd) (hlength : rd.length ≤ 2048) (hsplit : urlsplit env rd = .ok url)
    (hplain : url.scheme = "https" → url.netloc ≠ [] → ∃ app, urlsplit env appExternalUrl = .ok app ∧
      (normalizeHost env (hostname env url) = normalizeHost env (hostname env app) →
        PlainAuthority env url ∧ PlainAuthority env app)) :
    ∃ rd', safeRd env rd appExternalUrl = .ok rd' ∧ ∀ destination ∈ rd', StaysWith env appExternalUrl destination := by
  obtain hnone | ⟨hne, hscheme, hcompared⟩ := safeRd_of_not_rooted h hlength hsplit
  · exact ⟨none, hnone, by simp⟩
  · obtain ⟨app, happ, hplain⟩ := hplain hscheme hne
    rw [hcompared, happ]
    by_cases hhost : normalizeHost env (hostname env url) = normalizeHost env (hostname env app)
    · obtain ⟨hrd, happPlain⟩ := hplain hhost
      obtain ⟨rdPort, appPort, hport, happPort, hplace⟩ := endpoint_eq_of_plain hrd happPlain hhost
      by_cases hsame : portOrDefault rdPort = portOrDefault appPort
      · refine ⟨some rd, by simp [Except.bind, hhost, hport, happPort, hsame], ?_⟩
        rintro destination ⟨⟩
        have hplace := hplace hsame
        rw [endpoint, hport] at hplace
        exact .inr ⟨url, app, _, hsplit, hscheme, happ, by rw [endpoint, hport]; rfl, hplace.symm⟩
      · exact ⟨none, by simp [Except.bind, hhost, hport, happPort, hsame], by simp⟩
    · exact ⟨none, by simp [Except.bind, hhost], by simp⟩

end Destinations

end WeftId
