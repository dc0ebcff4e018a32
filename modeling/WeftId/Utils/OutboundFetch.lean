import Mathlib.Algebra.GroupWithZero.Nat
import WeftId.Lib.Check
import WeftId.Lib.Url

/-!
Requests to addresses that others choose.  The client of `safe_http` checks every address of one lookup and
connects to one of them; the metadata fetcher checks the first address of a lookup and then lets the library
resolve the host again.
-/

namespace WeftId

open List

inductive IpAddress
  | v4 (bits : BitVec 32)
  | v6 (bits : BitVec 128)
  deriving DecidableEq

namespace IpAddress

def ofBytes (a b c d : Nat) : BitVec 32 := BitVec.ofNat 32 (((a * 256 + b) * 256 + c) * 256 + d)

/-- The leading groups of an address; the others are zero. -/
def ofGroups (groups : List Nat) : BitVec 128 :=
  BitVec.ofNat 128 (groups.foldl (· * 65536 + ·) 0 * 65536 ^ (8 - groups.length))

def inNetwork {w : Nat} (bits : BitVec w) (network : BitVec w × Nat) : Bool :=
  bits >>> (w - network.2) = network.1 >>> (w - network.2)

def isGlobal4 (bits : BitVec 32) : Bool :=
  let private4 := [(ofBytes 0 0 0 0, 8), (ofBytes 10 0 0 0, 8), (ofBytes 127 0 0 0, 8), (ofBytes 169 254 0 0, 16),
    (ofBytes 172 16 0 0, 12), (ofBytes 192 0 0 0, 24), (ofBytes 192 0 0 170, 31), (ofBytes 192 0 2 0, 24),
    (ofBytes 192 168 0 0, 16), (ofBytes 198 18 0 0, 15), (ofBytes 198 51 100 0, 24), (ofBytes 203 0 113 0, 24),
    (ofBytes 240 0 0 0, 4), (ofBytes 255 255 255 255, 32)]
  let exceptions := [(ofBytes 192 0 0 9, 32), (ofBytes 192 0 0 10, 32)]
  ¬ inNetwork bits (ofBytes 100 64 0 0, 10) ∧ ¬ (private4.any (inNetwork bits) ∧ ¬ exceptions.any (inNetwork bits))

/-- For addresses without an IPv4 address inside. -/
def isGlobal6 (bits : BitVec 128) : Bool :=
  let private6 := [(ofGroups [0, 0, 0, 0, 0, 0, 0, 1], 128), (ofGroups [], 128), (ofGroups [0, 0, 0, 0, 0, 0xffff], 96),
    (ofGroups [0x64, 0xff9b, 1], 48), (ofGroups [0x100], 64), (ofGroups [0x2001], 23), (ofGroups [0x2001, 0xdb8], 32),
    (ofGroups [0x2002], 16), (ofGroups [0x3fff], 20), (ofGroups [0xfc00], 7), (ofGroups [0xfe80], 10)]
  let exceptions := [(ofGroups [0x2001, 1, 0, 0, 0, 0, 0, 1], 128), (ofGroups [0x2001, 1, 0, 0, 0, 0, 0, 2], 128),
    (ofGroups [0x2001, 3], 32), (ofGroups [0x2001, 4, 0x112], 48), (ofGroups [0x2001, 0x20], 28),
    (ofGroups [0x2001, 0x30], 28)]
  ¬ (private6.any (inNetwork bits) ∧ ¬ exceptions.any (inNetwork bits))

def blockedNetworks4 : List (BitVec 32 × Nat) :=
  [(ofBytes 0 0 0 0, 8), (ofBytes 10 0 0 0, 8), (ofBytes 100 64 0 0, 10), (ofBytes 127 0 0 0, 8),
    (ofBytes 169 254 0 0, 16), (ofBytes 172 16 0 0, 12), (ofBytes 192 0 0 0, 24), (ofBytes 192 168 0 0, 16),
    (ofBytes 198 18 0 0, 15), (ofBytes 224 0 0 0, 4), (ofBytes 240 0 0 0, 4)]

def blockedNetworks6 : List (BitVec 128 × Nat) :=
  [(ofGroups [], 128), (ofGroups [0, 0, 0, 0, 0, 0, 0, 1], 128), (ofGroups [0x64, 0xff9b], 96),
    (ofGroups [0x64, 0xff9b, 1], 48), (ofGroups [0x2001], 32), (ofGroups [0x2002], 16), (ofGroups [0xfc00], 7),
    (ofGroups [0xfe80], 10), (ofGroups [0xff00], 8)]

def ipv4Mapped (bits : BitVec 128) : Option (BitVec 32) :=
  if inNetwork bits (ofGroups [0, 0, 0, 0, 0, 0xffff], 96) then some (bits.setWidth 32) else none

/-- The other addresses that carry an IPv4 address: 6to4, Teredo and NAT64. -/
def isTransition (bits : BitVec 128) : Bool :=
  inNetwork bits (ofGroups [0x2002], 16) ∨ inNetwork bits (ofGroups [0x2001], 32) ∨
    inNetwork bits (ofGroups [0x64, 0xff9b], 96)

def isBlocked4 (bits : BitVec 32) : Bool :=
  ¬ isGlobal4 bits ∨ inNetwork bits (ofBytes 224 0 0 0, 4) ∨ blockedNetworks4.any (inNetwork bits)

def isBlockedIp : IpAddress → Bool
  | .v4 bits => isBlocked4 bits
  | .v6 bits =>
    match ipv4Mapped bits with
    | some inner => isBlocked4 inner
    | none => isTransition bits ∨ ¬ isGlobal6 bits ∨ inNetwork bits (ofGroups [0xff00], 8) ∨
        blockedNetworks6.any (inNetwork bits)

end IpAddress

open IpAddress

/-- What `getaddrinfo` answers: an error, or socket addresses, some of which may bear no address as text. -/
abbrev Lookup := Option (List (Option IpAddress))

def Lookup.addresses (lookup : Lookup) : List IpAddress := (lookup.getD []).filterMap id

def Lookup.Clean (lookup : Lookup) : Prop := ∀ ip ∈ lookup.addresses, isBlockedIp ip = false
  deriving Decidable

inductive FetchError
  | unreadable
  | unsupportedScheme (scheme : Text)
  | missingHostname
  | unresolved (hostname : Text)
  | blocked
  deriving DecidableEq

/-- The settings of the process, and what `urlparse` takes from the runtime. -/
structure FetchEnv where
  isDev : Bool
  baseDomain : Text
  acceptsNetloc : Text → Bool
  lower : Text → Text

section Guards

variable (env : FetchEnv)

def validateMetadataUrl (url : Text) (lookup : Lookup) : Except FetchError IpAddress :=
  match Url.split env.acceptsNetloc url with
  | none => .error .unreadable
  | some parsed =>
    if parsed.scheme ≠ "https" ∧ ¬ (env.isDev ∧ parsed.scheme = "http") then
      .error (.unsupportedScheme parsed.scheme)
    else
      match Url.hostname env.lower parsed with
      | none => .error .missingHostname
      | some hostname =>
        match lookup with
        | none => .error (.unresolved hostname)
        | some [] => .error (.unresolved hostname)
        | some (none :: _) => .error .unreadable
        | some (some ip :: _) => if isBlockedIp ip then .error .blocked else .ok ip

/-- A URL to be fetched, with the answers to the lookup of the guard and to the one made when connecting. -/
structure Hop where
  url : Text
  validated : Lookup
  connected : Lookup

/-- The redirects that the servers answer with.  The library allows ten different targets, each four times, and
tries the addresses of its lookup in turn. -/
def followRedirects (visited : List Text) : List Hop → List IpAddress
  | [] => []
  | hop :: rest =>
    match validateMetadataUrl env hop.url hop.validated with
    | .error _ => []
    | .ok _ =>
      if 4 ≤ visited.count hop.url ∨ 10 ≤ visited.dedup.length then []
      else hop.connected.addresses ++ followRedirects (hop.url :: visited) rest

def isBaseDomainHost (host : Option Text) : Bool :=
  env.baseDomain ≠ [] ∧ ∃ name ∈ host, env.baseDomain <:+ name

/-- The addresses that the fetch dials, if it gets so far. -/
def fetchMetadataXml (first : Hop) (redirects : List Hop) : Except FetchError (List IpAddress) := do
  match Url.split env.acceptsNetloc first.url with
  | none => .error .unreadable
  | some parsed =>
    if env.isDev ∧ isBaseDomainHost env (Url.hostname env.lower parsed) then
      if parsed.scheme ∉ ["https".toList, "http".toList] then throw (.unsupportedScheme parsed.scheme)
    else
      let _ ← validateMetadataUrl env first.url first.validated
    pure (first.connected.addresses ++ followRedirects env [] redirects)

def checkAddresses : List (Option IpAddress) → Except FetchError (List IpAddress)
  | [] => .ok []
  | none :: infos => checkAddresses infos
  | some ip :: infos => if isBlockedIp ip then .error .blocked else do
    let addresses ← checkAddresses infos
    pure (ip :: addresses)

def resolveAndValidate (host : Text) (lookup : Lookup) : Except FetchError IpAddress :=
  match lookup with
  | none => .error (.unresolved host)
  | some infos => do
    match ← checkAddresses infos with
    | [] => .error (.unresolved host)
    | ip :: _ => pure ip

structure SafeClient where
  devHostnameAllowlist : List Text := []
  devBaseDomainRewrite : Bool := false

/-- One request of the client, which follows no redirect.  A pinned address is dialled as it is. -/
def handleRequest (client : SafeClient) (host : Text) (validated connected : Lookup) :
    Except FetchError (List IpAddress) :=
  if env.isDev ∧ host ∈ client.devHostnameAllowlist then .ok connected.addresses
  else if env.isDev ∧ client.devBaseDomainRewrite ∧ isBaseDomainHost env (some host) then .ok connected.addresses
  else do
    let pinned ← resolveAndValidate host validated
    pure [pinned]

end Guards

section Safety

variable {env : FetchEnv} {hop first : Hop} {hops redirects : List Hop} {url host : Text} {lookup : Lookup}
  {ip : IpAddress}

def Fetchable (env : FetchEnv) (url : Text) : Prop :=
  ∃ parsed ∈ Url.split env.acceptsNetloc url, parsed.scheme = "https" ∧ (Url.hostname env.lower parsed).isSome

/-- If the guard goes by a first address that is not blocked, there is none among the others, nor in the lookup
that follows. -/
def Hop.Stable (env : FetchEnv) (hop : Hop) : Prop :=
  Fetchable env hop.url → ∀ ip, hop.validated.bind List.head? = some (some ip) → isBlockedIp ip = false →
    hop.validated.Clean ∧ hop.connected.Clean

structure SafeFetch (env : FetchEnv) (first : Hop) (redirects : List Hop) : Prop where
  dials : ∀ dialled, fetchMetadataXml env first redirects = .ok dialled → ∀ ip ∈ dialled, isBlockedIp ip = false
  refuses : ∀ hop ∈ first :: redirects, ¬ hop.validated.Clean →
    ∃ e, validateMetadataUrl env hop.url hop.validated = .error e

structure SafeRequest (env : FetchEnv) (client : SafeClient) (host : Text) (validated connected : Lookup) : Prop where
  dials : ∀ dialled, handleRequest env client host validated connected = .ok dialled →
    ∀ ip ∈ dialled, isBlockedIp ip = false
  refuses : ¬ validated.Clean → ∃ e, resolveAndValidate host validated = .error e

theorem validateMetadataUrl_eq_ok_iff (hprod : env.isDev = false) : validateMetadataUrl env url lookup = .ok ip ↔
    Fetchable env url ∧ lookup.bind head? = some (some ip) ∧ isBlockedIp ip = false := by
  unfold validateMetadataUrl Fetchable
  cases Url.split env.acceptsNetloc url with
  | none => simp
  | some parsed =>
    by_cases hscheme : parsed.scheme = "https"
    · cases hhost : Url.hostname env.lower parsed with
      | none => simp [hscheme, hhost]
      | some =>
        rcases lookup with _ | _ | ⟨_ | found, rest⟩
        · simp [hscheme, hhost]
        · simp [hscheme, hhost]
        · simp [hscheme, hhost]
        · by_cases hblocked : isBlockedIp found = true
          · have hne : found = ip → isBlockedIp ip = true := fun h => h ▸ hblocked
            simpa [hscheme, hhost, hblocked] using hne
          · have heq : found = ip → isBlockedIp ip = false := fun h => h ▸ Bool.eq_false_iff.mpr hblocked
            simpa [hscheme, hhost, hblocked] using heq
    · have hrefused : parsed.scheme ≠ "https" ∧ ¬ (env.isDev = true ∧ parsed.scheme = "http") :=
        ⟨hscheme, by simp [hprod]⟩
      simp only [if_pos hrefused, Option.mem_some_iff, exists_eq_left', hscheme, false_and, reduceCtorEq]

theorem Hop.Stable.clean (hprod : env.isDev = false) (h : hop.Stable env)
    (hok : validateMetadataUrl env hop.url hop.validated = .ok ip) : hop.validated.Clean ∧ hop.connected.Clean := by
  obtain ⟨hurl, hhead, hip⟩ := (validateMetadataUrl_eq_ok_iff hprod).mp hok
  exact h hurl ip hhead hip

theorem followRedirects_clean (hprod : env.isDev = false) (visited : List Text) (h : ∀ hop ∈ hops, hop.Stable env) :
    ∀ ip ∈ followRedirects env visited hops, isBlockedIp ip = false := by
  induction hops generalizing visited with
  | nil => simp [followRedirects]
  | cons hop rest ih =>
    have hrest := fun visited => ih visited fun next hnext => h next (mem_cons_of_mem hop hnext)
    intro ip hip
    rw [followRedirects] at hip
    cases hok : validateMetadataUrl env hop.url hop.validated with
    | error e => simp [hok] at hip
    | ok found =>
      rw [hok] at hip
      dsimp only at hip
      split at hip
      · simp at hip
      · rcases mem_append.mp hip with hip | hip
        · exact ((h hop mem_cons_self).clean hprod hok).2 ip hip
        · exact hrest _ ip hip

theorem fetchMetadataXml_eq_ok (hprod : env.isDev = false) {dialled : List IpAddress} :
    fetchMetadataXml env first redirects = .ok dialled ↔
      (∃ ip, validateMetadataUrl env first.url first.validated = .ok ip) ∧
        first.connected.addresses ++ followRedirects env [] redirects = dialled := by
  unfold fetchMetadataXml
  cases hsplit : Url.split env.acceptsNetloc first.url with
  | none => simp [validateMetadataUrl, hsplit]
  | some parsed =>
    cases validateMetadataUrl env first.url first.validated <;> simp [hprod]

theorem checkAddresses_eq_ok {infos : List (Option IpAddress)} {addresses : List IpAddress}
    (h : checkAddresses infos = .ok addresses) :
    addresses = infos.filterMap id ∧ ∀ ip ∈ addresses, isBlockedIp ip = false := by
  induction infos generalizing addresses with
  | nil =>
    obtain rfl := Except.ok.inj h
    exact ⟨rfl, by simp⟩
  | cons info infos ih =>
    cases info with
    | none => exact ih h
    | some ip =>
      rw [checkAddresses] at h
      split at h
      · cases h
      · rename_i hip
        obtain ⟨rest, hrest, h⟩ := Check.bind_eq_ok.mp h
        obtain ⟨rfl, hclean⟩ := ih hrest
        obtain rfl := Except.ok.inj h
        exact ⟨rfl, forall_mem_cons.mpr ⟨Bool.eq_false_iff.mpr hip, hclean⟩⟩

theorem resolveAndValidate_eq_ok (h : resolveAndValidate host lookup = .ok ip) :
    lookup.Clean ∧ isBlockedIp ip = false := by
  cases lookup with
  | none => cases h
  | some infos =>
    obtain ⟨addresses, hcheck, h⟩ := Check.bind_eq_ok.mp h
    obtain ⟨rfl, hclean⟩ := checkAddresses_eq_ok hcheck
    refine ⟨hclean, ?_⟩
    split at h
    · cases h
    · rename_i first rest hlist
      obtain rfl := Except.ok.inj h
      exact hclean first (hlist ▸ mem_cons_self)

theorem safeRequest (hprod : env.isDev = false) (client : SafeClient) (host : Text) (validated connected : Lookup) :
    SafeRequest env client host validated connected := by
  cases hresolve : resolveAndValidate host validated with
  | error e =>
    refine ⟨fun dialled h => ?_, fun _ => ⟨e, hresolve⟩⟩
    simp [handleRequest, hprod, hresolve] at h
  | ok pinned =>
    obtain ⟨hclean, hpinned⟩ := resolveAndValidate_eq_ok hresolve
    refine ⟨fun dialled h => ?_, fun hunclean => absurd hclean hunclean⟩
    simp only [handleRequest, hprod, hresolve] at h
    obtain rfl := Except.ok.inj h
    exact fun ip hip => mem_singleton.mp hip ▸ hpinned

theorem safeFetch_of_stable (hprod : env.isDev = false) (h : ∀ hop ∈ first :: redirects, hop.Stable env) :
    SafeFetch env first redirects where
  dials := by
    intro dialled hfetch ip hip
    obtain ⟨⟨found, hok⟩, rfl⟩ := (fetchMetadataXml_eq_ok hprod).mp hfetch
    rcases mem_append.mp hip with hip | hip
    · exact ((h first mem_cons_self).clean hprod hok).2 ip hip
    · exact followRedirects_clean hprod [] (fun hop hhop => h hop (mem_cons_of_mem first hhop)) ip hip
  refuses := by
    intro hop hhop hunclean
    cases hok : validateMetadataUrl env hop.url hop.validated with
    | error e => exact ⟨e, rfl⟩
    | ok found => exact absurd ((h hop hhop).clean hprod hok).1 hunclean

theorem safeFetch_alone_iff (hprod : env.isDev = false) : SafeFetch env hop [] ↔ hop.Stable env := by
  refine ⟨fun h hurl ip hhead hip => ?_, fun h => safeFetch_of_stable hprod (by simpa using h)⟩
  have hok := (validateMetadataUrl_eq_ok_iff hprod).mpr ⟨hurl, hhead, hip⟩
  have hfetch : fetchMetadataXml env hop [] = .ok hop.connected.addresses :=
    (fetchMetadataXml_eq_ok hprod).mpr ⟨⟨ip, hok⟩, append_nil _⟩
  refine ⟨?_, h.dials _ hfetch⟩
  by_contra hunclean
  obtain ⟨e, herror⟩ := h.refuses hop mem_cons_self hunclean
  cases herror.symm.trans hok

/-- In production no request of the safe client dials a blocked address, and a fetch of metadata dials none when
the resolver is stable at every hop; without a redirect, only then. -/
theorem blocked_addresses_not_dialled (env : FetchEnv) (hprod : env.isDev = false) :
    (∀ client host validated connected, SafeRequest env client host validated connected) ∧
      (∀ first redirects, (∀ hop ∈ first :: redirects, hop.Stable env) → SafeFetch env first redirects) ∧
      ∀ hop, SafeFetch env hop [] ↔ hop.Stable env :=
  ⟨safeRequest hprod, fun _ _ => safeFetch_of_stable hprod, fun _ => safeFetch_alone_iff hprod⟩

def production : FetchEnv where
  isDev := false
  baseDomain := []
  acceptsNetloc _ := true
  lower := id

def resolvesTo (a b c d : Nat) : Lookup := some [some (.v4 (ofBytes a b c d))]

/-- The second lookup may name the metadata service of the cloud, and only the first address of the first is checked. -/
theorem blocked_addresses_dialled : production.isDev = false ∧ isBlockedIp (.v4 (ofBytes 169 254 169 254)) = true ∧
    fetchMetadataXml production ⟨"https://idp.test/m", resolvesTo 93 184 216 34, resolvesTo 169 254 169 254⟩ [] =
      .ok [.v4 (ofBytes 169 254 169 254)] ∧ validateMetadataUrl production "https://idp.test/m"
        (some [some (.v4 (ofBytes 93 184 216 34)), some (.v4 (ofBytes 10 0 0 1))]) =
      .ok (.v4 (ofBytes 93 184 216 34)) ∧ isBlockedIp (.v4 (ofBytes 10 0 0 1)) = true := by
  decide +kernel

theorem stable_fetch_avoids_blocked : production.isDev = false ∧ SafeFetch production
    ⟨"https://idp.test/m", resolvesTo 93 184 216 34, resolvesTo 93 184 216 34⟩
    [⟨"https://cdn.idp.test/m", resolvesTo 93 184 216 35, resolvesTo 93 184 216 35⟩] := by
  refine ⟨rfl, (blocked_addresses_not_dialled production rfl).2.1 _ _ fun hop hhop _ _ _ _ => ?_⟩
  rcases mem_cons.mp hhop with rfl | hhop
  · decide +kernel
  · rw [mem_singleton.mp hhop]
    decide +kernel

end Safety

end WeftId
