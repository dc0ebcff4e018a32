import WeftId.Lib.JsonText
import WeftId.Scim.Path
import WeftId.Users.Tokens

/-!
The signed values of forward auth: the token that carries a sign-in from the tenant's host to a portal host,
and the cookie that the portal host sets.  Both are a JSON payload with a keyed hash of its encoded form.
The token is bound to a tenant and a domain, the cookie to a user only.
-/

namespace WeftId

open List

abbrev Digest := { bytes : List UInt8 // bytes.length = 32 }

structure ForwardAuthEnv extends Env where
  /-- The digest of a text under the key of the tokens. -/
  tokenKey : Text → Digest
  /-- The digest of a text under the key of the cookies. -/
  cookieKey : Text → Digest
  /-- What `float` makes of a numeral with a fraction or an exponent. -/
  readFloat : Text → Json
  /-- A float in microseconds, rounded down; none when it is not finite. -/
  floatMicros : Text → Option Int
  /-- The domain under which the tenants' own hosts lie. -/
  baseDomain : Option Text
  /-- The order in which the database lists names. -/
  collate : Text → Text → Bool
  /-- Whether a URL may have this authority: `urlsplit` refuses some by their brackets or their normal form. -/
  acceptsNetloc : Text → Bool

/-- A nonce of the forward-auth handshake, for whichever tenant; `id` numbers the draw. -/
structure ForwardAuthNonce where
  id : Id
  nonce : Text
  tenantId : Id
  domain : Text
  expiresAt : Nat
  deriving DecidableEq

def forwardAuthCookieTtl : Nat := 3600

def forwardAuthTokenTtl : Nat := 60

def sign (key : Text → Digest) (payload : Text) : Text := Base64.encodeUnpadded (key payload).1

def packedPayload (payload : Json.Dict) : Text :=
  Base64.encodeUnpadded (utf8Encode (Json.dumps (.obj (Json.sortKeys payload))))

def pack (key : Text → Digest) (payload : Json.Dict) : Text :=
  packedPayload payload ++ '.' :: sign key (packedPayload payload)

variable (env : ForwardAuthEnv)

def unpack (key : Text → Digest) (token : Text) : Option Json.Dict :=
  match Text.split '.' token with
  | [payload, mac] =>
    if payload = [] ∨ mac = [] then none
    -- a hash that is not ASCII cannot be compared, and is refused as well
    else if mac ≠ sign key payload then none
    else
      match ((Base64.decodeFrom {} (Base64.padded payload)).bind utf8Decode).bind (Json.loads env.readFloat) with
      | some (.obj fields) => some fields
      | _ => none
  | _ => none

/-- Python's `v == 1`. -/
def isVersionOne : Json → Bool
  | .int n => n = 1
  | .bool b => b
  | .float spelling _ => spelling = "1.0"
  | _ => false

def expiryMicros : Json → Option Int
  | .int n => some (n * 1000000)
  | .bool b => some (if b then 1000000 else 0)
  | .float spelling _ => env.floatMicros spelling
  | _ => none

def isCurrent (payload : Json.Dict) (now : Nat) : Bool :=
  isVersionOne (Json.field payload "v") ∧ (expiryMicros env (Json.field payload "exp")).any fun exp => (now : Int) ≤ exp

def tokenPayload (userId tenantId : Id) (domain : Text) (appId : Id) (rd nonce : Text) (ttlSeconds now : Nat) :
    Json.Dict :=
  [("v", .int 1), ("sub", .str (Numeral.uuid userId)), ("tid", .str (Numeral.uuid tenantId)),
    ("dom", .str domain), ("app", .str (Numeral.uuid appId)), ("rd", .str rd),
    ("nonce", .str nonce), ("exp", .int (now / 1000000 + ttlSeconds : Nat))]

def mintAuthorizationToken (userId tenantId : Id) (domain : Text) (appId : Id) (rd nonce : Text)
    (ttlSeconds now : Nat) : Text :=
  pack env.tokenKey (tokenPayload userId tenantId domain appId rd nonce ttlSeconds now)

def verifyAuthorizationToken (token expectedDomain : Text) (now : Nat) : Except Error (Option Json.Dict) :=
  match unpack env env.tokenKey token with
  | none => .ok none
  | some payload =>
    if ¬ ["sub", "tid", "dom", "app", "rd", "nonce", "exp"].all (Json.hasField payload) then .ok none
    else if ¬ isCurrent env payload now then .ok none
    else
      match Json.field payload "dom" with
      | .str bound =>
        -- `hmac.compare_digest` takes ASCII texts only
        if ¬ (bound.all (·.toNat < 128) ∧ expectedDomain.all (·.toNat < 128)) then .error (.exception "TypeError")
        else .ok (if bound = expectedDomain then some payload else none)
      | _ => .ok none

structure ForwardIdentity where
  userId : Text
  email : Text
  displayName : Text
  groups : List Text

def cookiePayload (identity : ForwardIdentity) (ttlSeconds now : Nat) : Json.Dict :=
  [("v", .int 1), ("sub", .str identity.userId), ("email", .str identity.email),
    ("name", .str identity.displayName), ("groups", .arr (identity.groups.map .str)),
    ("exp", .int (now / 1000000 + ttlSeconds : Nat))]

def buildForwardAuthCookieValue (identity : ForwardIdentity) (now : Nat) : Text :=
  pack env.cookieKey (cookiePayload identity forwardAuthCookieTtl now)

def readForwardAuthCookie (cookieValue : Option Text) (now : Nat) : Option Json.Dict := do
  let payload ← unpack env env.cookieKey (cookieValue.getD [])
  if ¬ isCurrent env payload now then none
  else if ¬ ["sub", "email", "name", "groups"].all (Json.hasField payload) then none
  else
    match Json.field payload "groups" with
    | .arr _ => some payload
    | _ => none

section RoundTrip

variable {env} {payload : Json.Dict} {identity : ForwardIdentity} {key : Text → Digest} {bytes : List UInt8}

theorem dot_notMem_encodeUnpadded : '.' ∉ Base64.encodeUnpadded bytes := by
  intro hmem
  have hencode : '.' ∈ Base64.encode bytes := by
    rw [← Base64.padded_encodeUnpadded]
    exact mem_append_left _ hmem
  have hdigit : ∀ n < 64, '.' ≠ Base64.digit n := by decide
  rcases Base64.mem_encode hencode with h | ⟨n, hn, h⟩
  · exact absurd h (by decide)
  · exact hdigit n hn h

theorem encodeUnpadded_ne_nil (h : bytes ≠ []) : Base64.encodeUnpadded bytes ≠ [] := by
  intro hnil
  have hencode := Base64.padded_encodeUnpadded bytes
  have hdecode := Base64.decodeFrom_encode bytes
  rw [← hencode, hnil] at hdecode
  exact h (Option.some.inj hdecode).symm

theorem utf8Encode_ne_nil {s : Text} (h : s ≠ []) : utf8Encode s ≠ [] := by
  intro hnil
  have hdecode := utf8Decode_utf8Encode s
  rw [hnil] at hdecode
  exact h (Option.some.inj hdecode).symm

theorem packedPayload_ne_nil : packedPayload payload ≠ [] := by
  refine encodeUnpadded_ne_nil (utf8Encode_ne_nil ?_)
  exact cons_ne_nil _ _

theorem sign_ne_nil {payload : Text} : sign key payload ≠ [] := by
  refine encodeUnpadded_ne_nil fun hnil => ?_
  have hlength := (key payload).2
  rw [hnil] at hlength
  cases hlength

theorem unpack_pack (h : Json.Plain (.obj payload)) :
    unpack env key (pack key payload) = some (Json.sortKeys payload) := by
  have hsplit : Text.split '.' (pack key payload) = [packedPayload payload, sign key (packedPayload payload)] := by
    have hpayload : '.' ∉ packedPayload payload := dot_notMem_encodeUnpadded
    have hmac : '.' ∉ sign key (packedPayload payload) := dot_notMem_encodeUnpadded
    rw [pack, Text.split_append _ hpayload, Text.split_of_notMem hmac]
  have hdecode : Base64.decodeFrom {} (Base64.padded (packedPayload payload)) =
      some (utf8Encode (Json.dumps (.obj (Json.sortKeys payload)))) := Base64.decodeFrom_padded
  have hnonempty : ¬ (packedPayload payload = [] ∨ sign key (packedPayload payload) = []) :=
    not_or.mpr ⟨packedPayload_ne_nil, sign_ne_nil⟩
  unfold unpack
  rw [hsplit]
  dsimp only
  rw [if_neg hnonempty, if_neg (not_not.mpr rfl), hdecode, Option.bind_some, utf8Decode_utf8Encode, Option.bind_some,
    Json.loads_dumps env.readFloat (Json.plain_sortKeys h)]

theorem cookiePayload_keys (identity : ForwardIdentity) (ttlSeconds now : Nat) :
    ((cookiePayload identity ttlSeconds now).map (·.1)).Nodup := by
  have hkeys : ["v".toList, "sub".toList, "email".toList, "name".toList, "groups".toList, "exp".toList].Nodup := by
    decide
  exact hkeys

theorem plain_cookiePayload {ttlSeconds now : Nat} : Json.Plain (.obj (cookiePayload identity ttlSeconds now)) := by
  have hgroups : ∀ v ∈ identity.groups.map Json.str, Json.Plain v := by
    intro v hv
    obtain ⟨name, -, rfl⟩ := mem_map.mp hv
    exact .str name
  refine .obj (cookiePayload_keys identity ttlSeconds now) fun kv hkv => ?_
  simp only [cookiePayload, mem_cons, not_mem_nil, or_false] at hkv
  rcases hkv with rfl | rfl | rfl | rfl | rfl | rfl
  · exact .int _
  · exact .str _
  · exact .str _
  · exact .str _
  · exact .arr hgroups
  · exact .int _

theorem isCurrent_sortKeys (hkeys : (payload.map (·.1)).Nodup) {exp now : Nat}
    (hversion : Json.field payload "v" = .int 1) (hexp : Json.field payload "exp" = .int exp)
    (h : now ≤ exp * 1000000) :
    isCurrent env (Json.sortKeys payload) now = true := by
  have hle : (now : Int) ≤ exp * 1000000 := by exact_mod_cast h
  unfold isCurrent
  rw [Json.field_sortKeys hkeys, Json.field_sortKeys hkeys, hversion, hexp]
  exact decide_eq_true ⟨rfl, decide_eq_true hle⟩

theorem readForwardAuthCookie_build {issued now : Nat} (h : now ≤ (issued / 1000000 + forwardAuthCookieTtl) * 1000000) :
    readForwardAuthCookie env (some (buildForwardAuthCookieValue env identity issued)) now =
      some (Json.sortKeys (cookiePayload identity forwardAuthCookieTtl issued)) := by
  let payload := cookiePayload identity forwardAuthCookieTtl issued
  have hkeys : (payload.map (·.1)).Nodup := cookiePayload_keys identity forwardAuthCookieTtl issued
  have hunpack : unpack env env.cookieKey (buildForwardAuthCookieValue env identity issued) =
      some (Json.sortKeys payload) := unpack_pack plain_cookiePayload
  have hfield := Json.field_sortKeys hkeys
  have hcurrent : isCurrent env (Json.sortKeys payload) now = true := isCurrent_sortKeys hkeys rfl rfl h
  have hshape : ["sub", "email", "name", "groups"].all (Json.hasField (Json.sortKeys payload)) = true := by
    simp only [all_cons, Json.hasField_sortKeys]
    rfl
  unfold readForwardAuthCookie
  rw [Option.getD_some, hunpack, Option.bind_eq_bind, Option.bind_some, if_neg (not_not.mpr hcurrent),
    if_neg (not_not.mpr hshape), hfield]
  rfl

section Token

variable (userId tenantId : Id) (domain : Text) (appId : Id) (rd nonce : Text) (ttlSeconds now : Nat)

theorem tokenPayload_keys : ((tokenPayload userId tenantId domain appId rd nonce ttlSeconds now).map (·.1)).Nodup := by
  have hkeys : ["v".toList, "sub".toList, "tid".toList, "dom".toList, "app".toList, "rd".toList, "nonce".toList,
    "exp".toList].Nodup := by decide
  exact hkeys

theorem plain_tokenPayload : Json.Plain (.obj (tokenPayload userId tenantId domain appId rd nonce ttlSeconds now)) := by
  refine .obj (tokenPayload_keys _ _ _ _ _ _ _ _) fun kv hkv => ?_
  simp only [tokenPayload, mem_cons, not_mem_nil, or_false] at hkv
  rcases hkv with rfl | rfl | rfl | rfl | rfl | rfl | rfl | rfl
  · exact .int _
  · exact .str _
  · exact .str _
  · exact .str _
  · exact .str _
  · exact .str _
  · exact .str _
  · exact .int _

theorem verifyAuthorizationToken_mint {time : Nat} (htime : time ≤ (now / 1000000 + ttlSeconds) * 1000000)
    (hascii : domain.all (·.toNat < 128) = true) :
    verifyAuthorizationToken env (mintAuthorizationToken env userId tenantId domain appId rd nonce ttlSeconds now)
      domain time = .ok (some (Json.sortKeys (tokenPayload userId tenantId domain appId rd nonce ttlSeconds now))) := by
  let payload := tokenPayload userId tenantId domain appId rd nonce ttlSeconds now
  have hkeys : (payload.map (·.1)).Nodup := tokenPayload_keys userId tenantId domain appId rd nonce ttlSeconds now
  have hunpack : unpack env env.tokenKey
      (mintAuthorizationToken env userId tenantId domain appId rd nonce ttlSeconds now) = _ :=
    unpack_pack (plain_tokenPayload _ _ _ _ _ _ _ _)
  have hcurrent : isCurrent env (Json.sortKeys payload) time = true := isCurrent_sortKeys hkeys rfl rfl htime
  have hshape : ["sub", "tid", "dom", "app", "rd", "nonce", "exp"].all
      (Json.hasField (Json.sortKeys payload)) = true := by
    simp only [all_cons, Json.hasField_sortKeys]
    rfl
  have hdomain : Json.field (Json.sortKeys payload) "dom" = .str domain := Json.field_sortKeys hkeys "dom"
  unfold verifyAuthorizationToken
  rw [hunpack]
  dsimp only
  rw [if_neg (not_not.mpr hshape), if_neg (not_not.mpr hcurrent), hdomain]
  dsimp only
  rw [if_neg (not_not.mpr ⟨hascii, hascii⟩), if_pos rfl]

end Token

end RoundTrip

end WeftId
