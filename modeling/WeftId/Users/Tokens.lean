import WeftId.Env
import WeftId.Lib.Base64

/-!
Tokens embedded in links sent by email, and the codes of the second factor.  A token carries the user id,
the time it was made and a keyed hash of both, of its purpose and of a state text, so nothing about it is
stored; a code is six digits of such a hash for a step of time.
-/

namespace WeftId

open List Proc

abbrev Purpose := Text

def Purpose.accountRecovery : Purpose := "account_recovery"

def Purpose.mfaEmail : Purpose := "mfa_email"

/-- `int(time.time())`. -/
def Db.time (db : Db) : Nat := db.now / 1000000

variable (env : Env)

def computeUrlHmac (userId : Text) (purpose : Purpose) (timestamp : Int) (state : Option Text) : Text :=
  let message := userId ++ ':' :: purpose ++ ':' :: Numeral.showInt timestamp
  match state with
  | some state => env.hmac (message ++ ':' :: state)
  | none => env.hmac message

def utf8Encode (s : Text) : List UInt8 := s.flatMap String.utf8EncodeChar

def utf8Decode (bytes : List UInt8) : Option Text := bytes.toByteArray.utf8Decode?.map (·.toList)

def generateUrlToken (now : Nat) (userId : Text) (purpose : Purpose) (state : Option Text) : Text :=
  let mac := computeUrlHmac env userId purpose now state
  Base64.encode (utf8Encode (userId ++ '.' :: (Numeral.showInt now ++ '.' :: mac)))

structure UrlTokenParts where
  userId : Text
  timestamp : Int
  mac : Text

def decodeUrlToken (token : Text) : Option UrlTokenParts := do
  let padded := token ++ List.replicate ((4 - token.length % 4) % 4) '='
  let payload ← utf8Decode (← Base64.decode padded)
  match Text.split '.' payload with
  | [userId, ts, mac] => (Numeral.readInt env.digitValue ts).map fun timestamp => { userId, timestamp, mac }
  | _ => none

def extractUserIdFromUrlToken (token : Text) : Option Text := (decodeUrlToken env token).map (·.userId)

/-- `hmac.compare_digest` on two texts, which must be ASCII. -/
def compareDigest (a b : Text) : Service Bool := do
  require (a.all (·.toNat < 128) ∧ b.all (·.toNat < 128)) (.exception "TypeError")
  pure (a = b)

def verifyUrlToken (token : Text) (purpose : Purpose) (ttlSeconds : Nat) (state : Option Text) :
    Service (Option Text) := do
  match decodeUrlToken env token with
  | none => pure none
  | some parts => do
    let time ← read (·.time)
    if (time : Int) - parts.timestamp > ttlSeconds then pure none
    else do
      let same ← compareDigest parts.mac (computeUrlHmac env parts.userId purpose parts.timestamp state)
      pure (if same then some parts.userId else none)

/-- The six digits for one time step: four bytes of the digest, from an offset the digest itself names. -/
def computeCode (userId : Text) (purpose : Purpose) (timeStep : Int) (state : Option Text) : Text :=
  let message := userId ++ ':' :: purpose ++ ':' :: Numeral.showInt timeStep
  let digest := env.hmacDigest (message ++ (state.map (':' :: ·)).getD [])
  let offset := digest % 16
  let truncated := digest / 256 ^ (28 - offset) % 2 ^ 31
  Numeral.padded 6 (truncated % 1000000)

def generateCode (now : Nat) (userId : Text) (purpose : Purpose) (stepSeconds : Nat) (state : Option Text) : Text :=
  computeCode env userId purpose ((now / stepSeconds : Nat) : Int) state

def matchesAny (code : Text) : List Text → Service Bool
  | [] => pure false
  | expected :: rest => do
    let same ← compareDigest code expected
    if same then pure true else matchesAny code rest

/-- Whether a code is the one of the current time step or of one at most `window` steps away. -/
def verifyCode (code userId : Text) (purpose : Purpose) (stepSeconds window : Nat) (state : Option Text) :
    Service Bool :=
  if env.bypassOtp ∧ code.length = 6 ∧ code.all env.isDigit then pure true
  else do
    let time ← read (·.time)
    let steps := (List.range (2 * window + 1)).map fun (i : Nat) => ((time / stepSeconds : Nat) : Int) - window + i
    matchesAny code (steps.map fun timeStep => computeCode env userId purpose timeStep state)

theorem utf8Decode_utf8Encode (s : Text) : utf8Decode (utf8Encode s) = some s := by
  have hdecode := utf8Decode?_utf8Encode (l := s)
  rw [List.utf8Encode] at hdecode
  rw [utf8Decode, utf8Encode, hdecode]
  rfl

def HexDigest (env : Env) : Prop := ∀ message, ∀ c ∈ env.hmac message, c ∈ "0123456789abcdef".toList

variable {env} {userId : Text} {purpose purpose' : Purpose} {state : Option Text}

theorem HexDigest.notMem_dot (h : HexDigest env) {message : Text} : '.' ∉ env.hmac message := by
  intro hmem
  have hhex := h message '.' hmem
  revert hhex
  decide

theorem HexDigest.ascii (h : HexDigest env) (message : Text) : (env.hmac message).all (·.toNat < 128) := by
  have hhex : "0123456789abcdef".toList.all (·.toNat < 128) = true := by decide
  rw [all_eq_true] at hhex ⊢
  exact fun c hc => hhex c (h message c hc)

theorem decodeUrlToken_generateUrlToken (h : HexDigest env) {now : Nat}
    (hnow : (Numeral.decimal now).length ≤ Numeral.maxDigits) (hid : '.' ∉ userId) (purpose : Purpose)
    (state : Option Text) : decodeUrlToken env (generateUrlToken env now userId purpose state) =
      some { userId, timestamp := now, mac := computeUrlHmac env userId purpose now state } := by
  have htime : '.' ∉ Numeral.decimal now := Numeral.notMem_decimal (by decide)
  have hmac : '.' ∉ computeUrlHmac env userId purpose now state := by
    cases state <;> exact h.notMem_dot
  have hparse := Numeral.readInt_decimal (fun d hd => env.digitValue_digitChar hd) now hnow
  simp only [decodeUrlToken, generateUrlToken, Base64.length_encode_mod, Numeral.showInt_ofNat]
  simp [Base64.decode_encode, utf8Decode_utf8Encode, Text.split_append _ hid, Text.split_append _ htime,
    Text.split_of_notMem hmac, hparse]

theorem computeUrlHmac_eq_iff (hinj : Function.Injective env.hmac)
    (hpurpose : ':' ∉ purpose) (hpurpose' : ':' ∉ purpose') {timestamp : Int} {state' : Option Text} :
    computeUrlHmac env userId purpose timestamp state = computeUrlHmac env userId purpose' timestamp state' ↔
      purpose = purpose' ∧ state = state' := by
  have hmessage : ∀ purpose state, computeUrlHmac env userId purpose timestamp state = env.hmac (userId ++ ':' ::
      (purpose ++ ':' :: (Numeral.showInt timestamp ++ (state.map (':' :: ·)).getD []))) := by
    rintro purpose (_ | state) <;> simp [computeUrlHmac]
  refine ⟨fun h => ?_, by rintro ⟨rfl, rfl⟩; rfl⟩
  rw [hmessage, hmessage] at h
  have hrest := (List.cons.inj (append_cancel_left (hinj h))).2
  -- the purpose is what stands before the next colon
  have hsplit := congrArg (Text.split ':') hrest
  rw [Text.split_append _ hpurpose, Text.split_append _ hpurpose'] at hsplit
  cases state <;> cases state' <;> simp_all

theorem compareDigest_apply (a : Text) {b : Text} (hb : b.all (·.toNat < 128)) (db : Db) : compareDigest a b db =
    (if a.all (·.toNat < 128) then .ok (decide (a = b)) else .error (.exception "TypeError"), db) := by
  unfold compareDigest require
  by_cases ha : a.all (·.toNat < 128)
  · rw [if_pos ⟨ha, hb⟩, if_pos ha]
    rfl
  · rw [if_neg fun h => ha h.1, if_neg ha]
    rfl

theorem verifyUrlToken_generateUrlToken (db : Db) (hhex : HexDigest env) (hinj : Function.Injective env.hmac)
    {time : Nat} (htime : (Numeral.decimal time).length ≤ Numeral.maxDigits) (hid : '.' ∉ userId)
    (hpurpose : ':' ∉ purpose)
    (hpurpose' : ':' ∉ purpose') (ttl : Nat) (state state' : Option Text) :
    verifyUrlToken env (generateUrlToken env time userId purpose state) purpose' ttl state' db =
      (.ok (if db.time ≤ time + ttl ∧ purpose = purpose' ∧ state = state' then some userId else none), db) := by
  have hascii : ∀ purpose state, (computeUrlHmac env userId purpose time state).all (·.toNat < 128) := by
    rintro purpose (_ | state) <;> exact hhex.ascii _
  have hcompare := compareDigest_apply (computeUrlHmac env userId purpose time state) (hascii purpose' state') db
  rw [if_pos (hascii purpose state)] at hcompare
  simp only [verifyUrlToken, decodeUrlToken_generateUrlToken hhex htime hid purpose state, read_bind_apply]
  by_cases hage : db.time ≤ time + ttl
  · rw [if_neg (by omega), bind_apply_of_ok hcompare]
    simp only [computeUrlHmac_eq_iff hinj hpurpose hpurpose', decide_eq_true_eq, hage, true_and, pure_apply]
  · rw [if_pos (by omega)]
    simp [hage]

theorem hexDigest_ascii : HexDigest Env.ascii := by
  intro message c hc
  obtain ⟨d, -, hd⟩ := mem_flatMap.mp hc
  exact Numeral.mem_hexDigits hd

theorem hmac_injective_ascii : Function.Injective Env.ascii.hmac := by
  have hlt : ∀ c : Char, c.toNat < 16 ^ 32 := by
    intro c
    have hval := c.val.toNat_lt
    change c.val.toNat < 16 ^ 32
    omega
  refine Text.flatMap_injective (fun c => Numeral.length_hexDigits (hlt c)) fun c d hcd => ?_
  have hnat := Numeral.hexDigits_injective hcd
  rw [← Char.ofNat_toNat c, hnat, Char.ofNat_toNat]

theorem ascii_computeCode {timeStep : Int} : (computeCode env userId purpose timeStep state).all (·.toNat < 128) := by
  have hdigit : ∀ d < 10, decide ((Numeral.digitChar d).toNat < 128) := by decide
  rw [all_eq_true]
  intro c hc
  rcases mem_append.mp hc with hc | hc
  · rw [eq_of_mem_replicate hc]
    rfl
  · obtain ⟨d, hd, rfl⟩ := Numeral.mem_decimal hc
    exact hdigit d hd

theorem matchesAny_returns_iff {code : Text} {codes : List Text} (hne : codes ≠ [])
    (h : ∀ expected ∈ codes, expected.all (·.toNat < 128)) (db : Db) :
    (∃ found, (matchesAny code codes db).1 = .ok found) ↔ code.all (·.toNat < 128) := by
  by_cases hcode : code.all (·.toNat < 128)
  · refine iff_of_true ?_ hcode
    clear hne
    induction codes with
    | nil => exact ⟨false, rfl⟩
    | cons expected codes ih =>
      rw [forall_mem_cons] at h
      have hcompare := compareDigest_apply code h.1 db
      rw [if_pos hcode] at hcompare
      rw [matchesAny, bind_apply_of_ok hcompare]
      split
      · exact ⟨true, rfl⟩
      · exact ih h.2
  · obtain ⟨expected, codes, rfl⟩ := exists_cons_of_ne_nil hne
    have hcompare := compareDigest_apply code (h expected mem_cons_self) db
    rw [if_neg hcode] at hcompare
    rw [matchesAny, bind_apply_of_error hcompare]
    simp [hcode]

end WeftId
