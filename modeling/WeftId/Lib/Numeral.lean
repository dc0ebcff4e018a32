import Mathlib.Data.Nat.Digits.Lemmas
import WeftId.Lib.Text

/-!
Numbers as text: decimal numerals with the grammar that Python's `int` reads, and the canonical
spelling of a UUID.
-/

namespace Numeral

open List

def digitChar (d : Nat) : Char := if d < 10 then Char.ofNat (48 + d) else Char.ofNat (87 + d)

def decimal (n : Nat) : Text := if n = 0 then ['0'] else ((Nat.digits 10 n).map digitChar).reverse

/-- The digits of a numeral, most significant first; single underscores may separate digits. -/
def parseDigits (digitValue : Char → Option Nat) (s : Text) : Option Nat :=
  let parts := Text.split '_' s
  if parts.all (· ≠ []) then
    (parts.flatten.mapM digitValue).map fun ds => Nat.ofDigits 10 ds.reverse
  else none

/-- Python's `int` on a text: surrounding white space and a sign are allowed. -/
def parseInt (digitValue : Char → Option Nat) (s : Text) : Option Int :=
  match s.strip with
  | '-' :: rest => (parseDigits digitValue rest).map fun n => -(n : Int)
  | '+' :: rest => (parseDigits digitValue rest).map fun n => (n : Int)
  | rest => (parseDigits digitValue rest).map fun n => (n : Int)

/-- The most digits that `int` reads and `str` writes. -/
def maxDigits : Nat := 4300

def readInt (digitValue : Char → Option Nat) (s : Text) : Option Int :=
  if s.countP (fun c => (digitValue c).isSome) ≤ maxDigits then parseInt digitValue s else none

def hexDigits (n : Nat) : Text :=
  let ds := ((Nat.digits 16 n).map digitChar).reverse
  List.replicate (32 - ds.length) '0' ++ ds

def uuid (n : Nat) : Text :=
  let ds := hexDigits n
  ds.take 8 ++ '-' :: (ds.drop 8).take 4 ++ '-' :: (ds.drop 12).take 4 ++ '-' :: (ds.drop 16).take 4 ++
    '-' :: ds.drop 20

def hexDigitValue (c : Char) : Option Nat :=
  if '0' ≤ c ∧ c ≤ '9' then some (c.toNat - 48)
  else if 'a' ≤ c ∧ c ≤ 'f' then some (c.toNat - 87)
  else if 'A' ≤ c ∧ c ≤ 'F' then some (c.toNat - 55)
  else none

/-- The bytes of a UUID that are still to be read; a hyphen may follow every second byte but the last. -/
def uuidBytes : Nat → Nat → Text → Option (Nat × Text)
  | 0, value, rest => some (value, rest)
  | n + 1, value, high :: low :: rest => do
    let h ← hexDigitValue high
    let l ← hexDigitValue low
    let rest := if n % 2 = 0 ∧ n ≠ 0 ∧ rest.head? = some '-' then rest.drop 1 else rest
    uuidBytes n (value * 256 + h * 16 + l) rest
  | _ + 1, _, _ => none

/-- The `uuid` input of the database: either case, optional braces and optional hyphens. -/
def readUuid (s : Text) : Option Nat :=
  match s with
  | '{' :: rest =>
    match uuidBytes 16 0 rest with
    | some (value, ['}']) => some value
    | _ => none
  | _ =>
    match uuidBytes 16 0 s with
    | some (value, []) => some value
    | _ => none

/-- Whether Python's `int` reads a text in base 16; a prefix and single underscores are allowed. -/
def isHexInt (digitValue : Char → Option Nat) (s : Text) : Bool :=
  let unsigned := match s.strip with
    | '+' :: rest => rest
    | rest => rest
  let digits := match unsigned with
    | '0' :: 'x' :: '_' :: rest | '0' :: 'X' :: '_' :: rest => rest
    | '0' :: 'x' :: rest | '0' :: 'X' :: rest => rest
    | rest => rest
  let parts := Text.split '_' digits
  parts.all fun part => part ≠ [] ∧ part.all fun c => (digitValue c).isSome || (hexDigitValue c).isSome

/-- Whether `uuid.UUID` accepts a text. -/
def looksLikeUuid (digitValue : Char → Option Nat) (value : Text) : Bool :=
  let hex := Text.remove "-" (Text.stripChars ['{', '}']
    (Text.remove "uuid:" (Text.remove "urn:" value)))
  hex.length = 32 ∧ isHexInt digitValue hex

theorem digitChar_mem : ∀ {d : Nat}, d < 16 → digitChar d ∈ "0123456789abcdef".toList := by decide

variable {n : Nat} {c : Char} {s : Text}

theorem mem_hexDigits (h : c ∈ hexDigits n) : c ∈ "0123456789abcdef".toList := by
  rcases mem_append.mp h with h | h
  · rw [eq_of_mem_replicate h]
    decide
  · obtain ⟨d, hd, rfl⟩ := mem_map.mp (mem_reverse.mp h)
    exact digitChar_mem (Nat.digits_lt_base (by omega) hd)

theorem mem_uuid (h : c ∈ uuid n) : c ∈ "0123456789abcdef-".toList := by
  have hhex : ∀ {c}, c ∈ hexDigits n → c ∈ "0123456789abcdef-".toList := fun hc =>
    mem_append_left ['-'] (mem_hexDigits hc)
  have hdash : '-' ∈ "0123456789abcdef-".toList := by decide
  simp only [uuid, append_assoc, cons_append, mem_append, mem_cons] at h
  rcases h with h | rfl | h | rfl | h | rfl | h | rfl | h
  · exact hhex (mem_of_mem_take h)
  · exact hdash
  · exact hhex (mem_of_mem_drop (mem_of_mem_take h))
  · exact hdash
  · exact hhex (mem_of_mem_drop (mem_of_mem_take h))
  · exact hdash
  · exact hhex (mem_of_mem_drop (mem_of_mem_take h))
  · exact hdash
  · exact hhex (mem_of_mem_drop h)

def hexValue (c : Char) : Nat := if c.toNat < 58 then c.toNat - 48 else c.toNat - 87

theorem hexValue_digitChar : ∀ {d : Nat}, d < 16 → hexValue (digitChar d) = d := by decide

theorem map_digitChar {f : Char → Nat} {base : Nat} (hbase : 1 < base) (hf : ∀ d < base, f (digitChar d) = d) :
    ((Nat.digits base n).map digitChar).map f = Nat.digits base n := by
  rw [map_map]
  refine (map_congr_left fun d hd => ?_).trans (map_id _)
  exact hf d (Nat.digits_lt_base hbase hd)

def hexNumber (s : Text) : Nat := Nat.ofDigits 16 (s.map hexValue).reverse

theorem hexNumber_hexDigits (n : Nat) : hexNumber (hexDigits n) = n := by
  rw [hexNumber, hexDigits, map_append, reverse_append, map_reverse, reverse_reverse,
    map_digitChar (by omega) fun d => hexValue_digitChar, map_replicate, reverse_replicate]
  have hzero : hexValue '0' = 0 := by decide
  rw [hzero, Nat.ofDigits_append_replicate_zero, Nat.ofDigits_digits]

theorem hexDigits_injective : Function.Injective hexDigits :=
  Function.LeftInverse.injective hexNumber_hexDigits

theorem length_hexDigits (h : n < 16 ^ 32) : (hexDigits n).length = 32 := by
  have hle := (Nat.digits_length_le_iff (by omega) n).mpr h
  simp only [hexDigits, length_append, length_replicate, length_reverse, length_map]
  omega

theorem take_drop_uuid {ds : Text} :
    ds.take 8 ++ ((ds.drop 8).take 4 ++ ((ds.drop 12).take 4 ++ ((ds.drop 16).take 4 ++ ds.drop 20))) = ds := by
  have hstep : ∀ k, (ds.drop k).take 4 ++ ds.drop (k + 4) = ds.drop k := by
    intro k
    rw [← drop_drop]
    exact take_append_drop 4 _
  rw [hstep 16, hstep 12, hstep 8, take_append_drop]

theorem filter_uuid (n : Nat) : (uuid n).filter (· ≠ '-') = hexDigits n := by
  have hkeep : ∀ s : Text, (∀ c ∈ s, c ∈ hexDigits n) → s.filter (· ≠ '-') = s := by
    intro s hs
    refine filter_eq_self.mpr fun c hc => ?_
    have hmem := mem_hexDigits (hs c hc)
    simp only [decide_eq_true_eq]
    rintro rfl
    revert hmem
    decide
  have htake : ∀ k, (((hexDigits n).drop k).take 4).filter (· ≠ '-') = ((hexDigits n).drop k).take 4 := fun k =>
    hkeep _ fun c hc => mem_of_mem_drop (mem_of_mem_take hc)
  have hfirst := hkeep ((hexDigits n).take 8) fun c hc => mem_of_mem_take hc
  have hlast := hkeep ((hexDigits n).drop 20) fun c hc => mem_of_mem_drop hc
  have hdash : ∀ s, ('-' :: s).filter (· ≠ '-') = s.filter (· ≠ '-') := fun s =>
    filter_cons_of_neg (by decide)
  simp only [uuid, append_assoc, filter_append, hdash, hfirst, htake, hlast]
  exact take_drop_uuid

theorem uuid_injective : Function.Injective uuid := fun a b hab => by
  have hfilter := congrArg (List.filter (· ≠ '-')) hab
  rw [filter_uuid, filter_uuid] at hfilter
  exact hexDigits_injective hfilter

theorem uuid_ne_nil : uuid n ≠ [] := by
  simp [uuid]

theorem decimal_ne_nil (n : Nat) : decimal n ≠ [] := by
  unfold decimal
  by_cases hn : n = 0
  · simp [hn]
  · simp [hn, Nat.digits_ne_nil_iff_ne_zero]

theorem mem_decimal (h : c ∈ decimal n) : ∃ d < 10, c = digitChar d := by
  unfold decimal at h
  by_cases hn : n = 0
  · rw [if_pos hn, mem_singleton] at h
    exact ⟨0, by omega, h⟩
  · rw [if_neg hn] at h
    obtain ⟨d, hd, rfl⟩ := mem_map.mp (mem_reverse.mp h)
    exact ⟨d, Nat.digits_lt_base (by omega) hd, rfl⟩

theorem notMem_decimal (hc : ∀ d < 10, c ≠ digitChar d) : c ∉ decimal n := by
  intro hmem
  obtain ⟨d, hd, rfl⟩ := mem_decimal hmem
  exact hc d hd rfl

section RoundTrip

variable {digitValue : Char → Option Nat} (hdigit : ∀ d < 10, digitValue (digitChar d) = some d)

include hdigit

theorem mapM_digitChar (ds : List Nat) (hds : ∀ d ∈ ds, d < 10) : (ds.map digitChar).mapM digitValue = some ds := by
  induction ds with
  | nil => rfl
  | cons d ds ih =>
    rw [forall_mem_cons] at hds
    rw [map_cons, mapM_cons, hdigit d hds.1, ih hds.2]
    rfl

theorem parseDigits_decimal (n : Nat) : parseDigits digitValue (decimal n) = some n := by
  have hsplit : Text.split '_' (decimal n) = [decimal n] :=
    Text.split_of_notMem (notMem_decimal (by decide))
  have hdigits : (decimal n).mapM digitValue = some (if n = 0 then [0] else (Nat.digits 10 n).reverse) := by
    unfold decimal
    by_cases hn : n = 0
    · rw [if_pos hn, if_pos hn]
      exact mapM_digitChar hdigit [0] (by simp)
    · rw [if_neg hn, if_neg hn, ← map_reverse]
      exact mapM_digitChar hdigit _ fun d hd => Nat.digits_lt_base (by omega) (mem_reverse.mp hd)
  rw [parseDigits, hsplit]
  simp only [flatten_singleton, hdigits]
  by_cases hn : n = 0 <;> simp [hn, decimal_ne_nil, Nat.ofDigits_digits]

theorem parseInt_decimal (n : Nat) : parseInt digitValue (decimal n) = some (n : Int) := by
  have hstrip : Text.strip (decimal n) = decimal n := by
    refine Text.strip_eq_self fun c hc => ?_
    obtain ⟨d, hd, rfl⟩ := mem_decimal hc
    have hall : ∀ d < 10, Text.isSpace (digitChar d) = false := by decide
    exact hall d hd
  have hminus : '-' ∉ decimal n := notMem_decimal (by decide)
  have hplus : '+' ∉ decimal n := notMem_decimal (by decide)
  have hparse := parseDigits_decimal hdigit n
  rw [parseInt, hstrip]
  split
  · next rest heq => exact absurd (heq ▸ mem_cons_self) hminus
  · next rest heq => exact absurd (heq ▸ mem_cons_self) hplus
  · rw [hparse]
    rfl

theorem readInt_decimal (n : Nat) (hn : (decimal n).length ≤ maxDigits) :
    readInt digitValue (decimal n) = some (n : Int) := by
  rw [readInt, if_pos (countP_le_length.trans hn), parseInt_decimal hdigit]

end RoundTrip

section Uuid

theorem uuidBytes_eq_some {value : Nat} {result : Nat × Text} (h : uuidBytes n value s = some result) :
    ∃ front, s = front ++ result.2 ∧ (front.filter (· ≠ '-')).length = 2 * n ∧
      ∀ c ∈ front, c = '-' ∨ (hexDigitValue c).isSome := by
  induction n generalizing value s with
  | zero =>
    obtain rfl := Option.some.inj h
    exact ⟨[], rfl, rfl, by simp⟩
  | succ n ih =>
    have hdigit : ∀ {c v}, hexDigitValue c = some v → c ≠ '-' := by
      rintro c v hc rfl
      cases hc
    match s with
    | [] | [_] => cases h
    | high :: low :: rest =>
      obtain ⟨hv, hhigh, h⟩ := Option.bind_eq_some_iff.mp h
      obtain ⟨lv, hlow, h⟩ := Option.bind_eq_some_iff.mp h
      obtain ⟨front, hrest, hlength, hchars⟩ := ih h
      have hfilter : ∀ t, ((high :: low :: t).filter (· ≠ '-')).length = 2 + (t.filter (· ≠ '-')).length := by
        intro t
        rw [filter_cons_of_pos (by simpa using hdigit hhigh), filter_cons_of_pos (by simpa using hdigit hlow)]
        simp only [length_cons]
        omega
      split_ifs at hrest with hhyphen
      · obtain ⟨t, rfl⟩ : ∃ t, rest = '-' :: t := by
          cases rest with
          | nil => cases hhyphen.2.2
          | cons c t => exact ⟨t, by rw [Option.some.inj hhyphen.2.2]⟩
        refine ⟨high :: low :: '-' :: front, by simpa using hrest, ?_, by simpa [hhigh, hlow] using hchars⟩
        rw [hfilter, filter_cons_of_neg (by simp)]
        omega
      · refine ⟨high :: low :: front, by simpa using hrest, ?_, by simpa [hhigh, hlow] using hchars⟩
        rw [hfilter]
        omega

theorem toNat_of_hexDigit (h : (hexDigitValue c).isSome) : 48 ≤ c.toNat ∧ c.toNat ≤ 102 := by
  have hbetween : ∀ {a b : Char}, 48 ≤ a.toNat → b.toNat ≤ 102 → a ≤ c ∧ c ≤ b → 48 ≤ c.toNat ∧ c.toNat ≤ 102 :=
    fun ha hb hc => ⟨ha.trans hc.1, le_trans hc.2 hb⟩
  unfold hexDigitValue at h
  split_ifs at h with hdigit hlower hupper
  · exact hbetween (by decide) (by decide) hdigit
  · exact hbetween (by decide) (by decide) hlower
  · exact hbetween (by decide) (by decide) hupper
  · cases h

theorem ne_of_hexDigit {d : Char} (h : (hexDigitValue c).isSome) (hd : hexDigitValue d = none) : c ≠ d := by
  rintro rfl
  rw [hd] at h
  cases h

theorem isHexInt_of_hexDigits {digitValue : Char → Option Nat} (hne : s ≠ [])
    (h : ∀ c ∈ s, (hexDigitValue c).isSome) : isHexInt digitValue s = true := by
  have hunsigned : ∀ t : Text, '+' ∉ t → (match t with
      | '+' :: rest => rest
      | rest => rest) = t := by
    intro t ht
    split
    · exact absurd mem_cons_self ht
    · rfl
  have hstrip : s.strip = s := by
    refine Text.strip_eq_self fun c hc => ?_
    have hrange := toNat_of_hexDigit (h c hc)
    simp only [Text.isSpace, Bool.or_eq_false_iff, Bool.and_eq_false_iff, decide_eq_false_iff_not, beq_eq_false_iff_ne]
    omega
  have hnot : ∀ {d}, hexDigitValue d = none → d ∉ s := fun hd hmem => ne_of_hexDigit (h _ hmem) hd rfl
  have hplus : '+' ∉ s := hnot (by decide)
  have hx : 'x' ∉ s := hnot (by decide)
  have hX : 'X' ∉ s := hnot (by decide)
  have hunderscore : '_' ∉ s := hnot (by decide)
  have hparts : (Text.split '_' s).all fun part =>
      decide (part ≠ [] ∧ part.all fun c => (digitValue c).isSome || (hexDigitValue c).isSome) := by
    rw [Text.split_of_notMem hunderscore, all_cons, all_nil, Bool.and_true, decide_eq_true_eq]
    refine ⟨hne, all_eq_true.mpr fun c hc => ?_⟩
    rw [h c hc, Bool.or_true]
  unfold isHexInt
  rw [hstrip]
  dsimp only
  rw [hunsigned s hplus]
  split
  · exact absurd (by simp) hx
  · exact absurd (by simp) hX
  · exact absurd (by simp) hx
  · exact absurd (by simp) hX
  · exact hparts

theorem looksLikeUuid_of_readUuid (digitValue : Char → Option Nat) (h : readUuid s = some n) :
    looksLikeUuid digitValue s = true := by
  have hbody : ∃ body, (s = body ∨ s = '\x7b' :: (body ++ ['\x7d'])) ∧ (body.filter (· ≠ '-')).length = 32 ∧
      ∀ c ∈ body, c = '-' ∨ (hexDigitValue c).isSome := by
    unfold readUuid at h
    split at h
    · split at h
      · rename_i hbytes
        obtain ⟨front, hs, hlength, hchars⟩ := uuidBytes_eq_some hbytes
        exact ⟨front, .inr (by rw [hs]), hlength, hchars⟩
      · cases h
    · split at h
      · rename_i hbytes
        obtain ⟨front, hs, hlength, hchars⟩ := uuidBytes_eq_some hbytes
        exact ⟨front, .inl (by rw [hs, append_nil]), hlength, hchars⟩
      · cases h
  obtain ⟨body, hs, hlength, hchars⟩ := hbody
  have hnot : ∀ {d}, d ≠ '-' → hexDigitValue d = none → d ∉ body := by
    intro d hne hd hmem
    rcases hchars d hmem with rfl | hhex
    · exact hne rfl
    · exact ne_of_hexDigit hhex hd rfl
  have hbraces : ∀ c ∈ body, c ∉ ['\x7b', '\x7d'] := by
    intro c hc hmem
    simp only [mem_cons, not_mem_nil, or_false] at hmem
    rcases hmem with rfl | rfl
    · exact hnot (by decide) (by decide) hc
    · exact hnot (by decide) (by decide) hc
  have hu : 'u' ∉ s := by
    have hu : 'u' ∉ body := hnot (by decide) (by decide)
    rcases hs with rfl | rfl
    · exact hu
    · simpa using hu
  have hstripped : Text.stripChars ['\x7b', '\x7d'] s = body := by
    rcases hs with rfl | rfl
    · exact Text.stripChars_eq_self hbraces
    · rw [Text.stripChars_enclosed (by decide) (by decide) hbraces, Text.stripChars_eq_self hbraces]
  have hhex : Text.remove "-" (Text.stripChars ['\x7b', '\x7d']
      (Text.remove "uuid:" (Text.remove "urn:" s))) = body.filter (· ≠ '-') := by
    have hurn : Text.remove "urn:" s = s := Text.remove_of_notMem hu
    have huuid : Text.remove "uuid:" s = s := Text.remove_of_notMem hu
    rw [hurn, huuid, hstripped]
    exact Text.remove_singleton '-' body
  unfold looksLikeUuid
  simp only [hhex, hlength, true_and, decide_eq_true_eq]
  refine isHexInt_of_hexDigits (fun hnil => ?_) fun c hc => ?_
  · rw [hnil] at hlength
    cases hlength
  · obtain ⟨hmem, hne⟩ := mem_filter.mp hc
    exact (hchars c hmem).resolve_left (of_decide_eq_true hne)

end Uuid

def showInt (n : Int) : Text := if n < 0 then '-' :: decimal n.natAbs else decimal n.natAbs

theorem showInt_ofNat (n : Nat) : showInt (n : Int) = decimal n := by
  rw [showInt, if_neg (by omega), Int.natAbs_natCast]

def padded (width n : Nat) : Text := List.replicate (width - (decimal n).length) '0' ++ decimal n

def civil (days : Nat) : Nat × Nat × Nat :=
  let z := days + 719468
  let era := z / 146097
  let doe := z % 146097
  let yoe := (doe - doe / 1460 + doe / 36524 - doe / 146096) / 365
  let doy := doe - (365 * yoe + yoe / 4 - yoe / 100)
  let mp := (5 * doy + 2) / 153
  let month := if mp < 10 then mp + 3 else mp - 9
  (yoe + era * 400 + (if month ≤ 2 then 1 else 0), month, doy - (153 * mp + 2) / 5 + 1)

def showDate (days : Nat) : Text :=
  padded 4 (civil days).1 ++ '-' :: padded 2 (civil days).2.1 ++ '-' :: padded 2 (civil days).2.2

def showTime (micros : Nat) : Text :=
  let seconds := micros / 1000000
  let fraction := micros % 1000000
  padded 2 (seconds / 3600 % 24) ++ ':' :: padded 2 (seconds / 60 % 60) ++ ':' :: padded 2 (seconds % 60) ++
    if fraction = 0 then [] else '.' :: padded 6 fraction

/-- `str` of an aware `datetime` in UTC, for a count of microseconds from 1970-01-01. -/
def showTimestamp (micros : Nat) : Text :=
  showDate (micros / 1000000 / 86400) ++ ' ' :: showTime micros ++ "+00:00"

def StartsWithDigit (s : Text) : Prop := ∃ d < 10, ∃ rest, s = digitChar d :: rest

theorem StartsWithDigit.append (h : StartsWithDigit s) (t : Text) : StartsWithDigit (s ++ t) := by
  obtain ⟨d, hd, rest, hs⟩ := h
  exact ⟨d, hd, rest ++ t, by rw [hs, cons_append]⟩

theorem startsWithDigit_decimal : StartsWithDigit (decimal n) := by
  cases hdec : decimal n with
  | nil => exact absurd hdec (decimal_ne_nil n)
  | cons c rest =>
    obtain ⟨d, hd, rfl⟩ := mem_decimal (hdec ▸ mem_cons_self)
    exact ⟨d, hd, rest, rfl⟩

theorem showInt_head {n : Int} : ∃ c ∈ "-0123456789".toList, ∃ t, showInt n = c :: t := by
  obtain ⟨d, hd, tail, hdec⟩ := startsWithDigit_decimal
  have hdigit : ∀ d < 10, digitChar d ∈ "-0123456789".toList := by decide
  unfold showInt
  split_ifs
  · exact ⟨'-', by decide, _, rfl⟩
  · exact ⟨_, hdigit d hd, tail, hdec⟩

theorem startsWithDigit_padded {width : Nat} : StartsWithDigit (padded width n) := by
  unfold padded
  cases width - (decimal n).length with
  | zero => exact startsWithDigit_decimal
  | succ k => exact ⟨0, by omega, List.replicate k '0' ++ decimal n, rfl⟩

theorem startsWithDigit_showDate {days : Nat} : StartsWithDigit (showDate days) :=
  (startsWithDigit_padded.append _).append _

theorem startsWithDigit_showTimestamp (micros : Nat) : StartsWithDigit (showTimestamp micros) :=
  (startsWithDigit_showDate.append _).append _

end Numeral
