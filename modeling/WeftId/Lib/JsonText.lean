import WeftId.Lib.Json
import WeftId.Lib.Numeral

/-!
JSON as text, the way Python's `json` module writes and reads it.  The writer escapes everything outside
printable ASCII; the reader accepts any document, and the last of two equal keys wins.  A text is a list
of characters here, so a document that escapes half of a surrogate pair is refused.
-/

namespace Json

open List

def units (c : Char) : List Nat :=
  if c.toNat < 0x10000 then [c.toNat]
  else [0xd800 + (c.toNat - 0x10000) / 0x400, 0xdc00 + (c.toNat - 0x10000) % 0x400]

def hex4 (u : Nat) : Text :=
  [u / 4096 % 16, u / 256 % 16, u / 16 % 16, u % 16].map Numeral.digitChar

def escape (c : Char) : Text :=
  if c = '"' then ['\\', '"']
  else if c = '\\' then ['\\', '\\']
  else if c = '\n' then ['\\', 'n']
  else if c = '\r' then ['\\', 'r']
  else if c = '\t' then ['\\', 't']
  else if c = '\x0c' then ['\\', 'f']
  else if c = '\x08' then ['\\', 'b']
  else if ' ' ≤ c ∧ c ≤ '~' then [c]
  else (units c).flatMap fun u => '\\' :: 'u' :: hex4 u

def quoted (s : Text) : Text := '"' :: (s.flatMap escape ++ ['"'])

mutual

/-- `json.dumps` with the default separators; the keys keep their order. -/
def dumps : Json → Text
  | null => "null"
  | bool true => "true"
  | bool false => "false"
  | int n => Numeral.showInt n
  | float spelling _ => spelling
  | str s => quoted s
  | arr items => '[' :: (dumpsItems items ++ [']'])
  | obj fields => '\x7b' :: (dumpsFields fields ++ ['\x7d'])

def dumpsItems : List Json → Text
  | [] => []
  | [v] => dumps v
  | v :: w :: rest => dumps v ++ ',' :: ' ' :: dumpsItems (w :: rest)

def dumpsFields : List (Text × Json) → Text
  | [] => []
  | [(key, v)] => quoted key ++ ':' :: ' ' :: dumps v
  | (key, v) :: kv :: rest => quoted key ++ ':' :: ' ' :: (dumps v ++ ',' :: ' ' :: dumpsFields (kv :: rest))

end

/-- `sort_keys` for a dictionary whose values hold no dictionary. -/
def sortKeys (d : Dict) : Dict := d.mergeSort fun a b => a.1 ≤ b.1

def isBlank (c : Char) : Bool := c = ' ' || c = '\t' || c = '\n' || c = '\r'

def skipBlanks (s : Text) : Text := s.dropWhile isBlank

def combine : List Nat → Option Text
  | [] => some []
  | u :: rest =>
    if 0xd800 ≤ u ∧ u < 0xdc00 then
      match rest with
      | v :: rest' =>
        if 0xdc00 ≤ v ∧ v < 0xe000 then
          (combine rest').map (Char.ofNat (0x10000 + (u - 0xd800) * 0x400 + (v - 0xdc00)) :: ·)
        else none
      | [] => none
    else if 0xdc00 ≤ u ∧ u < 0xe000 then none
    else (combine rest).map (Char.ofNat u :: ·)

def readHex4 (a b c d : Char) : Option Nat := do
  let a ← Numeral.hexDigitValue a
  let b ← Numeral.hexDigitValue b
  let c ← Numeral.hexDigitValue c
  let d ← Numeral.hexDigitValue d
  pure (a * 4096 + b * 256 + c * 16 + d)

def simpleEscape (c : Char) : Option Char :=
  if c = '"' ∨ c = '\\' ∨ c = '/' then some c
  else if c = 'n' then some '\n'
  else if c = 'r' then some '\r'
  else if c = 't' then some '\t'
  else if c = 'f' then some '\x0c'
  else if c = 'b' then some '\x08'
  else none

/-- The code units of a string whose opening quote has been read, and what follows the closing one. -/
def readUnits : Text → Option (List Nat × Text)
  | [] => none
  | '"' :: rest => some ([], rest)
  | '\\' :: 'u' :: a :: b :: c :: d :: rest => do
    let u ← readHex4 a b c d
    let (us, rest) ← readUnits rest
    pure (u :: us, rest)
  | '\\' :: e :: rest => do
    let c ← simpleEscape e
    let (us, rest) ← readUnits rest
    pure (c.toNat :: us, rest)
  | c :: rest =>
    -- strict mode: no control character stands in a string as itself
    if c.toNat < 32 then none
    else do
      let (us, rest) ← readUnits rest
      pure (c.toNat :: us, rest)

def readString (s : Text) : Option (Text × Text) := do
  let (us, rest) ← readUnits s
  pure (← combine us, rest)

def digitsOf (s : Text) : Text := s.takeWhile Text.isAsciiDigit

def fractionOf : Text → Text
  | '.' :: rest => if digitsOf rest = [] then [] else '.' :: digitsOf rest
  | _ => []

def exponentOf : Text → Text
  | e :: rest =>
    if e = 'e' ∨ e = 'E' then
      let sign : Text := match rest with
        | '+' :: _ => ['+']
        | '-' :: _ => ['-']
        | _ => []
      let digits := digitsOf (rest.drop sign.length)
      if digits = [] then [] else e :: (sign ++ digits)
    else []
  | [] => []

def digitsValue (s : Text) : Nat := Nat.ofDigits 10 (s.map fun c => c.toNat - 48).reverse

def unsigned : Text → Text
  | '-' :: rest => rest
  | s => s

/-- A numeral; without fraction and exponent it is an integer, otherwise `readFloat` says what it is. -/
def readNumber (readFloat : Text → Json) (s : Text) : Option (Json × Text) :=
  let body := unsigned s
  -- a leading zero stands alone
  let whole := if body.head? = some '0' then ['0'] else digitsOf body
  if whole = [] then none
  else
    let rest := body.drop whole.length
    let fraction := fractionOf rest
    let exponent := exponentOf (rest.drop fraction.length)
    let rest := (rest.drop fraction.length).drop exponent.length
    if fraction = [] ∧ exponent = [] then
      some (.int (if body.length < s.length then -(digitsValue whole : Int) else digitsValue whole), rest)
    else some (readFloat (s.take (s.length - rest.length)), rest)

def readScalar (readFloat : Text → Json) (s : Text) : Option (Json × Text) :=
  if "null".toList.isPrefixOf s then some (.null, s.drop 4)
  else if "true".toList.isPrefixOf s then some (.bool true, s.drop 4)
  else if "false".toList.isPrefixOf s then some (.bool false, s.drop 5)
  else if "NaN".toList.isPrefixOf s then some (.float "nan" false, s.drop 3)
  else if "Infinity".toList.isPrefixOf s then some (.float "inf" false, s.drop 8)
  else if "-Infinity".toList.isPrefixOf s then some (.float "-inf" false, s.drop 9)
  else readNumber readFloat s

section Reader

variable (readFloat : Text → Json)

mutual

/-- The value at the head of a text; the first argument bounds the nesting and the lengths. -/
def readValue : Nat → Text → Option (Json × Text)
  | 0, _ => none
  | _ + 1, '"' :: rest => (readString rest).map fun (s, rest) => (.str s, rest)
  | n + 1, '[' :: rest =>
    match skipBlanks rest with
    | ']' :: rest => some (.arr [], rest)
    | rest => (readItems n rest).map fun (items, rest) => (.arr items, rest)
  | n + 1, '\x7b' :: rest =>
    match skipBlanks rest with
    | '\x7d' :: rest => some (.obj [], rest)
    | rest => (readFields n rest).map fun (fields, rest) =>
      (.obj (fields.foldl (fun d kv => setKey d kv.1 kv.2) []), rest)
  | _ + 1, s => readScalar readFloat s

def readItems : Nat → Text → Option (List Json × Text)
  | 0, _ => none
  | n + 1, s => do
    let (v, rest) ← readValue n s
    match skipBlanks rest with
    | ']' :: rest => some ([v], rest)
    | ',' :: rest =>
      let (vs, rest) ← readItems n (skipBlanks rest)
      some (v :: vs, rest)
    | _ => none

def readFields : Nat → Text → Option (List (Text × Json) × Text)
  | 0, _ => none
  | n + 1, '"' :: s => do
    let (key, rest) ← readString s
    match skipBlanks rest with
    | ':' :: rest =>
      let (v, rest) ← readValue n (skipBlanks rest)
      match skipBlanks rest with
      | '\x7d' :: rest => some ([(key, v)], rest)
      | ',' :: rest =>
        let (fields, rest) ← readFields n (skipBlanks rest)
        some ((key, v) :: fields, rest)
      | _ => none
    | _ => none
  | _ + 1, _ => none

end

/-- `json.loads`. -/
def loads (s : Text) : Option Json :=
  match readValue readFloat (s.length + 1) (skipBlanks s) with
  | some (v, rest) => if skipBlanks rest = [] then some v else none
  | none => none

end Reader

variable {rest t : Text} {n : Nat}

section Strings

theorem hexDigitValue_digitChar : ∀ {d : Nat}, d < 16 → Numeral.hexDigitValue (Numeral.digitChar d) = some d := by
  decide

variable {u : Nat}

theorem readHex4_hex4 (h : u < 65536) : ∃ a b c d, hex4 u = [a, b, c, d] ∧ readHex4 a b c d = some u := by
  refine ⟨_, _, _, _, rfl, ?_⟩
  unfold readHex4
  rw [hexDigitValue_digitChar (by omega), hexDigitValue_digitChar (by omega), hexDigitValue_digitChar (by omega),
    hexDigitValue_digitChar (by omega)]
  have hvalue : u / 4096 % 16 * 4096 + u / 256 % 16 * 256 + u / 16 % 16 * 16 + u % 16 = u := by omega
  exact congrArg some hvalue

theorem readUnits_hex4 (h : u < 65536) (rest : Text) :
    readUnits ('\\' :: 'u' :: (hex4 u ++ rest)) = (readUnits rest).map fun p => (u :: p.1, p.2) := by
  obtain ⟨a, b, c, d, hhex, hread⟩ := readHex4_hex4 h
  rw [hhex]
  simp only [cons_append, nil_append, readUnits, hread]
  cases readUnits rest <;> rfl

theorem readUnits_flatMap_hex4 {us : List Nat} (h : ∀ u ∈ us, u < 65536) :
    readUnits ((us.flatMap fun u => '\\' :: 'u' :: hex4 u) ++ rest) =
      (readUnits rest).map fun p => (us ++ p.1, p.2) := by
  induction us with
  | nil => simp
  | cons u us ih =>
    rw [forall_mem_cons] at h
    simp only [flatMap_cons, append_assoc, cons_append]
    rw [readUnits_hex4 h.1, ih h.2, Option.map_map]
    rfl

theorem toNat_valid (c : Char) : c.toNat < 0xd800 ∨ 0xdfff < c.toNat ∧ c.toNat < 0x110000 := c.valid

variable {rest : Text} {c : Char}

theorem units_lt (h : u ∈ units c) : u < 65536 := by
  have hvalid := toNat_valid c
  unfold units at h
  split_ifs at h with hsmall
  · rw [mem_singleton] at h
    omega
  · simp only [mem_cons, not_mem_nil, or_false] at h
    omega

theorem readUnits_self (hquote : c ≠ '"') (hslash : c ≠ '\\') (hprint : ' ' ≤ c) :
    readUnits (c :: rest) = (readUnits rest).map fun p => (c.toNat :: p.1, p.2) := by
  have hctrl : ¬ c.toNat < 32 := by
    have h : (' ' : Char).toNat ≤ c.toNat := hprint
    have h32 : (' ' : Char).toNat = 32 := rfl
    omega
  rw [readUnits]
  · rw [if_neg hctrl]
    cases readUnits rest <;> rfl
  · exact hquote
  · exact fun _ _ _ _ _ h => absurd h hslash
  · exact fun _ _ h => absurd h hslash

theorem units_of_lt (h : c.toNat < 0x10000) : units c = [c.toNat] := if_pos h

theorem readUnits_escape (c : Char) (rest : Text) :
    readUnits (escape c ++ rest) = (readUnits rest).map fun p => (units c ++ p.1, p.2) := by
  have hsimple : ∀ e, e ≠ 'u' → simpleEscape e = some c → c.toNat < 0x10000 →
      readUnits ('\\' :: e :: rest) = (readUnits rest).map fun p => (units c ++ p.1, p.2) := by
    intro e hu hescape hlt
    rw [readUnits, hescape, units_of_lt hlt]
    · cases readUnits rest <;> rfl
    · exact fun _ _ _ _ _ h => absurd h hu
  unfold escape
  split
  · subst c
    exact hsimple '"' (by decide) rfl (by decide)
  split
  · subst c
    exact hsimple '\\' (by decide) rfl (by decide)
  split
  · subst c
    exact hsimple 'n' (by decide) rfl (by decide)
  split
  · subst c
    exact hsimple 'r' (by decide) rfl (by decide)
  split
  · subst c
    exact hsimple 't' (by decide) rfl (by decide)
  split
  · subst c
    exact hsimple 'f' (by decide) rfl (by decide)
  split
  · subst c
    exact hsimple 'b' (by decide) rfl (by decide)
  split
  · rename_i hquote hslash _ _ _ _ _ hprint
    have htilde := hprint.2
    have hlt : c.toNat < 0x10000 := lt_of_le_of_lt htilde (by decide)
    rw [units_of_lt hlt]
    exact readUnits_self hquote hslash hprint.1
  · exact readUnits_flatMap_hex4 (fun u => units_lt)

theorem readUnits_quoted (s rest : Text) :
    readUnits (s.flatMap escape ++ '"' :: rest) = some (s.flatMap units, rest) := by
  induction s with
  | nil => rfl
  | cons c s ih =>
    rw [flatMap_cons, append_assoc, readUnits_escape, ih]
    rfl

theorem combine_units (c : Char) (us : List Nat) : combine (units c ++ us) = (combine us).map (c :: ·) := by
  have hvalid := toNat_valid c
  unfold units
  split_ifs with hsmall
  · have hhigh : ¬ (0xd800 ≤ c.toNat ∧ c.toNat < 0xdc00) := by omega
    have hlow : ¬ (0xdc00 ≤ c.toNat ∧ c.toNat < 0xe000) := by omega
    rw [singleton_append, combine.eq_def]
    simp only [hhigh, hlow, if_false, Char.ofNat_toNat]
  · have hhigh : 0xd800 ≤ 0xd800 + (c.toNat - 0x10000) / 0x400 ∧ 0xd800 + (c.toNat - 0x10000) / 0x400 < 0xdc00 := by
      omega
    have hlow : 0xdc00 ≤ 0xdc00 + (c.toNat - 0x10000) % 0x400 ∧ 0xdc00 + (c.toNat - 0x10000) % 0x400 < 0xe000 := by
      omega
    have hvalue : 0x10000 + (0xd800 + (c.toNat - 0x10000) / 0x400 - 0xd800) * 0x400 +
        (0xdc00 + (c.toNat - 0x10000) % 0x400 - 0xdc00) = c.toNat := by omega
    rw [cons_append, singleton_append, combine.eq_def]
    simp only [hhigh, hlow, and_self, if_true, hvalue, Char.ofNat_toNat]

theorem combine_flatMap_units (s : Text) : combine (s.flatMap units) = some s := by
  induction s with
  | nil => rfl
  | cons c s ih =>
    rw [flatMap_cons, combine_units, ih]
    rfl

theorem readString_quoted (s rest : Text) : readString (s.flatMap escape ++ '"' :: rest) = some (s, rest) := by
  unfold readString
  rw [readUnits_quoted]
  simp [combine_flatMap_units]

end Strings

section Numbers

/-- What follows does not continue a numeral. -/
def Stops (rest : Text) : Prop :=
  ∀ c, rest.head? = some c → Text.isAsciiDigit c = false ∧ c ≠ '.' ∧ c ≠ 'e' ∧ c ≠ 'E'

theorem stops_nil : Stops [] := fun c h => by cases h

theorem stops_cons (h : Text.isAsciiDigit c = false ∧ c ≠ '.' ∧ c ≠ 'e' ∧ c ≠ 'E') : Stops (c :: rest) := by
  intro c' hc'
  obtain rfl : c = c' := Option.some.inj hc'
  exact h

theorem isAsciiDigit_decimal (h : c ∈ Numeral.decimal n) : Text.isAsciiDigit c = true := by
  obtain ⟨d, hd, rfl⟩ := Numeral.mem_decimal h
  have hall : ∀ d < 10, Text.isAsciiDigit (Numeral.digitChar d) = true := by decide
  exact hall d hd

theorem digitsOf_stops (h : Stops rest) : digitsOf rest = [] := by
  cases rest with
  | nil => rfl
  | cons c rest =>
    refine takeWhile_cons_of_neg ?_
    rw [(h c rfl).1]
    exact Bool.false_ne_true

theorem digitsOf_decimal (h : Stops rest) : digitsOf (Numeral.decimal n ++ rest) = Numeral.decimal n := by
  unfold digitsOf
  rw [takeWhile_append_of_pos fun c => isAsciiDigit_decimal]
  exact (congrArg (Numeral.decimal n ++ ·) (digitsOf_stops h)).trans (append_nil _)

theorem fractionOf_stops (h : Stops rest) : fractionOf rest = [] := by
  unfold fractionOf
  split
  · exact absurd rfl (h '.' rfl).2.1
  · rfl

theorem exponentOf_stops (h : Stops rest) : exponentOf rest = [] := by
  cases rest with
  | nil => rfl
  | cons c rest =>
    have hc := h c rfl
    refine if_neg ?_
    rintro (rfl | rfl)
    · exact hc.2.2.1 rfl
    · exact hc.2.2.2 rfl

theorem digitsValue_decimal (n : Nat) : digitsValue (Numeral.decimal n) = n := by
  unfold digitsValue Numeral.decimal
  split_ifs with hn
  · rw [hn]
    rfl
  · have hvalue : ∀ d < 10, (Numeral.digitChar d).toNat - 48 = d := by decide
    rw [map_reverse, reverse_reverse,
      Numeral.map_digitChar (by omega) hvalue, Nat.ofDigits_digits]

theorem head_decimal (h : n ≠ 0) : (Numeral.decimal n ++ rest).head? ≠ some '0' := by
  have hdigits : Nat.digits 10 n ≠ [] := Nat.digits_ne_nil_iff_ne_zero.mpr h
  have hlast := Nat.getLast_digit_ne_zero 10 h
  have hlt := Nat.digits_lt_base (by omega) (getLast_mem hdigits)
  have hhead : (Numeral.decimal n).head? = some (Numeral.digitChar ((Nat.digits 10 n).getLast hdigits)) := by
    rw [Numeral.decimal, if_neg h, head?_reverse, getLast?_map, getLast?_eq_getLast_of_ne_nil hdigits]
    rfl
  have hnonzero : ∀ d < 10, d ≠ 0 → Numeral.digitChar d ≠ '0' := by decide
  rw [head?_append, hhead]
  intro heq
  exact hnonzero _ hlt hlast (Option.some.inj heq)

theorem whole_decimal (h : Stops rest) :
    (if (Numeral.decimal n ++ rest).head? = some '0' then ['0'] else digitsOf (Numeral.decimal n ++ rest)) =
      Numeral.decimal n := by
  by_cases hn : n = 0
  · rw [hn]
    rfl
  · rw [if_neg (head_decimal hn), digitsOf_decimal h]

theorem unsigned_decimal : unsigned (Numeral.decimal n ++ rest) = Numeral.decimal n ++ rest := by
  obtain ⟨d, hd, tail, hdec⟩ := Numeral.startsWithDigit_decimal
  have hminus : ∀ d < 10, Numeral.digitChar d ≠ '-' := by decide
  rw [hdec, unsigned]
  exact fun s h => hminus d hd (List.cons.inj h).1

variable (readFloat : Text → Json)

theorem readNumber_of_unsigned {s : Text} (hbody : unsigned s = Numeral.decimal n ++ rest)
    (h : Stops rest) : readNumber readFloat s =
      some (.int (if (Numeral.decimal n ++ rest).length < s.length then -(n : Int) else n), rest) := by
  unfold readNumber
  simp only [hbody, whole_decimal h, Numeral.decimal_ne_nil, if_false, drop_left, fractionOf_stops h,
    length_nil, drop_zero, exponentOf_stops h, and_self, if_true, digitsValue_decimal]

theorem readNumber_showInt {n : Int} (h : Stops rest) :
    readNumber readFloat (Numeral.showInt n ++ rest) = some (.int n, rest) := by
  unfold Numeral.showInt
  split_ifs with hneg
  · have hbody : unsigned ('-' :: Numeral.decimal n.natAbs ++ rest) = Numeral.decimal n.natAbs ++ rest := rfl
    have hlt : (Numeral.decimal n.natAbs ++ rest).length < ('-' :: Numeral.decimal n.natAbs ++ rest).length := by simp
    rw [readNumber_of_unsigned readFloat hbody h, if_pos hlt]
    have hvalue : -n.natAbs = n := by omega
    rw [hvalue]
  · rw [readNumber_of_unsigned readFloat unsigned_decimal h, if_neg (lt_irrefl _)]
    have hvalue : n.natAbs = n := by omega
    rw [hvalue]

theorem readScalar_of_head (hc : c ∉ "ntfNI".toList) (hinf : "-Infinity".toList.isPrefixOf (c :: t) = false) :
    readScalar readFloat (c :: t) = readNumber readFloat (c :: t) := by
  have hword : ∀ word w ws, word = w :: ws → w ∈ "ntfNI".toList →
      word.isPrefixOf (c :: t) = false := by
    rintro _ w ws rfl hw
    have hne : w ≠ c := fun h => hc (h ▸ hw)
    simp [isPrefixOf, hne]
  unfold readScalar
  rw [hword "null" 'n' _ rfl (by decide), hword "true" 't' _ rfl (by decide),
    hword "false" 'f' _ rfl (by decide), hword "NaN" 'N' _ rfl (by decide),
    hword "Infinity" 'I' _ rfl (by decide), hinf]
  rfl

theorem readScalar_showInt {n : Int} (h : Stops rest) :
    readScalar readFloat (Numeral.showInt n ++ rest) = some (.int n, rest) := by
  obtain ⟨d, hd, tail, hdec⟩ := Numeral.startsWithDigit_decimal
  have hliteral : ∀ d < 10, Numeral.digitChar d ∉ "ntfNI".toList := by decide
  have hminus : ∀ d < 10, '-' ≠ Numeral.digitChar d := by decide
  have hinfinity : ∀ d < 10, 'I' ≠ Numeral.digitChar d := by decide
  rw [← readNumber_showInt readFloat h]
  unfold Numeral.showInt
  split_ifs
  · rw [hdec]
    refine readScalar_of_head readFloat (by decide) ?_
    simp [isPrefixOf, hinfinity d hd]
  · rw [hdec]
    refine readScalar_of_head readFloat (hliteral d hd) ?_
    simp [isPrefixOf, hminus d hd]

end Numbers

section Values

inductive Plain : Json → Prop
  | null : Plain null
  | bool (b : Bool) : Plain (bool b)
  | int (n : Int) : Plain (int n)
  | str (s : Text) : Plain (str s)
  | arr {items : List Json} (h : ∀ v ∈ items, Plain v) : Plain (arr items)
  | obj {fields : Dict} (hkeys : (fields.map (·.1)).Nodup) (h : ∀ kv ∈ fields, Plain kv.2) : Plain (obj fields)

variable {fields : Dict}

theorem foldl_setKey {acc : Dict} (h : ((acc ++ fields).map (·.1)).Nodup) :
    fields.foldl (fun d kv => setKey d kv.1 kv.2) acc = acc ++ fields := by
  induction fields generalizing acc with
  | nil => simp
  | cons kv fields ih =>
    have hnew : acc.any (·.1 = kv.1) = false := by
      rw [any_eq_false]
      intro kv' hkv' heq
      rw [map_append, nodup_append] at h
      exact h.2.2 kv'.1 (mem_map_of_mem hkv') kv.1 (by simp) (of_decide_eq_true heq)
    have hset : setKey acc kv.1 kv.2 = acc ++ [kv] := by
      unfold setKey KeyedRows.store
      rw [hnew]
      rfl
    rw [foldl_cons, hset, ih (by simpa using h), append_assoc, singleton_append]

variable {v : Json}

theorem dumps_head (h : Plain v) : ∃ c t, dumps v = c :: t ∧ isBlank c = false ∧ c ≠ ']' ∧ c ≠ '\x7d' := by
  cases h with
  | null => exact ⟨_, _, rfl, by decide, by decide, by decide⟩
  | bool b => cases b <;> exact ⟨_, _, rfl, by decide, by decide, by decide⟩
  | int n =>
    obtain ⟨c, hc, t, hn⟩ := Numeral.showInt_head
    have hall : ∀ c ∈ "-0123456789".toList, isBlank c = false ∧ c ≠ ']' ∧ c ≠ '\x7d' := by decide
    exact ⟨c, t, by rw [dumps, hn], hall c hc⟩
  | str s => exact ⟨'"', _, by rw [dumps, quoted], by decide, by decide, by decide⟩
  | arr h => exact ⟨'[', _, by rw [dumps], by decide, by decide, by decide⟩
  | obj => exact ⟨'\x7b', _, by rw [dumps], by decide, by decide, by decide⟩

theorem skipBlanks_cons (h : isBlank c = false) (t : Text) : skipBlanks (c :: t) = c :: t :=
  dropWhile_cons_of_neg (by rw [h]; exact Bool.false_ne_true)

theorem skipBlanks_dumps (h : Plain v) (rest : Text) : skipBlanks (dumps v ++ rest) = dumps v ++ rest := by
  obtain ⟨c, t, hv, hblank, -⟩ := dumps_head h
  rw [hv]
  exact skipBlanks_cons hblank _

variable (readFloat : Text → Json) {d : Dict} {items : List Json}

def Reads (v : Json) : Prop :=
  ∀ n rest, (dumps v).length < n → Stops rest → readValue readFloat n (dumps v ++ rest) = some (v, rest)

theorem stops_comma : Stops (',' :: rest) := stops_cons (by decide)

theorem stops_bracket : Stops (']' :: rest) := stops_cons (by decide)

theorem stops_brace (rest : Text) : Stops ('\x7d' :: rest) := stops_cons (by decide)

theorem skipBlanks_space (t : Text) : skipBlanks (' ' :: t) = skipBlanks t := rfl

theorem dumpsItems_cons (v : Json) (items : List Json) : ∃ t, dumpsItems (v :: items) = dumps v ++ t := by
  cases items with
  | nil => exact ⟨[], by rw [dumpsItems, append_nil]⟩
  | cons => exact ⟨_, by rw [dumpsItems]⟩

theorem skipBlanks_dumpsItems (h : Plain v) (items : List Json) (rest : Text) :
    skipBlanks (dumpsItems (v :: items) ++ rest) = dumpsItems (v :: items) ++ rest := by
  obtain ⟨t, ht⟩ := dumpsItems_cons v items
  rw [ht, append_assoc]
  exact skipBlanks_dumps h _

theorem readItems_dumpsItems (hne : items ≠ []) (hplain : ∀ v ∈ items, Plain v)
    (hreads : ∀ v ∈ items, Reads readFloat v) (hn : (dumpsItems items).length + 1 < n) (rest : Text) :
    readItems readFloat n (dumpsItems items ++ ']' :: rest) = some (items, rest) := by
  induction items generalizing n with
  | nil => exact absurd rfl hne
  | cons v items ih =>
    obtain ⟨n, rfl⟩ := Nat.exists_eq_add_of_lt (Nat.zero_lt_of_lt hn)
    rw [zero_add] at hn ⊢
    rw [forall_mem_cons] at hplain hreads
    cases items with
    | nil =>
      rw [dumpsItems] at hn ⊢
      rw [readItems, hreads.1 n _ (by omega) stops_bracket]
      rfl
    | cons w items =>
      rw [dumpsItems] at hn ⊢
      simp only [length_append, length_cons] at hn
      have hw : Plain w := hplain.2 w mem_cons_self
      have hrest := ih (cons_ne_nil w items) hplain.2 hreads.2 (n := n) (by omega)
      rw [append_assoc, cons_append, cons_append, readItems,
        hreads.1 n _ (by omega) stops_comma, Option.bind_eq_bind, Option.bind_some]
      simp only [skipBlanks_cons (show isBlank ',' = false by decide), skipBlanks_space,
        skipBlanks_dumpsItems hw items, hrest]
      rfl

theorem dumpsFields_cons (kv : Text × Json) {fields : Dict} : ∃ t, dumpsFields (kv :: fields) = '"' :: t := by
  cases fields <;> exact ⟨_, by rw [dumpsFields, quoted, cons_append]⟩

theorem skipBlanks_dumpsFields (kv : Text × Json) {fields : Dict} (rest : Text) :
    skipBlanks (dumpsFields (kv :: fields) ++ rest) = dumpsFields (kv :: fields) ++ rest := by
  obtain ⟨t, ht⟩ := dumpsFields_cons kv
  rw [ht]
  exact skipBlanks_cons (by decide) _

theorem readField (hv : Plain v) (hread : Reads readFloat v) (key : Text) (hn : (dumps v).length < n) (ht : Stops t) :
    readFields readFloat (n + 1) (quoted key ++ ':' :: ' ' :: (dumps v ++ t)) =
      match skipBlanks t with
      | '\x7d' :: rest => some ([(key, v)], rest)
      | ',' :: rest => do
        let (fields, rest) ← readFields readFloat n (skipBlanks rest)
        some ((key, v) :: fields, rest)
      | _ => none := by
  have hcolon : ∀ t, skipBlanks (':' :: t) = ':' :: t := skipBlanks_cons (by decide)
  rw [quoted, cons_append, append_assoc, singleton_append, readFields, readString_quoted,
    Option.bind_eq_bind, Option.bind_some]
  simp only [hcolon, skipBlanks_space, skipBlanks_dumps hv, hread n t hn ht]
  rfl

theorem readFields_dumpsFields (hne : fields ≠ []) (hplain : ∀ kv ∈ fields, Plain kv.2)
    (hreads : ∀ kv ∈ fields, Reads readFloat kv.2) (hn : (dumpsFields fields).length + 1 < n) (rest : Text) :
    readFields readFloat n (dumpsFields fields ++ '\x7d' :: rest) = some (fields, rest) := by
  induction fields generalizing n with
  | nil => exact absurd rfl hne
  | cons kv fields ih =>
    obtain ⟨key, v⟩ := kv
    obtain ⟨n, rfl⟩ := Nat.exists_eq_add_of_lt (Nat.zero_lt_of_lt hn)
    rw [zero_add] at hn ⊢
    rw [forall_mem_cons] at hplain hreads
    have hfield : ∀ {t}, (dumps v).length < n → Stops t → _ := fun {t} => readField readFloat hplain.1 hreads.1 key
    cases fields with
    | nil =>
      rw [dumpsFields] at hn ⊢
      simp only [length_append, length_cons] at hn
      rw [append_assoc, cons_append, cons_append, hfield (by omega) (stops_brace rest)]
      rfl
    | cons kw fields =>
      rw [dumpsFields] at hn ⊢
      simp only [length_append, length_cons] at hn
      have hrest := ih (cons_ne_nil kw fields) hplain.2 hreads.2 (n := n) (by omega)
      rw [append_assoc, cons_append, cons_append, append_assoc, cons_append, cons_append,
        hfield (by omega) stops_comma]
      simp only [skipBlanks_cons (show isBlank ',' = false by decide), skipBlanks_space,
        skipBlanks_dumpsFields kw, hrest]
      rfl

theorem readValue_scalar {c : Char} (hquote : c ≠ '"') (hbracket : c ≠ '[') (hbrace : c ≠ '\x7b') :
    readValue readFloat (n + 1) (c :: t) = readScalar readFloat (c :: t) := by
  rw [readValue]
  · exact fun _ h => hquote (List.cons.inj h).1
  · exact fun _ h => hbracket (List.cons.inj h).1
  · exact fun _ h => hbrace (List.cons.inj h).1

theorem readValue_showInt {i : Int} (h : Stops rest) :
    readValue readFloat (n + 1) (Numeral.showInt i ++ rest) = some (.int i, rest) := by
  obtain ⟨c, hc, t, hi⟩ := Numeral.showInt_head
  have hall : ∀ c ∈ "-0123456789".toList, c ≠ '"' ∧ c ≠ '[' ∧ c ≠ '\x7b' := by decide
  obtain ⟨hquote, hbracket, hbrace⟩ := hall c hc
  rw [← readScalar_showInt readFloat h, hi]
  exact readValue_scalar readFloat hquote hbracket hbrace

theorem readValue_quoted {s : Text} : readValue readFloat (n + 1) (quoted s ++ rest) = some (.str s, rest) := by
  rw [quoted, cons_append, append_assoc, singleton_append, readValue, readString_quoted]
  rfl

theorem readValue_arr (hplain : ∀ v ∈ items, Plain v) (hreads : ∀ v ∈ items, Reads readFloat v)
    (hn : (dumpsItems items).length + 1 < n) :
    readValue readFloat (n + 1) ('[' :: (dumpsItems items ++ ']' :: rest)) = some (.arr items, rest) := by
  cases items with
  | nil =>
    rfl
  | cons v items =>
    have hv : Plain v := hplain v mem_cons_self
    have hitems := readItems_dumpsItems readFloat (cons_ne_nil v items) hplain hreads hn rest
    obtain ⟨c, t, hhead, -, hend, -⟩ := dumps_head hv
    obtain ⟨t', ht'⟩ := dumpsItems_cons v items
    rw [readValue, skipBlanks_dumpsItems hv]
    split
    · rename_i heq
      rw [ht', hhead] at heq
      exact absurd (List.cons.inj heq).1 hend
    · rw [hitems]
      rfl

theorem readValue_obj (hkeys : (fields.map (·.1)).Nodup) (hplain : ∀ kv ∈ fields, Plain kv.2)
    (hreads : ∀ kv ∈ fields, Reads readFloat kv.2) (hn : (dumpsFields fields).length + 1 < n) :
    readValue readFloat (n + 1) ('\x7b' :: (dumpsFields fields ++ '\x7d' :: rest)) = some (.obj fields, rest) := by
  cases fields with
  | nil =>
    rfl
  | cons kv fields =>
    have hfields := readFields_dumpsFields readFloat (cons_ne_nil kv fields) hplain hreads hn rest
    obtain ⟨t, ht⟩ := dumpsFields_cons kv
    rw [readValue, skipBlanks_dumpsFields kv]
    split
    · rename_i heq
      rw [ht] at heq
      exact absurd (List.cons.inj heq).1 (by decide)
    · rw [hfields]
      exact congrArg (fun d => some (obj d, rest)) (@foldl_setKey (kv :: fields) [] hkeys)

theorem reads_of_plain (h : Plain v) : Reads readFloat v := by
  induction h with
  | null =>
    rintro (_ | n) rest hn hrest
    · omega
    · exact readValue_scalar readFloat (by decide) (by decide) (by decide)
  | bool b =>
    rintro (_ | n) rest hn hrest
    · omega
    · cases b <;> exact readValue_scalar readFloat (by decide) (by decide) (by decide)
  | int i =>
    rintro (_ | n) rest hn hrest
    · omega
    · exact readValue_showInt readFloat hrest
  | str s =>
    rintro (_ | n) rest hn hrest
    · omega
    · exact readValue_quoted readFloat
  | arr hitems ih =>
    rintro (_ | n) rest hn hrest
    · omega
    · rw [dumps] at hn ⊢
      simp only [length_cons, length_append] at hn
      rw [cons_append, append_assoc]
      exact readValue_arr readFloat hitems ih (by omega)
  | obj hkeys hfields ih =>
    rintro (_ | n) rest hn hrest
    · omega
    · rw [dumps] at hn ⊢
      simp only [length_cons, length_append] at hn
      rw [cons_append, append_assoc]
      exact readValue_obj readFloat hkeys hfields ih (by omega)

theorem loads_dumps (h : Plain v) : loads readFloat (dumps v) = some v := by
  have hread := reads_of_plain readFloat h ((dumps v).length + 1) [] (Nat.lt_succ_self _) stops_nil
  have hskip := skipBlanks_dumps h []
  rw [append_nil] at hread hskip
  unfold loads
  rw [hskip, hread]
  rfl

theorem find?_perm {d' : Dict} (h : d.Perm d') (hkeys : (d.map (·.1)).Nodup) (key : Text) :
    d.find? (·.1 = key) = d'.find? (·.1 = key) := by
  induction h with
  | nil => rfl
  | cons kv _ ih =>
    rw [map_cons, nodup_cons] at hkeys
    rw [find?_cons, find?_cons, ih hkeys.2]
  | swap kv kw d =>
    simp only [map_cons, nodup_cons, mem_cons, not_or] at hkeys
    simp only [find?_cons]
    by_cases hkv : kv.1 = key <;> by_cases hkw : kw.1 = key
    · exact absurd (hkw.trans hkv.symm) hkeys.1.1
    · simp [hkw]
    · simp [hkv]
    · simp [hkv]
  | trans h _ ih ih' => exact (ih hkeys).trans (ih' ((h.map _).nodup_iff.mp hkeys))

theorem sortKeys_perm : (sortKeys d).Perm d := mergeSort_perm d _

theorem field_sortKeys (hkeys : (d.map (·.1)).Nodup) (key : String) : field (sortKeys d) key = field d key := by
  unfold field
  rw [find?_perm sortKeys_perm.symm hkeys]

theorem hasField_sortKeys (d : Dict) (key : String) : hasField (sortKeys d) key = hasField d key :=
  sortKeys_perm.any_eq

theorem plain_sortKeys (h : Plain (.obj d)) : Plain (.obj (sortKeys d)) := by
  cases h with
  | obj hkeys hvalues =>
    refine .obj ((sortKeys_perm.map _).nodup_iff.mpr hkeys) fun kv hkv => ?_
    exact hvalues kv (sortKeys_perm.mem_iff.mp hkv)

end Values

end Json
