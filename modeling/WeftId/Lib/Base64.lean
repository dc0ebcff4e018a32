import WeftId.Lib.Text

/-!
URL-safe base64 as Python's `base64` module writes and reads it.  The decoder is the lenient one: it
skips characters outside the alphabet and stops at the first complete padding.
-/

namespace Base64

open List

def digit (n : Nat) : Char :=
  if n < 26 then Char.ofNat (65 + n)
  else if n < 52 then Char.ofNat (71 + n)
  else if n < 62 then Char.ofNat (n - 4)
  else if n = 62 then '-'
  else '_'

def value (c : Char) : Option Nat :=
  if 'A' ≤ c ∧ c ≤ 'Z' then some (c.toNat - 65)
  else if 'a' ≤ c ∧ c ≤ 'z' then some (c.toNat - 71)
  else if '0' ≤ c ∧ c ≤ '9' then some (c.toNat + 4)
  else if c = '-' ∨ c = '+' then some 62
  else if c = '_' ∨ c = '/' then some 63
  else none

def encode : List UInt8 → Text
  | [] => []
  | [a] => [digit (a.toNat / 4), digit (a.toNat % 4 * 16), '=', '=']
  | [a, b] => [digit (a.toNat / 4), digit (a.toNat % 4 * 16 + b.toNat / 16), digit (b.toNat % 16 * 4), '=']
  | a :: b :: c :: rest =>
    digit (a.toNat / 4) :: digit (a.toNat % 4 * 16 + b.toNat / 16) ::
      digit (b.toNat % 16 * 4 + c.toNat / 64) :: digit (c.toNat % 64) :: encode rest

structure State where
  quadPos : Nat := 0
  left : Nat := 0
  pads : Nat := 0

def decodeFrom (s : State) : Text → Option (List UInt8)
  | [] => if s.quadPos = 0 then some [] else none
  | '=' :: rest =>
    if 2 ≤ s.quadPos then
      if 4 ≤ s.quadPos + (s.pads + 1) then some []
      else decodeFrom { s with pads := s.pads + 1 } rest
    else decodeFrom s rest
  | c :: rest =>
    match value c with
    | none => decodeFrom s rest
    | some v =>
      match s.quadPos with
      | 0 => decodeFrom ⟨1, v, 0⟩ rest
      | 1 => (decodeFrom ⟨2, v % 16, 0⟩ rest).map (UInt8.ofNat (s.left * 4 + v / 16) :: ·)
      | 2 => (decodeFrom ⟨3, v % 4, 0⟩ rest).map (UInt8.ofNat (s.left * 16 + v / 4) :: ·)
      | _ => (decodeFrom ⟨0, 0, 0⟩ rest).map (UInt8.ofNat (s.left * 64 + v) :: ·)

/-- `urlsafe_b64decode` of a text; a character that is not ASCII is an error. -/
def decode (s : Text) : Option (List UInt8) :=
  if s.all (·.toNat < 128) then decodeFrom {} s else none

variable {n : Nat}

theorem value_digit (h : n < 64) : value (digit n) = some n := by
  have hall : ∀ n < 64, value (digit n) = some n := by decide
  exact hall n h

theorem digit_ne_pad (h : n < 64) : digit n ≠ '=' := by
  have hall : ∀ n < 64, digit n ≠ '=' := by decide
  exact hall n h

theorem digit_lt (h : n < 64) : (digit n).toNat < 128 := by
  have hall : ∀ n < 64, (digit n).toNat < 128 := by decide
  exact hall n h

section Digits

variable {n left pads : Nat} {rest : Text}

theorem decodeFrom_digit_zero (h : n < 64) :
    decodeFrom ⟨0, left, pads⟩ (digit n :: rest) = decodeFrom ⟨1, n, 0⟩ rest := by
  rw [decodeFrom.eq_3 _ _ rest (digit_ne_pad h), value_digit h]
  rfl

theorem decodeFrom_digit_one (h : n < 64) : decodeFrom ⟨1, left, pads⟩ (digit n :: rest) =
    (decodeFrom ⟨2, n % 16, 0⟩ rest).map (UInt8.ofNat (left * 4 + n / 16) :: ·) := by
  rw [decodeFrom.eq_3 _ _ rest (digit_ne_pad h), value_digit h]
  rfl

theorem decodeFrom_digit_two (h : n < 64) : decodeFrom ⟨2, left, pads⟩ (digit n :: rest) =
    (decodeFrom ⟨3, n % 4, 0⟩ rest).map (UInt8.ofNat (left * 16 + n / 4) :: ·) := by
  rw [decodeFrom.eq_3 _ _ rest (digit_ne_pad h), value_digit h]
  rfl

theorem decodeFrom_digit_three (h : n < 64) : decodeFrom ⟨3, left, pads⟩ (digit n :: rest) =
    (decodeFrom ⟨0, 0, 0⟩ rest).map (UInt8.ofNat (left * 64 + n) :: ·) := by
  rw [decodeFrom.eq_3 _ _ rest (digit_ne_pad h), value_digit h]
  rfl

end Digits

theorem ofNat_eq {a : UInt8} (h : n = a.toNat) : UInt8.ofNat n = a := by
  rw [h, UInt8.ofNat_toNat]

theorem decodeFrom_encode (bytes : List UInt8) : decodeFrom ⟨0, 0, 0⟩ (encode bytes) = some bytes := by
  induction bytes using encode.induct with
  | case1 => rfl
  | case2 a =>
    have ha := a.toNat_lt
    rw [encode, decodeFrom_digit_zero (by omega), decodeFrom_digit_one (by omega),
      ofNat_eq (a := a) (by omega)]
    rfl
  | case3 a b =>
    have ha := a.toNat_lt
    have hb := b.toNat_lt
    rw [encode, decodeFrom_digit_zero (by omega), decodeFrom_digit_one (by omega),
      decodeFrom_digit_two (by omega), ofNat_eq (a := a) (by omega), ofNat_eq (a := b) (by omega)]
    rfl
  | case4 a b c rest ih =>
    have ha := a.toNat_lt
    have hb := b.toNat_lt
    have hc := c.toNat_lt
    rw [encode, decodeFrom_digit_zero (by omega), decodeFrom_digit_one (by omega),
      decodeFrom_digit_two (by omega), decodeFrom_digit_three (by omega), ih,
      ofNat_eq (a := a) (by omega), ofNat_eq (a := b) (by omega), ofNat_eq (a := c) (by omega)]
    rfl

variable {bytes : List UInt8}

theorem encode_ascii : (encode bytes).all (·.toNat < 128) := by
  induction bytes using encode.induct with
  | case1 => rfl
  | case2 a =>
    have ha := a.toNat_lt
    simp [encode, digit_lt (n := a.toNat / 4) (by omega), digit_lt (n := a.toNat % 4 * 16) (by omega)]
  | case3 a b =>
    have ha := a.toNat_lt
    have hb := b.toNat_lt
    simp [encode, digit_lt (n := a.toNat / 4) (by omega),
      digit_lt (n := a.toNat % 4 * 16 + b.toNat / 16) (by omega), digit_lt (n := b.toNat % 16 * 4) (by omega)]
  | case4 a b c rest ih =>
    have ha := a.toNat_lt
    have hb := b.toNat_lt
    have hc := c.toNat_lt
    rw [encode, all_cons, all_cons, all_cons, all_cons, ih]
    simp [digit_lt (n := a.toNat / 4) (by omega),
      digit_lt (n := a.toNat % 4 * 16 + b.toNat / 16) (by omega),
      digit_lt (n := b.toNat % 16 * 4 + c.toNat / 64) (by omega), digit_lt (n := c.toNat % 64) (by omega)]

theorem decode_encode (bytes : List UInt8) : decode (encode bytes) = some bytes := by
  rw [decode, if_pos encode_ascii, decodeFrom_encode]

theorem length_encode_mod (bytes : List UInt8) : (encode bytes).length % 4 = 0 := by
  induction bytes using encode.induct with
  | case1 => rfl
  | case2 a => simp [encode]
  | case3 a b => simp [encode]
  | case4 =>
    simp only [encode, length_cons]
    omega

def encodeUnpadded (bytes : List UInt8) : Text := Text.rstrip '=' (encode bytes)

def padded (s : Text) : Text := s ++ List.replicate ((4 - s.length % 4) % 4) '='

theorem padded_quad (a b c d : Char) (s : Text) : padded (a :: b :: c :: d :: s) = a :: b :: c :: d :: padded s := by
  unfold padded
  simp [Nat.add_assoc]

theorem padded_encodeUnpadded (bytes : List UInt8) : padded (encodeUnpadded bytes) = encode bytes := by
  have hstrip : ∀ n < 64, ∀ xs ys, padded (Text.rstrip '=' (xs ++ digit n :: ys)) =
      padded (xs ++ digit n :: Text.rstrip '=' ys) := fun n h xs ys =>
    congrArg padded (Text.rstrip_append (digit_ne_pad h))
  unfold encodeUnpadded
  induction bytes using encode.induct with
  | case1 => rfl
  | case2 a => exact hstrip (a.toNat % 4 * 16) (by omega) [_] ['=', '=']
  | case3 a b => exact hstrip (b.toNat % 16 * 4) (by omega) [_, _] ['=']
  | case4 a b c rest ih =>
    refine (hstrip (c.toNat % 64) (by omega) [_, _, _] (encode rest)).trans ?_
    rw [cons_append, cons_append, singleton_append, padded_quad, ih, encode]

theorem decodeFrom_padded : decodeFrom {} (padded (encodeUnpadded bytes)) = some bytes := by
  rw [padded_encodeUnpadded]
  exact decodeFrom_encode bytes

theorem mem_encode {c : Char} (h : c ∈ encode bytes) : c = '=' ∨ ∃ n < 64, c = digit n := by
  induction bytes using encode.induct with
  | case1 => cases h
  | case2 a =>
    have ha := a.toNat_lt
    simp only [encode, mem_cons, not_mem_nil, or_false] at h
    rcases h with rfl | rfl | rfl | rfl
    · exact .inr ⟨_, by omega, rfl⟩
    · exact .inr ⟨_, by omega, rfl⟩
    · exact .inl rfl
    · exact .inl rfl
  | case3 a b =>
    have ha := a.toNat_lt
    have hb := b.toNat_lt
    simp only [encode, mem_cons, not_mem_nil, or_false] at h
    rcases h with rfl | rfl | rfl | rfl
    · exact .inr ⟨_, by omega, rfl⟩
    · exact .inr ⟨_, by omega, rfl⟩
    · exact .inr ⟨_, by omega, rfl⟩
    · exact .inl rfl
  | case4 a b c' rest ih =>
    have ha := a.toNat_lt
    have hb := b.toNat_lt
    have hc := c'.toNat_lt
    simp only [encode, mem_cons] at h
    rcases h with rfl | rfl | rfl | rfl | h
    · exact .inr ⟨_, by omega, rfl⟩
    · exact .inr ⟨_, by omega, rfl⟩
    · exact .inr ⟨_, by omega, rfl⟩
    · exact .inr ⟨_, by omega, rfl⟩
    · exact ih h

end Base64
