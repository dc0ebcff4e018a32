import Mathlib.Data.List.DropRight

/-!
Python text as a list of characters, with the operations of `str` that do not need the Unicode case
tables.  White space is the set of characters for which `str.isspace` holds.
-/

abbrev Text := List Char

instance : Coe String Text := ⟨String.toList⟩

namespace Text

open List

instance lawfulBEq : LawfulBEq (List Char) := inferInstance

instance decidableForall (s : Text) (p : Char → Prop) [DecidablePred p] : Decidable (∀ c ∈ s, p c) := decidableBAll p s

def isSpace (c : Char) : Bool :=
  (9 ≤ c.toNat && c.toNat ≤ 13) || (28 ≤ c.toNat && c.toNat ≤ 32) || c.toNat == 0x85 || c.toNat == 0xa0 ||
    c.toNat == 0x1680 || (0x2000 ≤ c.toNat && c.toNat ≤ 0x200a) || c.toNat == 0x2028 || c.toNat == 0x2029 ||
    c.toNat == 0x202f || c.toNat == 0x205f || c.toNat == 0x3000

def strip (s : Text) : Text := ((s.dropWhile isSpace).reverse.dropWhile isSpace).reverse

/-- `str.split` on one separator character: at least one part, and separators are dropped. -/
def split (sep : Char) : Text → List Text
  | [] => [[]]
  | c :: s =>
    match split sep s with
    | [] => [[]]
    | part :: parts => if c = sep then [] :: part :: parts else (c :: part) :: parts

def join (sep : Char) : List Text → Text
  | [] => []
  | [part] => part
  | part :: parts => part ++ sep :: join sep parts

/-- Python's `x or y`: an absent or empty text gives way to the other. -/
def orElse (s : Option Text) (other : Text) : Text :=
  match s with
  | some (c :: s) => c :: s
  | _ => other

/-- `str.split` on white space with a bound on the number of splits; the last part is kept as it is. -/
def splitWords : Nat → Text → List Text
  | 0, s =>
    match s.dropWhile isSpace with
    | [] => []
    | rest => [rest]
  | n + 1, s =>
    match s.dropWhile isSpace with
    | [] => []
    | rest => rest.takeWhile (¬ isSpace ·) :: splitWords n (rest.dropWhile (¬ isSpace ·))

/-- `str.replace` with the empty text. -/
def remove (part s : Text) : Text := go 0 s
where
  go : Nat → Text → Text
    | _, [] => []
    | k + 1, _ :: s => go k s
    | 0, c :: s => if part.isPrefixOf (c :: s) then go (part.length - 1) s else c :: go 0 s

/-- `str.strip` with a set of characters. -/
def stripChars (chars s : Text) : Text := ((s.dropWhile (· ∈ chars)).reverse.dropWhile (· ∈ chars)).reverse

def afterLast (sep : Char) (s : Text) : Text := (s.reverse.takeWhile (· ≠ sep)).reverse

def afterFirst (sep : Char) (s : Text) : Text := (s.dropWhile (· ≠ sep)).drop 1

def rstrip (c : Char) (s : Text) : Text := (s.reverse.dropWhile (· = c)).reverse

def isAsciiAlpha (c : Char) : Bool := ('a' ≤ c && c ≤ 'z') || ('A' ≤ c && c ≤ 'Z')

def isAsciiDigit (c : Char) : Bool := '0' ≤ c && c ≤ '9'

theorem split_ne_nil (sep : Char) (s : Text) : split sep s ≠ [] := by
  cases s with
  | nil => simp [split]
  | cons c s =>
    rw [split]
    cases split sep s with
    | nil => simp
    | cons => by_cases hc : c = sep <;> simp [hc]

variable {s part t : Text} {sep c : Char}

theorem split_of_notMem (h : sep ∉ s) : split sep s = [s] := by
  induction s with
  | nil => rfl
  | cons c s ih =>
    rw [mem_cons, not_or] at h
    simp [split, ih h.2, Ne.symm h.1]

theorem split_append (rest : Text) (h : sep ∉ s) : split sep (s ++ sep :: rest) = s :: split sep rest := by
  induction s with
  | nil =>
    rw [nil_append, split]
    cases hrest : split sep rest with
    | nil => exact absurd hrest (split_ne_nil sep rest)
    | cons => simp
  | cons c s ih =>
    rw [mem_cons, not_or] at h
    simp [split, ih h.2, Ne.symm h.1]

theorem notMem_of_mem_split (h : part ∈ split sep s) : sep ∉ part := by
  induction s generalizing part with
  | nil =>
    rw [mem_singleton.mp h]
    exact not_mem_nil
  | cons c s ih =>
    rw [split] at h
    cases hrest : split sep s with
    | nil => exact absurd hrest (split_ne_nil sep s)
    | cons =>
      simp only [hrest] at h ih
      split_ifs at h with hc
      · rcases mem_cons.mp h with rfl | hpart
        · exact not_mem_nil
        · exact ih hpart
      · rcases mem_cons.mp h with rfl | hpart
        · rw [mem_cons, not_or]
          exact ⟨Ne.symm hc, ih mem_cons_self⟩
        · exact ih (mem_cons_of_mem _ hpart)

theorem split_join {parts : List Text} (hne : parts ≠ []) (h : ∀ part ∈ parts, sep ∉ part) :
    split sep (join sep parts) = parts := by
  induction parts with
  | nil => exact absurd rfl hne
  | cons part parts ih =>
    have hpart := h part mem_cons_self
    cases parts with
    | nil => exact split_of_notMem hpart
    | cons =>
      rw [join, split_append _ hpart, ih (cons_ne_nil _ _) fun p hp => h p (mem_cons_of_mem _ hp)]
      exact cons_ne_nil _ _

theorem rstrip_append {x : Char} (hx : x ≠ c) {xs ys : Text} : rstrip c (xs ++ x :: ys) = xs ++ x :: rstrip c ys := by
  have hdrop : (x :: xs.reverse).dropWhile (· = c) = x :: xs.reverse := dropWhile_cons_of_neg (by simpa using hx)
  unfold rstrip
  rw [reverse_append, reverse_cons, append_assoc, singleton_append, dropWhile_append, hdrop]
  split_ifs with hempty
  · rw [isEmpty_iff.mp hempty]
    simp
  · simp

theorem remove_of_notMem (h : c ∉ s) : remove (c :: part) s = s := by
  unfold remove
  induction s with
  | nil => rfl
  | cons d s ih =>
    rw [mem_cons, not_or] at h
    have hhead : (c :: part).isPrefixOf (d :: s) = false := by simp [isPrefixOf, h.1]
    rw [remove.go, hhead, if_neg Bool.false_ne_true, ih h.2]

theorem remove_singleton (c : Char) (s : Text) : remove [c] s = s.filter (· ≠ c) := by
  unfold remove
  induction s with
  | nil => rfl
  | cons d s ih =>
    by_cases hd : d = c
    · subst hd
      have hhead : [d].isPrefixOf (d :: s) = true := by simp
      rw [remove.go, hhead, filter_cons_of_neg (by simp)]
      exact ih
    · have hhead : [c].isPrefixOf (d :: s) = false := by simp [isPrefixOf, Ne.symm hd]
      rw [remove.go, hhead, if_neg Bool.false_ne_true, filter_cons_of_pos (by simpa using hd), ih]

theorem dropWhile_both_eq_self {p : Char → Bool} (hhead : ∀ c ∈ s.head?, p c = false)
    (hlast : ∀ c ∈ s.getLast?, p c = false) : ((s.dropWhile p).reverse.dropWhile p).reverse = s := by
  have hdrop : ∀ t : Text, (∀ c ∈ t.head?, p c = false) → t.dropWhile p = t := by
    intro t ht
    cases t with
    | nil => rfl
    | cons c t => rw [dropWhile_cons, ht c rfl, if_neg Bool.false_ne_true]
  rw [hdrop s hhead, hdrop s.reverse (by rwa [head?_reverse]), reverse_reverse]

theorem stripChars_eq_self {chars : Text} (h : ∀ c ∈ s, c ∉ chars) : stripChars chars s = s :=
  dropWhile_both_eq_self (fun c hc => decide_eq_false (h c (mem_of_mem_head? hc)))
    fun c hc => decide_eq_false (h c (mem_of_mem_getLast? hc))

theorem stripChars_enclosed {chars : Text} {a b : Char} (ha : a ∈ chars) (hb : b ∈ chars) (h : ∀ c ∈ s, c ∉ chars) :
    stripChars chars (a :: (s ++ [b])) = stripChars chars s := by
  have hfront : ∀ t, (a :: t).dropWhile (· ∈ chars) = t.dropWhile (· ∈ chars) := fun t =>
    dropWhile_cons_of_pos (by simpa using ha)
  cases s with
  | nil => simp [stripChars, ha, hb]
  | cons c s =>
    have hc : (c :: s ++ [b]).dropWhile (· ∈ chars) = c :: s ++ [b] :=
      dropWhile_cons_of_neg (by simpa using h c mem_cons_self)
    have hc' : (c :: s).dropWhile (· ∈ chars) = c :: s :=
      dropWhile_cons_of_neg (by simpa using h c mem_cons_self)
    rw [stripChars, hfront, hc, reverse_append, reverse_singleton, singleton_append,
      dropWhile_cons_of_pos (by simpa using hb), stripChars, hc']

theorem flatMap_injective {f : Char → Text} {k : Nat} (hlen : ∀ c, (f c).length = k + 1)
    (hf : Function.Injective f) : Function.Injective (flatMap f) := by
  intro s
  induction s with
  | nil =>
    intro t hst
    cases t with
    | nil => rfl
    | cons d t =>
      have hlength := congrArg List.length hst
      rw [flatMap_cons, length_append, hlen, flatMap_nil, length_nil] at hlength
      omega
  | cons c s ih =>
    intro t hst
    cases t with
    | nil =>
      have hlength := congrArg List.length hst
      rw [flatMap_cons, length_append, hlen, flatMap_nil, length_nil] at hlength
      omega
    | cons d t =>
      obtain ⟨hhead, htail⟩ := append_inj hst (by rw [hlen, hlen])
      rw [hf hhead, ih htail]

theorem strip_eq_self (h : ∀ c ∈ s, isSpace c = false) : strip s = s :=
  dropWhile_both_eq_self (fun c hc => h c (mem_of_mem_head? hc)) fun c hc => h c (mem_of_mem_getLast? hc)

theorem isPrefixOf_append_of_notMem {front rest : Text} (hsep : sep ∈ part) (hc : c ∉ part)
    (hfront : sep ∉ front) : part.isPrefixOf (front ++ c :: rest) = false := by
  rw [Bool.eq_false_iff, Ne, List.isPrefixOf_iff_prefix]
  rintro ⟨tail, htail⟩
  rcases append_eq_append_iff.mp htail with ⟨more, rfl, -⟩ | ⟨more, rfl, hrest⟩
  · exact hfront (mem_append_left more hsep)
  · cases more with
    | nil => exact hfront (by simpa using hsep)
    | cons d more =>
      obtain ⟨rfl, -⟩ := List.cons.inj hrest
      exact hc (by simp)

theorem strip_enclosed {d : Char} (hc : isSpace c = false) (hd : isSpace d = false) :
    strip (c :: (s ++ [d])) = c :: (s ++ [d]) := by
  refine dropWhile_both_eq_self (fun e he => Option.some.inj he ▸ hc) fun e he => ?_
  rw [← cons_append, getLast?_concat] at he
  exact Option.some.inj he ▸ hd

theorem notMem_afterLast (s : Text) : sep ∉ s.afterLast sep := by
  intro h
  have hmem := mem_takeWhile_imp (mem_reverse.mp h)
  simp at hmem

theorem takeWhile_ne_append (h : sep ∉ s) : (s ++ sep :: t).takeWhile (· ≠ sep) = s := by
  have hother : ∀ c ∈ s, decide (c ≠ sep) = true := fun c hc => decide_eq_true fun hsep => h (hsep ▸ hc)
  rw [takeWhile_append_of_pos hother]
  simp

theorem afterFirst_append (h : sep ∉ s) : afterFirst sep (s ++ sep :: t) = t := by
  have hother : ∀ c ∈ s, decide (c ≠ sep) = true := fun c hc => decide_eq_true fun hsep => h (hsep ▸ hc)
  rw [afterFirst, dropWhile_append_of_pos hother]
  simp

theorem afterLast_append (h : sep ∉ t) : afterLast sep (s ++ sep :: t) = t := by
  have hback : (s ++ sep :: t).reverse = t.reverse ++ sep :: s.reverse := by simp
  rw [afterLast, hback, takeWhile_ne_append fun hmem => h (mem_reverse.mp hmem), reverse_reverse]

theorem strip_subset (s : Text) : strip s ⊆ s := by
  intro c hc
  have hreverse := dropWhile_subset isSpace (mem_reverse.mp hc)
  exact dropWhile_subset isSpace (mem_reverse.mp hreverse)

theorem subset_of_mem_splitWords {n : Nat} {word : Text} (h : word ∈ splitWords n s) : word ⊆ s := by
  have hrest : s.dropWhile isSpace ⊆ s := dropWhile_subset isSpace
  induction n generalizing s with
  | zero =>
    unfold splitWords at h
    split at h
    · cases h
    · rwa [mem_singleton.mp h]
  | succ n ih =>
    unfold splitWords at h
    split at h
    · cases h
    · rcases mem_cons.mp h with rfl | h
      · exact fun c hc => hrest (takeWhile_subset _ hc)
      · exact fun c hc => hrest (dropWhile_subset _ (ih h (dropWhile_subset _) hc))

theorem strip_strip (s : Text) : strip (strip s) = strip s := by
  have hshape : ∀ t, strip t = (t.dropWhile isSpace).rdropWhile isSpace := fun t => rfl
  have hhead : ((s.dropWhile isSpace).rdropWhile isSpace).dropWhile isSpace =
      (s.dropWhile isSpace).rdropWhile isSpace := by
    cases hstripped : (s.dropWhile isSpace).rdropWhile isSpace with
    | nil => rfl
    | cons c rest =>
      -- what is left of the end starts where the beginning was cut
      obtain ⟨tail, htail⟩ := List.rdropWhile_prefix (p := isSpace) (s.dropWhile isSpace)
      rw [hstripped] at htail
      have hc := head?_dropWhile_not isSpace s
      rw [← htail] at hc
      rw [dropWhile_cons_of_neg (by simpa using hc)]
  rw [hshape, hshape, hhead, rdropWhile_idempotent]

end Text
