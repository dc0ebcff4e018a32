import WeftId.Auth.Resume

/-!
Where a redirect takes the browser: a safe path to the origin it was found at, and a redirect to another origin to
one of the allowed hosts.
-/

namespace WeftId

open List

/-- A reference as a browser takes it up, before it looks for a scheme or an authority. -/
def browserInput (reference : Text) : Text :=
  ((reference.dropWhile (·.toNat ≤ 32)).filter (· ∉ ['\t', '\n', '\r'])).map fun c => if c = '\\' then '/' else c

def isSchemeChar (c : Char) : Bool := Text.isAsciiAlpha c ∨ Text.isAsciiDigit c ∨ c ∈ ['+', '-', '.']

/-- The scheme and the authority that a browser gets from a reference on a page of `https` at `host`. -/
def browserOrigin (host reference : Text) : Text × Text :=
  let input := browserInput reference
  let head := input.takeWhile (· ≠ ':')
  let hasScheme := head.length < input.length ∧ head.head?.any Text.isAsciiAlpha ∧ head.all isSchemeChar
  let scheme := if hasScheme then head.map Char.toLower else "https"
  let rest := if hasScheme then input.drop (head.length + 1) else input
  if scheme ≠ "https" ∨ rest.take 2 = ['/', '/'] then
    (scheme, (rest.dropWhile (· = '/')).takeWhile (· ∉ ['/', '?', '#']))
  else (scheme, host)

def isHostChar (c : Char) : Bool := Text.isAsciiAlpha c ∨ Text.isAsciiDigit c ∨ c ∈ ['-', '.', ':']

/-- A registered host name, maybe with a port. -/
structure HostName where
  text : Text
  plain : ∀ c ∈ text, isHostChar c = true

def safeExternalRedirect (host path : Text) (allowedHosts : List HostName) : Option Text :=
  if host = [] ∨ host ∉ allowedHosts.map (·.text) then none
  else if ¬ isSafePath path then none
  else some ("https://" ++ (host ++ path))

variable {target : Text}

theorem browserInput_eq_self (hhead : ∀ c ∈ target.head?, 32 < c.toNat)
    (hchars : ∀ c ∈ target, c ∉ ['\t', '\n', '\r', '\\']) : browserInput target = target := by
  have hstart : target.dropWhile (·.toNat ≤ 32) = target := by
    cases target with
    | nil => rfl
    | cons c rest => exact dropWhile_cons_of_neg (by simpa using hhead c rfl)
  have hkept : target.filter (· ∉ ['\t', '\n', '\r']) = target :=
    filter_eq_self.mpr fun c hc => decide_eq_true fun h => hchars c hc (mem_append_left ['\\'] h)
  rw [browserInput, hstart, hkept]
  refine (map_congr_left fun c hc => if_neg ?_).trans (map_id' target)
  rintro rfl
  exact hchars _ hc (by decide)

theorem chars_of_isSafePath (h : isSafePath target = true) : (∃ rest, target = '/' :: rest) ∧
    target.take 2 ≠ ['/', '/'] ∧ ∀ c ∈ target, c ∉ ['\t', '\n', '\r', '\\'] := by
  simp only [isSafePath, decide_eq_true_eq] at h
  obtain ⟨-, -, ⟨rest, rfl⟩, hdouble, hbackslash, hcontrol, -⟩ := h
  refine ⟨⟨rest, rfl⟩, fun htake => hdouble ⟨rest.tail, ?_⟩, fun c hc hblank => ?_⟩
  · cases rest with
    | nil => cases htake
    | cons c rest => simp_all
  · have hlow : ∀ c ∈ ['\t', '\n', '\r', '\\'], c < ' ' ∨ c = '\\' := by decide
    rcases hlow c hblank with h | rfl
    · exact hcontrol c hc (.inl h)
    · exact hbackslash hc

theorem browserOrigin_of_safe (host : Text) (h : isSafePath target = true) :
    browserOrigin host target = ("https".toList, host) := by
  obtain ⟨⟨rest, rfl⟩, hdouble, hchars⟩ := chars_of_isSafePath h
  have hinput := browserInput_eq_self (by simp) hchars
  have hscheme : (('/' :: rest).takeWhile (· ≠ ':')).head?.any Text.isAsciiAlpha = false := by
    rfl
  unfold browserOrigin
  simp only [hinput, hscheme, Bool.false_eq_true, false_and, and_false, if_false, ne_eq, not_true, false_or]
  exact if_neg hdouble

theorem notMem_of_isHostChar {c : Char} {l : List Char} (h : isHostChar c = true)
    (hreserved : ∀ c ∈ l, isHostChar c = false) : c ∉ l := by
  intro hmem
  rw [hreserved c hmem] at h
  cases h

theorem browserOrigin_of_host (page : Text) {host path : Text} (hne : host ≠ [])
    (hhost : ∀ c ∈ host, isHostChar c = true)
    (hpath : isSafePath path = true) :
    browserOrigin page ("https://".toList ++ (host ++ path)) = ("https".toList, host) := by
  obtain ⟨⟨rest, rfl⟩, -, hchars⟩ := chars_of_isSafePath hpath
  have hinput : browserInput ("https://" ++ (host ++ '/' :: rest)) = "https://" ++ (host ++ '/' :: rest) := by
    have hscheme : ∀ c ∈ "https://".toList, c ∉ ['\t', '\n', '\r', '\\'] := by decide
    refine browserInput_eq_self (fun c hc => ?_) fun c hc => ?_
    · obtain rfl : 'h' = c := Option.some.inj hc
      decide
    · rcases List.mem_append.mp hc with hc | hc
      · exact hscheme c hc
      · rcases mem_append.mp hc with hc | hc
        · exact notMem_of_isHostChar (hhost c hc) (by decide)
        · exact hchars c hc
  have hauthority : (host ++ '/' :: rest).takeWhile (· ∉ ['/', '?', '#']) = host := by
    rw [takeWhile_append_of_pos, takeWhile_cons_of_neg (by decide), append_nil]
    exact fun c hc => decide_eq_true (notMem_of_isHostChar (hhost c hc) (by decide))
  have hstart : ('/' :: '/' :: (host ++ '/' :: rest)).dropWhile (· = '/') = host ++ '/' :: rest := by
    obtain ⟨c, host, rfl⟩ := exists_cons_of_ne_nil hne
    have hslash : ¬ c = '/' := fun heq =>
      notMem_of_isHostChar (l := ['/']) (hhost c mem_cons_self) (by decide) (by simp [heq])
    simp [hslash]
  unfold browserOrigin
  rw [hinput]
  -- the text up to the first colon is the scheme
  change (if _ ∨ _ then (_, (('/' :: '/' :: (host ++ '/' :: rest)).dropWhile (· = '/')).takeWhile _) else _) = _
  rw [hstart, hauthority]
  exact if_pos (.inr rfl)

/-- A safe path leads a browser nowhere but to the origin of the page, and a redirect to another origin to an
allowed host, by `https`. -/
theorem redirects_keep_their_origin :
    (∀ host target, isSafePath target = true → browserOrigin host target = ("https".toList, host)) ∧
      ∀ page host path allowedHosts url, safeExternalRedirect host path allowedHosts = some url →
        ∃ allowed ∈ allowedHosts, browserOrigin page url = ("https".toList, allowed.text) := by
  refine ⟨fun host target => browserOrigin_of_safe host, fun page host path allowedHosts url hurl => ?_⟩
  unfold safeExternalRedirect at hurl
  split_ifs at hurl with hhost hpath
  obtain rfl := Option.some.inj hurl
  rw [not_or, not_not] at hhost
  obtain ⟨allowed, hmem, rfl⟩ := mem_map.mp hhost.2
  exact ⟨allowed, hmem, browserOrigin_of_host page hhost.1 allowed.plain hpath⟩

end WeftId
