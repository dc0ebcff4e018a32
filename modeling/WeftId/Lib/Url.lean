import WeftId.Lib.Text

/-!
URLs as `urlsplit` reads them.  The parser is given the authorities it accepts and the case mapping, which
depend on the Unicode tables of the runtime.
-/

structure SplitUrl where
  scheme : Text
  netloc : Text
  fragment : Text
  deriving DecidableEq

namespace Url

def split (accepts : Text → Bool) (url : Text) : Option SplitUrl :=
  let url := (url.dropWhile (·.toNat ≤ 32)).filter fun c => c ∉ ['\t', '\r', '\n']
  let head := url.takeWhile (· ≠ ':')
  let isSchemeChar := fun c => Text.isAsciiAlpha c ∨ Text.isAsciiDigit c ∨ c ∈ ['+', '-', '.']
  let hasScheme := head.length < url.length ∧ (head.head?.any Text.isAsciiAlpha) ∧ head.all (isSchemeChar ·)
  let scheme := if hasScheme then head.map Char.toLower else []
  let rest := if hasScheme then url.drop (head.length + 1) else url
  let fragment := Text.afterFirst '#' rest
  if rest.take 2 = ['/', '/'] then
    let netloc := (rest.drop 2).takeWhile fun c => c ∉ ['/', '?', '#']
    if ('[' ∈ netloc ↔ ']' ∈ netloc) ∧ accepts netloc then some { scheme, netloc, fragment } else none
  else some { scheme, netloc := [], fragment }

def hostinfo (netloc : Text) : Text × Text :=
  let info := Text.afterLast '@' netloc
  if '[' ∈ info then
    let bracketed := Text.afterFirst '[' info
    (bracketed.takeWhile (· ≠ ']'), Text.afterFirst ':' (Text.afterFirst ']' bracketed))
  else (info.takeWhile (· ≠ ':'), Text.afterFirst ':' info)

def hostname (lower : Text → Text) (url : SplitUrl) : Option Text :=
  let host := (hostinfo url.netloc).1
  if host = [] then none
  else some (lower (host.takeWhile (· ≠ '%')) ++ host.dropWhile (· ≠ '%'))

def port (url : SplitUrl) : Option (Option Nat) :=
  let digits := (hostinfo url.netloc).2
  if digits = [] then some none
  else if digits.all Text.isAsciiDigit then
    let n := digits.foldl (fun n c => 10 * n + (c.toNat - 48)) 0
    if n ≤ 65535 then some (some n) else none
  else none

def hasUserinfo (url : SplitUrl) : Bool := '@' ∈ url.netloc

end Url
