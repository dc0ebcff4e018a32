import WeftId.Env

/-!
The path of a PATCH operation.  A path is reduced to the lower-case name of an attribute and, for an
element of a collection, the `attr eq "value"` filter in its brackets.  A filter that is not of that form
is dropped: the path then reads like the one of the whole collection.
-/

namespace WeftId.Scim

def enterpriseUserSchema : Text := "urn:ietf:params:scim:schemas:extension:enterprise:2.0:User"

def singleQuote : Char := Char.ofNat 39

def doubleQuote : Char := Char.ofNat 34

def unquote (s : Text) : Text :=
  if 2 ≤ s.length ∧ s.head? = s.getLast? ∧ (s.head? = some singleQuote ∨ s.head? = some doubleQuote)
  then (s.drop 1).dropLast else s

def parseEqFilter (env : Env) (body : Text) : Option (Text × Text) :=
  match Text.splitWords 2 body with
  | [attr, op, rawValue] => if env.lower op = "eq" then some (attr, unquote rawValue.strip) else none
  | _ => none

def stripUrn (path : Text) : Text :=
  let stripped := path.strip
  if 3 ≤ stripped.count ':' then stripped.afterLast ':' else stripped

def normalisePatchPathWithFilter (env : Env) : Option Text → Option Text × Option (Text × Text)
  | none => (none, none)
  | some path =>
    let enterprisePrefix := enterpriseUserSchema ++ ":"
    if (env.lower enterprisePrefix).isPrefixOf (env.lower path.strip) then
      (some ("enterprise." ++ env.lower (path.strip.drop enterprisePrefix.length)), none)
    else
      let stripped := stripUrn path
      if '[' ∈ stripped then
        let collection := stripped.takeWhile (· ≠ '[')
        let rest := stripped.afterFirst '['
        if ']' ∈ rest then
          (some (env.lower collection), parseEqFilter env (Text.strip (rest.takeWhile (· ≠ ']'))))
        else (some (env.lower collection), none)
      else (some (env.lower stripped), none)

def normalisePatchPath (env : Env) (path : Option Text) : Option Text := (normalisePatchPathWithFilter env path).1

/-- What `str` prints for a JSON value. -/
def showJson (env : Env) : Json → Text
  | .null => "None"
  | .bool true => "True"
  | .bool false => "False"
  | .int n => if n < 0 then '-' :: Numeral.decimal n.natAbs else Numeral.decimal n.natAbs
  | .float spelling _ => spelling
  | .str s => s
  | v => env.showContainer v

inductive PatchOp
  | add
  | replace
  | remove
  deriving DecidableEq

def parsePatchOp (env : Env) (rawOp : Json) : Except Error (PatchOp × Option Text × Json.Dict) :=
  match rawOp with
  | .obj fields =>
    match (Json.field fields "op").orElse (.str []) with
    | .str op => do
      let kind ←
        if env.lower op.strip = "add" then pure .add
        else if env.lower op.strip = "replace" then pure .replace
        else if env.lower op.strip = "remove" then pure .remove
        else throw (.scim 400 ("Unsupported PATCH op: `" ++
          String.ofList (showJson env (Json.field fields "op")) ++ "`.")
          (some "invalidSyntax"))
      match Json.field fields "path" with
      | .null => pure (kind, none, fields)
      | .str path => pure (kind, some path, fields)
      | _ => throw (.scim 400 "PATCH path must be a string." (some "invalidPath"))
    | _ => throw (.exception "AttributeError")
  | _ => throw (.scim 400 "PATCH operations must be objects." (some "invalidSyntax"))

def patchOperations (patchBody : Json) : Except Error (List Json) :=
  match patchBody with
  | .obj fields =>
    match (Json.field fields "Operations").orElse (Json.field fields "operations") with
    | .arr (op :: ops) => .ok (op :: ops)
    | _ => .error (.scim 400 "PATCH body must contain a non-empty `Operations` array." (some "invalidSyntax"))
  | _ => .error (.scim 400 "PATCH body must be a JSON object." (some "invalidSyntax"))

end WeftId.Scim
