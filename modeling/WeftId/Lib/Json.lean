import Mathlib.Data.Char
import Mathlib.Data.List.Lex
import WeftId.Lib.KeyedRows
import WeftId.Lib.Text

/-!
JSON values as Python reads them.  `None` and a missing key are both `null`; a float keeps the text that
`str` prints for it and whether it is zero.
-/

inductive Json
  | null
  | bool (b : Bool)
  | int (n : Int)
  | float (spelling : Text) (zero : Bool)
  | str (s : Text)
  | arr (items : List Json)
  | obj (fields : List (Text × Json))

namespace Json

abbrev Dict := List (Text × Json)

def truthy : Json → Bool
  | null => false
  | bool b => b
  | int n => n ≠ 0
  | float _ zero => ¬ zero
  | str s => s ≠ []
  | arr items => ¬ items.isEmpty
  | obj fields => ¬ fields.isEmpty

def isNull : Json → Bool
  | null => true
  | _ => false

/-- Python's `x or y`. -/
def orElse (v other : Json) : Json := if v.truthy then v else other

/-- `dict.get`. -/
def field (d : Dict) (key : String) : Json := ((d.find? (·.1 = key.toList)).map (·.2)).getD null

def hasField (d : Dict) (key : String) : Bool := d.any (·.1 = key.toList)

def setKey {α : Type} (d : List (Text × α)) (key : Text) (v : α) : List (Text × α) :=
  KeyedRows.store (·.1) (key, v) d

end Json
