import Mathlib.Data.Rat.Defs
import SortView.Lib.Text

/-!
# JSON values

A parsed JSON document as Python holds it, and the readings its callers make: `get`, `isinstance`,
`bool` and `str`.
-/

namespace SortView

/-- A JSON value. A number written with a fraction or an exponent is `real`; an object is its items in order. -/
inductive Json where
  | null
  | bool (value : Bool)
  | int (value : Int)
  | real (value : Rat)
  | text (value : PyText.Text)
  | array (items : List Json)
  | object (items : List (PyText.Text × Json))

namespace Json

open PyText

/-- The items of an object. -/
def items? : Json → Option (List (Text × Json))
  | .object items => some items
  | _ => none

def array? : Json → Option (List Json)
  | .array items => some items
  | _ => none

def text? : Json → Option Text
  | .text value => some value
  | _ => none

def bool? : Json → Option Bool
  | .bool value => some value
  | _ => none

def isNull : Json → Bool
  | .null => true
  | _ => false

/-- `bool(value)`. -/
def truthy : Json → Bool
  | .null => false
  | .bool value => value
  | .int value => value ≠ 0
  | .real value => value ≠ 0
  | .text value => value ≠ []
  | .array items => !items.isEmpty
  | .object items => !items.isEmpty

/-- `value == number`, where `True` is 1 and `False` is 0. -/
def equalsInt (number : Int) : Json → Bool
  | .bool value => (if value then 1 else 0) = number
  | .int value => value = number
  | .real value => value = number
  | _ => false

/-- `str(value)`, where `other` is the spelling of a value that is no text. -/
def str (other : Json → Text) : Json → Text
  | .text value => value
  | value => other value

/-- `mapping.get(name, default)`. -/
def getD (items : List (Text × Json)) (name : Text) (default : Json) : Json := (items.lookup name).getD default

/-- `mapping.get(name)`. -/
def get (items : List (Text × Json)) (name : Text) : Json := getD items name .null

end Json

end SortView
