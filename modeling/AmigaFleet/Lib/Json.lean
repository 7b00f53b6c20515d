import AmigaFleet.Lib.Text
import Mathlib.Data.Rat.Defs

/-! The values that `json.loads` gives, and what Python's `str`, `int` and truth value
make of them. What `repr` prints is a parameter. -/
namespace Lib

/-- A float has the text that it prints as, and a value where it is finite. -/
inductive Json where
  | null
  | bool (b : Bool)
  | int (n : Int)
  | float (text : String) (value : Option ℚ)
  | str (s : String)
  | list (items : List Json)
  | dict (fields : List (String × Json))

namespace Json

instance : Inhabited Json := ⟨null⟩

/-- What `int` raises. -/
inductive NumberError where
  | typeError
  | valueError
  | overflowError
  deriving DecidableEq

/-- `int(value)`. -/
def toInt : Json → Except NumberError Int
  | bool b => .ok b.toInt
  | int n => .ok n
  | float _ (some x) => .ok (x.num.tdiv x.den)
  | float text none => .error (if text = "nan" then .valueError else .overflowError)
  | str s => (Text.int s).elim (.error .valueError) .ok
  | null | list _ | dict _ => .error .typeError

/-- `bool(value)`. -/
def truthy : Json → Bool
  | null => false
  | bool b => b
  | int n => n ≠ 0
  | float _ value => value ≠ some 0
  | str s => s ≠ ""
  | list items => !items.isEmpty
  | dict fields => !fields.isEmpty

/-- `type(value).__name__`. -/
def typeName : Json → String
  | null => "NoneType"
  | bool _ => "bool"
  | int _ => "int"
  | float _ _ => "float"
  | str _ => "str"
  | list _ => "list"
  | dict _ => "dict"

variable (repr : Json → String)

/-- `str(value)`. -/
def text : Json → String
  | null => "None"
  | bool b => if b then "True" else "False"
  | int n => toString n
  | float text _ => text
  | str s => s
  | other => repr other

/-- What the exception that `int(value)` raises says. -/
def complaint (error : NumberError) (value : Json) : String :=
  match error,value with
  | .typeError,_ =>
    "int() argument must be a string, a bytes-like object or a real number, not '" ++ value.typeName ++ "'"
  | .valueError,float _ _ => "cannot convert float NaN to integer"
  | .valueError,_ => "invalid literal for int() with base 10: " ++ repr value
  | .overflowError,_ => "cannot convert float infinity to integer"

/-- `str(value or default)`. -/
def textOr (default : String) (value : Option Json) : String :=
  ((value.filter truthy).map (text repr)).getD default

/-- `str(fields.get(key, default))`. -/
def field (fields : List (String × Json)) (key default : String) : String :=
  ((fields.lookup key).map (text repr)).getD default

end Json
end Lib
