import AmigaFleet.Lib.Json
import Mathlib.Algebra.Group.Nat.Defs
import Mathlib.Algebra.Group.Int.Defs

/-! What Python's `for`, `in`, `float` and dictionary keys make of the values of a
document of any shape. -/
namespace AmigaFleet.Orchard
open Lib

inductive Raised where
  | typeError
  | keyError
  | valueError
  | overflowError
  | recursionError
  deriving DecidableEq

/-- What `json.loads` raises. A number of too many digits is a plain `ValueError`. -/
inductive LoadError where
  | decodeError
  | valueError
  | recursionError
  deriving DecidableEq

def LoadError.raised : LoadError → Raised
  | .decodeError | .valueError => .valueError
  | .recursionError => .recursionError

/-- A float: its value where it is finite, else the text that it prints as. -/
inductive Coordinate where
  | finite (x : ℚ)
  | other (text : String)
  deriving DecidableEq

structure Point where
  lat : Coordinate
  lon : Coordinate
  deriving DecidableEq

/-- The nearest number of 53 bits, ties to even. -/
def rounded (n : Nat) : Nat :=
  let unit := 2^(n.log2 - 52)
  let low := n / unit
  let up := unit < 2*(n % unit) ∨ unit = 2*(n % unit) ∧ low % 2 = 1
  (if up then low + 1 else low) * unit

/-- Where the doubles end. -/
def doubleEnd : Nat := 2^1024

/-- `float(n)`. -/
def double (n : Int) : Except Raised Coordinate :=
  if rounded n.natAbs < doubleEnd then .ok (.finite (n.sign * (rounded n.natAbs : Int) : Int))
  else .error .overflowError

/-- `isinstance(value, int)`, and the number. -/
def asInt : Json → Option Int
  | .bool b => some b.toInt
  | .int n => some n
  | _ => none

/-- `isinstance(value, (int, float))`. -/
def isNumber : Json → Bool
  | .bool _ | .int _ | .float _ _ => true
  | .null | .str _ | .list _ | .dict _ => false

/-- `float(value)` of a number, and what a subtraction from it makes of any value. -/
def toDouble : Json → Except Raised Coordinate
  | .bool b => .ok (.finite b.toInt)
  | .int n => double n
  | .float _ (some x) => .ok (.finite x)
  | .float text none => .ok (.other text)
  | .null | .str _ | .list _ | .dict _ => .error .typeError

/-- What `for x in value` goes through. -/
def members : Json → Except Raised (List Json)
  | .list items => .ok items
  | .dict fields => .ok (fields.map (fun f => .str f.1))
  | .str s => .ok (s.toList.map (fun c => .str (String.singleton c)))
  | .null | .bool _ | .int _ | .float _ _ => .error .typeError

/-- `value or []`. -/
def orEmpty (value : Option Json) : Json := (value.filter Json.truthy).getD (.list [])

/-- `key in value`. -/
def holds (key : String) : Json → Except Raised Bool
  | .dict fields => .ok (fields.any (fun f => f.1 = key))
  | .list items => .ok (items.any (fun item => match item with | .str s => s = key | _ => false))
  | .str s => .ok (Text.contains s key)
  | .null | .bool _ | .int _ | .float _ _ => .error .typeError

/-- The integer that a dictionary takes a key for. -/
def asKey : Json → Except Raised (Option Int)
  | .bool b => .ok (some b.toInt)
  | .int n => .ok (some n)
  | .float _ (some x) => .ok (if x.den = 1 then some x.num else none)
  | .float _ none | .null | .str _ => .ok none
  | .list _ | .dict _ => .error .typeError

/-- `int(text)`. A text of more than 4300 digits is refused. -/
def readInt (text : String) : Option Int :=
  if 4300 < text.toList.countP (fun c => (Text.digit c).isSome) then none else Text.int text

/-- Whether a `for` can go through the value. -/
def Iterable : Json → Prop
  | .list _ | .dict _ | .str _ => True
  | .null | .bool _ | .int _ | .float _ _ => False

theorem members_ok_iff (value : Json) : (∃ items, members value = .ok items) ↔ Iterable value := by
  cases value <;> simp [members,Iterable]

/-- Whether the value fits a double, where it is a number. -/
def Fits (value : Json) : Prop :=
  match value with
  | .int n => rounded n.natAbs < doubleEnd
  | _ => True

theorem toDouble_ok_iff (value : Json) : (∃ x, toDouble value = .ok x) ↔ isNumber value = true ∧ Fits value := by
  cases value with
  | null | bool | str | list | dict => simp [toDouble,isNumber,Fits]
  | int n =>
    simp only [toDouble,double,isNumber,Fits,true_and]
    split
    · simp [*]
    · simp [*]
  | float text x => cases x <;> simp [toDouble,isNumber,Fits]

/-- Whether the value can be looked up in a dictionary. -/
def Hashable : Json → Prop
  | .list _ | .dict _ => False
  | .null | .bool _ | .int _ | .float _ _ | .str _ => True

theorem asKey_ok_iff (value : Json) : (∃ key, asKey value = .ok key) ↔ Hashable value := by
  cases value with
  | null | bool | int | str | list | dict => simp [asKey,Hashable]
  | float text x => cases x <;> simp [asKey,Hashable]

theorem holds_ok_iff (key : String) (value : Json) : (∃ answer, holds key value = .ok answer) ↔ Iterable value := by
  cases value <;> simp [holds,Iterable]

theorem orEmpty_list (items : List Json) : orEmpty (some (.list items)) = .list items := by
  cases items <;> rfl

end AmigaFleet.Orchard
