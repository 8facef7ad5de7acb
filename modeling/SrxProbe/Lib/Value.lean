import SrxProbe.Lib.Text

/-!
# Dynamic values

The values that JSON text is read to and that command-line tokens are converted to.
A function that checks the type of what it is given takes one of these.
-/

namespace SrxProbe.Lib

/-- A built-in value. Floats are kept by the text they print as. -/
inductive PyValue
  | none
  | bool (b : Bool)
  | int (n : Int)
  | float (text : PyStr)
  | str (s : PyStr)
  | list (items : List PyValue)
  | dict (entries : List (PyStr × PyValue))

namespace PyValue

/-- `isinstance(value, str)`, with the text. -/
def str? : PyValue → Option PyStr
  | str s => some s
  | _ => Option.none

/-- `bool(value)`. -/
def truthy : PyValue → Bool
  | none => false
  | bool b => b
  | int n => n ≠ 0
  | float text => text ∉ ["0.0".toList, "-0.0".toList]
  | str s => s ≠ []
  | list items => !items.isEmpty
  | dict entries => !entries.isEmpty

/-- `str(value)`, of a value without parts. -/
def text? : PyValue → Option PyStr
  | none => some "None".toList
  | bool b => some (if b then "True".toList else "False".toList)
  | int n => some (intText n)
  | float text => some text
  | str s => some s
  | list _ => Option.none
  | dict _ => Option.none

/-- The value can be looked up in a set. -/
def hashable : PyValue → Bool
  | list _ => false
  | dict _ => false
  | _ => true

/-- `value == ""`. -/
def isEmptyStr : PyValue → Bool
  | str [] => true
  | _ => false

/-- `value == text`. -/
def isStr (text : PyStr) : PyValue → Bool
  | str s => s = text
  | _ => false

end PyValue

end SrxProbe.Lib
