import SrxProbe.Lib.Dict
import SrxProbe.Lib.Json
import SrxProbe.Lib.Value

/-!
# JSON values

The text `json.dumps` prints for a value, and its reading by `json.loads`.
-/

namespace SrxProbe.Lib.Json

/-! ## Printing -/

/-- `floatstr`, of a float that prints as `text`. -/
def floatText (text : PyStr) : PyStr :=
  if text = "nan".toList then "NaN".toList
  else if text = "inf".toList then "Infinity".toList
  else if text = "-inf".toList then "-Infinity".toList
  else text

mutual

/-- `json.dumps(value)`. -/
def dumps : PyValue → PyStr
  | .none => "null".toList
  | .bool true => "true".toList
  | .bool false => "false".toList
  | .int n => intText n
  | .float text => floatText text
  | .str s => dumpsStr s
  | .list items => '[' :: [',', ' '].intercalate (dumpsItems items) ++ [']']
  | .dict entries => '{' :: [',', ' '].intercalate (dumpsEntries entries) ++ ['}']

def dumpsItems : List PyValue → List PyStr
  | [] => []
  | item :: items => dumps item :: dumpsItems items

def dumpsEntries : List (PyStr × PyValue) → List PyStr
  | [] => []
  | (key, value) :: entries => (dumpsStr key ++ ": ".toList ++ dumps value) :: dumpsEntries entries

end

/-! ## Reading -/

/-- `JSONDecodeError`. -/
def decodeError : PyErr := .stdValueError

/-- `RecursionError`. -/
def recursionError : PyErr := .other

/-- A scanner: the value at the front of a text, and what follows it. -/
abbrev Reader (α : Type) := PyStr → Except PyErr (α × PyStr)

/-- `WHITESPACE`. -/
def isWs (c : Char) : Bool := c = ' ' || c = '\t' || c = '\n' || c = '\r'

def skipWs (s : PyStr) : PyStr := s.dropWhile isWs

/-- The text up to the closing quote, and what follows the quote. -/
def spanString : PyStr → Option (PyStr × PyStr)
  | [] => none
  | '"' :: rest => some ([], rest)
  | '\\' :: c :: rest => (spanString rest).map fun (body, rest) => ('\\' :: c :: body, rest)
  | c :: rest => (spanString rest).map fun (body, rest) => (c :: body, rest)

/-- `scanstring`, behind the opening quote. -/
def readString : Reader PyStr := fun s => do
  let (body, rest) ← orRaise (spanString s) decodeError
  let text ← orRaise (loadsStr ('"' :: body ++ ['"'])) decodeError
  .ok (text, rest)

/-- A constant, behind its first letter. -/
def readConstant (letters : PyStr) (value : PyValue) : Reader PyValue := fun s =>
  if letters.isPrefixOf s then .ok (value, s.drop letters.length) else .error decodeError

/-- A run of digits, and what follows it. -/
def spanDigits (s : PyStr) : PyStr × PyStr :=
  (s.takeWhile IpAddress.isAsciiDigit, s.dropWhile IpAddress.isAsciiDigit)

/-- `0|[1-9][0-9]*`. -/
def spanWhole : PyStr → Option (PyStr × PyStr)
  | [] => none
  | c :: rest =>
      if c = '0' then some (['0'], rest)
      else if IpAddress.isAsciiDigit c then some (c :: (spanDigits rest).1, (spanDigits rest).2)
      else none

/-- `(\.[0-9]+)?`. -/
def spanFraction : PyStr → PyStr × PyStr
  | [] => ([], [])
  | c :: rest =>
      if c = '.' ∧ (spanDigits rest).1 ≠ [] then (c :: (spanDigits rest).1, (spanDigits rest).2)
      else ([], c :: rest)

/-- `[-+]?`. -/
def spanSign : PyStr → PyStr × PyStr
  | [] => ([], [])
  | c :: rest => if c = '-' ∨ c = '+' then ([c], rest) else ([], c :: rest)

/-- `([eE][-+]?[0-9]+)?`. -/
def spanExponent : PyStr → PyStr × PyStr
  | [] => ([], [])
  | c :: rest =>
      let sign := spanSign rest
      let digits := spanDigits sign.2
      if (c = 'e' ∨ c = 'E') ∧ digits.1 ≠ [] then (c :: sign.1 ++ digits.1, digits.2)
      else ([], c :: rest)

/-- A match of `NUMBER_RE`, with its groups. -/
structure NumberMatch where
  integer : PyStr
  fraction : PyStr
  exponent : PyStr
  deriving DecidableEq, Repr

/-- `NUMBER_RE`. -/
def matchNumber (s : PyStr) : Option (NumberMatch × PyStr) :=
  let sign := if s.head? = some '-' then ['-'] else []
  (spanWhole (s.drop sign.length)).map fun (whole, rest) =>
    let fraction := spanFraction rest
    let exponent := spanExponent fraction.2
    (⟨sign ++ whole, fraction.1, exponent.1⟩, exponent.2)

section

-- `floatRepr` is `repr(float(text))`.
variable (floatRepr : PyStr → PyStr)

/-- The value of a number. -/
def NumberMatch.value (m : NumberMatch) : Except PyErr PyValue :=
  if m.fraction ≠ [] ∨ m.exponent ≠ [] then
    .ok (.float (floatRepr (m.integer ++ m.fraction ++ m.exponent)))
  else (orRaise (parseInt m.integer) decodeError).map .int

/-- `_match_number`. -/
def readNumber : Reader PyValue := fun s => do
  let (m, rest) ← orRaise (matchNumber s) decodeError
  let value ← m.value floatRepr
  .ok (value, rest)

variable {α : Type} (item : Reader α) (close : Char)

/-- The items between the brackets, at least one. Each turn but the last takes a comma,
so there are fewer turns than characters. -/
def readItems : Nat → Reader (List α)
  | 0, _ => .error decodeError
  | turns + 1, s => do
      let (x, rest) ← item s
      match skipWs rest with
      | [] => .error decodeError
      | c :: rest =>
          if c = close then .ok ([x], rest)
          else if c = ',' then do
            let (xs, rest) ← readItems turns (skipWs rest)
            .ok (x :: xs, rest)
          else .error decodeError

/-- What stands between brackets, behind the opening one. -/
def readBlock : Reader (List α) := fun s =>
  match skipWs s with
  | [] => .error decodeError
  | c :: rest =>
      if c = close then .ok ([], rest) else readItems item close s.length (c :: rest)

/-- An entry of an object. -/
def readEntry (value : Reader PyValue) : Reader (PyStr × PyValue)
  | '"' :: s => do
      let (key, rest) ← readString s
      match skipWs rest with
      | ':' :: rest => do
          let (v, rest) ← value (skipWs rest)
          .ok ((key, v), rest)
      | _ => .error decodeError
  | _ => .error decodeError

/-- A value that is no list and no object. -/
def readAtom : Reader PyValue
  | [] => .error decodeError
  | c :: s =>
      if c = '"' then (readString s).map fun (text, rest) => (.str text, rest)
      else if c = 'n' then readConstant "ull".toList .none s
      else if c = 't' then readConstant "rue".toList (.bool true) s
      else if c = 'f' then readConstant "alse".toList (.bool false) s
      else if c = 'N' then readConstant "aN".toList (.float "nan".toList) s
      else if c = 'I' then readConstant "nfinity".toList (.float "inf".toList) s
      else if c = '-' ∧ s.head? = some 'I' then
        readConstant "Infinity".toList (.float "-inf".toList) s
      else readNumber floatRepr (c :: s)

/-- `scan_once`, `depth` calls below the recursion limit. -/
def readValue : Nat → Reader PyValue
  | _, [] => .error decodeError
  | 0, c :: s =>
      if c = '[' ∨ c = '{' then .error recursionError else readAtom floatRepr (c :: s)
  | depth + 1, c :: s =>
      if c = '[' then
        (readBlock (readValue depth) ']' s).map fun (items, rest) => (.list items, rest)
      else if c = '{' then
        (readBlock (readEntry (readValue depth)) '}' s).map fun (pairs, rest) =>
          (.dict (Dict.ofPairs pairs).entries, rest)
      else readAtom floatRepr (c :: s)

/-- `json.loads(text)`, under a recursion limit. -/
def loads (limit : Nat) (s : PyStr) : Except PyErr PyValue := do
  let (value, rest) ← readValue floatRepr limit (skipWs s)
  if skipWs rest = [] then .ok value else .error decodeError

end

end SrxProbe.Lib.Json
