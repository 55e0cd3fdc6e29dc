import SemanticCi.Python.Text
import SemanticCi.Python.Value

/-! What `json.loads` returns, and the numbers that `float` and `int` read from a text. -/

namespace SemanticCi.Python

/-! ## Loaded values -/

/-- A number beyond the range of floats is loaded as infinity. -/
inductive LoadedValue where
  | null
  | bool (b : Bool)
  | int (i : ℤ)
  | float (f : PyFloat)
  | str (text : String)
  | array (items : List LoadedValue)
  | object (items : List (String × LoadedValue))

abbrev LoadedObject := List (String × LoadedValue)

def LoadedObject.get? (items : LoadedObject) (key : String) : Option LoadedValue :=
  (items.find? fun item => item.1 = key).map Prod.snd

namespace LoadedValue

/-- `bool(value)`. -/
def truthy : LoadedValue → Bool
  | .null => false
  | .bool b => b
  | .int i => i ≠ 0
  | .float f => f ≠ .finite 0
  | .str text => text ≠ ""
  | .array items => !items.isEmpty
  | .object items => !items.isEmpty

mutual

def toPy : LoadedValue → PyValue
  | .null => .none
  | .bool b => .bool b
  | .int i => .int i
  | .float f => .float f
  | .str text => .str text
  | .array items => .list (toPyList items)
  | .object items => .dict (toPyPairs items)

def toPyList : List LoadedValue → List PyValue
  | [] => []
  | x :: xs => x.toPy :: toPyList xs

def toPyPairs : LoadedObject → List (PyScalar × PyValue)
  | [] => []
  | (k, v) :: rest => (.str k, v.toPy) :: toPyPairs rest

end

/-- `str(value)`. -/
def text : LoadedValue → String
  | .str text => text
  | value => value.toPy.repr

/-- The members of an array that are objects. -/
def objects (items : List LoadedValue) : List LoadedObject :=
  items.filterMap fun item =>
    match item with
    | .object fields => some fields
    | _ => none

end LoadedValue

/-! ## `float(text)` -/

/-- Digits of all scripts as ASCII digits. -/
def asciiDigits (text : List Char) : List Char :=
  text.map fun c => (decimalDigit? c).elim c fun digit => Char.ofNat (48 + digit)

/-- The text without its underscores, each of which must stand between two digits. -/
def dropUnderscores : Option Char → List Char → Option (List Char)
  | last, [] => if last = some '_' then none else some []
  | last, c :: rest =>
      if c = '_' then if last.any Char.isDigit then dropUnderscores (some '_') rest else none
      else if last = some '_' ∧ ¬ c.isDigit then none
      else (dropUnderscores (some c) rest).map (c :: ·)

/-- A number with an optional sign in front. -/
def readSigned {α : Type} (read : Bool → List Char → Option α) : List Char → Option α
  | '-' :: rest => read true rest
  | '+' :: rest => read false rest
  | text => read false text

/-- The exponent behind a mantissa, zero when there is none. -/
def readExponent : List Char → Option ℤ
  | [] => some 0
  | c :: rest =>
      if c = 'e' ∨ c = 'E' then
        readSigned (fun negative digits =>
          if digits ≠ [] ∧ digits.all Char.isDigit then
            some (if negative then -(decimalValue digits : ℤ) else decimalValue digits)
          else none) rest
      else none

/-- `floatnumber` without its sign. -/
def readMagnitude (negative : Bool) (text : List Char) : Option PyFloat :=
  let word := String.ofList (text.map Char.toLower)
  if word ∈ ["inf", "infinity"] then some (if negative then .negInf else .posInf)
  else if word = "nan" then some .nan
  else
    let whole := text.takeWhile Char.isDigit
    let rest := text.drop whole.length
    let fraction := if rest.head? = some '.' then (rest.drop 1).takeWhile Char.isDigit else []
    let rest := if rest.head? = some '.' then rest.drop (fraction.length + 1) else rest
    if whole = [] ∧ fraction = [] then none
    else (readExponent rest).map fun exponent =>
      let mantissa := decimalValue (whole ++ fraction)
      let exponent : ℤ := exponent - fraction.length
      if 0 ≤ exponent then roundRatio negative (mantissa * 10 ^ exponent.toNat) 1
      else roundRatio negative mantissa (10 ^ (-exponent).toNat)

/-- `float(text)`, `none` for a `ValueError`. -/
def floatOfText (text : String) : Option PyFloat :=
  (dropUnderscores none (asciiDigits (stripNumber text))).bind (readSigned readMagnitude)

/-! ## `int(text)` -/

/-- `sys.get_int_max_str_digits()`. -/
def maxIntDigits : ℕ := 4300

/-- A decimal integer without its sign. -/
def readDigits (negative : Bool) (digits : List Char) : Option ℤ :=
  if digits ≠ [] ∧ digits.all Char.isDigit ∧ digits.length ≤ maxIntDigits then
    some (if negative then -(decimalValue digits : ℤ) else decimalValue digits)
  else none

/-- `int(text)`, `none` for a `ValueError`. -/
def intOfText (text : String) : Option ℤ :=
  (dropUnderscores none (asciiDigits (stripNumber text))).bind (readSigned readDigits)

end SemanticCi.Python
