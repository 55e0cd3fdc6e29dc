import SemanticCi.Python.Number
import SemanticCi.Python.Path
import Mathlib.Data.Finset.Basic
import Mathlib.Data.List.Sort
import Mathlib.Data.String.Basic

/-! Python values as they occur in a target literal, in a code state and in the
evidence of a result, with the equality that `==`, `in` and hashing use. -/

namespace SemanticCi.Python

/-- The hashable atoms. `other` stands for the YAML scalars that are not JSON (dates,
timestamps and bytes), which only compare with their own kind. -/
inductive PyScalar where
  | none
  | bool (b : Bool)
  | int (i : ℤ)
  | float (f : PyFloat)
  | str (s : String)
  | other (kind text : String)
deriving DecidableEq

/-- The three sequence types in play. A `CanonicalMapping` is a tuple of pairs that
remembers that it was a `dict`. -/
inductive SeqKind where
  | list
  | tuple
  | canonicalMapping
deriving DecidableEq

inductive PyValue where
  | scalar (s : PyScalar)
  | seq (kind : SeqKind) (items : List PyValue)
  | dict (items : List (PyScalar × PyValue))
  | set (items : List PyScalar)

namespace PyValue

abbrev none : PyValue := .scalar .none
abbrev bool (b : Bool) : PyValue := .scalar (.bool b)
abbrev int (i : ℤ) : PyValue := .scalar (.int i)
abbrev float (f : PyFloat) : PyValue := .scalar (.float f)
abbrev str (s : String) : PyValue := .scalar (.str s)
abbrev list (items : List PyValue) : PyValue := .seq .list items
abbrev tuple (items : List PyValue) : PyValue := .seq .tuple items

/-- A number in the sense of `isinstance(value, Real) and not isinstance(value, bool)`. -/
def asNumber? : PyValue → Option PyNum
  | .scalar (.int i) => some (.int i)
  | .scalar (.float f) => some (.float f)
  | _ => Option.none

/-- `isinstance(value, list | tuple)`. -/
def isListOrTuple : PyValue → Bool
  | .seq .. => true
  | _ => false

end PyValue

/-! ## Equality

Equality crosses the number types (`True == 1 == 1.0`), and a `CanonicalMapping` equals
the plain tuple of its pairs. Both are read off a normal form. -/

inductive NormScalar where
  | none
  | num (value : PyFloat)
  | str (s : String)
  | other (kind text : String)
deriving DecidableEq

inductive Norm where
  | scalar (s : NormScalar)
  | tuple (items : List Norm)
  | set (items : Finset NormScalar)

mutual

def Norm.decEq : (a b : Norm) → Decidable (a = b)
  | .scalar s, .scalar t =>
      if h : s = t then isTrue (by rw [h]) else isFalse (by intro hc; cases hc; exact h rfl)
  | .tuple xs, .tuple ys =>
      match Norm.decEqList xs ys with
      | isTrue h => isTrue (by rw [h])
      | isFalse h => isFalse (by intro hc; cases hc; exact h rfl)
  | .set s, .set t =>
      if h : s = t then isTrue (by rw [h]) else isFalse (by intro hc; cases hc; exact h rfl)
  | .scalar _, .tuple _ => isFalse (by intro h; cases h)
  | .scalar _, .set _ => isFalse (by intro h; cases h)
  | .tuple _, .scalar _ => isFalse (by intro h; cases h)
  | .tuple _, .set _ => isFalse (by intro h; cases h)
  | .set _, .scalar _ => isFalse (by intro h; cases h)
  | .set _, .tuple _ => isFalse (by intro h; cases h)

def Norm.decEqList : (xs ys : List Norm) → Decidable (xs = ys)
  | [], [] => isTrue rfl
  | [], _ :: _ => isFalse (by intro h; cases h)
  | _ :: _, [] => isFalse (by intro h; cases h)
  | x :: xs, y :: ys =>
      match Norm.decEq x y, Norm.decEqList xs ys with
      | isTrue hx, isTrue hs => isTrue (by rw [hx, hs])
      | isFalse hx, _ => isFalse (by intro hc; cases hc; exact hx rfl)
      | _, isFalse hs => isFalse (by intro hc; cases hc; exact hs rfl)

end

instance : DecidableEq Norm := Norm.decEq

def PyScalar.norm : PyScalar → NormScalar
  | .none => .none
  | .bool b => .num (.finite (if b then 1 else 0))
  | .int i => .num (.finite (Dyadic.ofInt i))
  | .float f => .num f
  | .str s => .str s
  | .other kind text => .other kind text

mutual

/-- The normal form that decides equality. A raw `dict` never reaches a comparison. -/
def PyValue.norm : PyValue → Norm
  | .scalar s => .scalar s.norm
  | .seq _ items => .tuple (PyValue.normList items)
  | .dict items => .tuple (PyValue.normPairs items)
  | .set items => .set (items.map PyScalar.norm).toFinset

def PyValue.normList : List PyValue → List Norm
  | [] => []
  | x :: xs => x.norm :: PyValue.normList xs

def PyValue.normPairs : List (PyScalar × PyValue) → List Norm
  | [] => []
  | (k, v) :: rest => .tuple [.scalar k.norm, v.norm] :: PyValue.normPairs rest

end

@[simp] theorem PyValue.normList_eq_map (xs : List PyValue) :
    PyValue.normList xs = xs.map PyValue.norm := by
  induction xs with
  | nil => rfl
  | cons x xs ih => simp [PyValue.normList, ih]

/-- Python equality of canonical values, which for the members of one container is also
identity-or-equality: YAML builds a single `nan` object. -/
def PyValue.eq (a b : PyValue) : Bool := decide (a.norm = b.norm)

@[simp] theorem PyValue.eq_iff (a b : PyValue) : a.eq b = true ↔ a.norm = b.norm := by
  simp [PyValue.eq]

@[simp] theorem PyValue.eq_eq_false_iff (a b : PyValue) : a.eq b = false ↔ a.norm ≠ b.norm := by
  simp [PyValue.eq]

/-- `value in items`. -/
def PyValue.elem (x : PyValue) (items : List PyValue) : Bool := items.any fun y => x.eq y

theorem PyValue.elem_iff (x : PyValue) (items : List PyValue) :
    x.elem items = true ↔ ∃ y ∈ items, x.norm = y.norm := by
  simp [PyValue.elem]

/-! ## Sorting by key -/

/-- The groups of atoms that `<` compares; across groups, and on `None`, it raises. -/
inductive OrderClass where
  | none
  | number
  | str
  | other (kind : String)
deriving DecidableEq

def PyScalar.orderClass : PyScalar → OrderClass
  | .none => .none
  | .bool _ | .int _ | .float _ => .number
  | .str _ => .str
  | .other kind _ => .other kind

/-- `a <= b` inside one order class. -/
def PyScalar.le : PyScalar → PyScalar → Bool
  | .str s, .str t => s ≤ t
  | .other _ s, .other _ t => s ≤ t
  | a, b =>
      match a.norm, b.norm with
      | .num x, .num y => (PyNum.float x).le (.float y)
      | _, _ => true

/-- `sorted(mapping.items())`. Keys of a mapping are distinct, so only they are compared;
any two of different order classes make the sort raise. -/
def sortByKey {α : Type} (items : List (PyScalar × α)) : Except PyError (List (PyScalar × α)) :=
  match items with
  | [] | [_] => .ok items
  | (k, _) :: rest =>
      if k.orderClass ≠ .none ∧ ∀ item ∈ rest, item.1.orderClass = k.orderClass then
        .ok (items.insertionSort fun a b => a.1.le b.1 = true)
      else .error .typeError

/-! ## `repr` -/

private def hexDigit (n : ℕ) : Char := "0123456789abcdef".toList.getD n '0'

/-- One character inside a quoted `repr`. Characters beyond Latin-1 count as printable. -/
private def escapeChar (quote c : Char) : List Char :=
  if c = '\\' ∨ c = quote then ['\\', c]
  else if c = '\n' then ['\\', 'n']
  else if c = '\r' then ['\\', 'r']
  else if c = '\t' then ['\\', 't']
  else if c.toNat < 32 ∨ (127 ≤ c.toNat ∧ c.toNat ≤ 160) ∨ c.toNat = 173 then
    ['\\', 'x', hexDigit (c.toNat / 16), hexDigit (c.toNat % 16)]
  else [c]

/-- `repr(str)`. -/
def strRepr (s : String) : String :=
  let quote := if s.toList.contains '\'' ∧ ¬ s.toList.contains '"' then '"' else '\''
  String.ofList (quote :: s.toList.flatMap (escapeChar quote) ++ [quote])

def PyScalar.repr : PyScalar → String
  | .none => "None"
  | .bool b => if b then "True" else "False"
  | .int i => toString i
  | .float f => f.repr
  | .str s => strRepr s
  | .other _ text => text

/-- `str(key)`. -/
def keyText : PyScalar → String
  | .str s => s
  | key => key.repr

/-- A text, or `None`. -/
def optionalText : Option String → PyValue
  | some text => .str text
  | none => .none

mutual

/-- `repr(value)`. The order inside a `set`, which Python leaves to hashing, is kept as
it was written. -/
def PyValue.repr : PyValue → String
  | .scalar s => s.repr
  | .seq .list items => "[" ++ ", ".intercalate (PyValue.reprList items) ++ "]"
  | .seq _ [x] => "(" ++ x.repr ++ ",)"
  | .seq _ items => "(" ++ ", ".intercalate (PyValue.reprList items) ++ ")"
  | .dict items => "\x7b" ++ ", ".intercalate (PyValue.reprPairs items) ++ "\x7d"
  | .set items => "\x7b" ++ ", ".intercalate (items.map PyScalar.repr) ++ "\x7d"

def PyValue.reprList : List PyValue → List String
  | [] => []
  | x :: xs => x.repr :: PyValue.reprList xs

def PyValue.reprPairs : List (PyScalar × PyValue) → List String
  | [] => []
  | (k, v) :: rest => (k.repr ++ ": " ++ v.repr) :: PyValue.reprPairs rest

end

/-! ## JSON values -/

/-- What the open fields of a code state hold: `JsonValue`. -/
inductive JsonValue where
  | null
  | bool (b : Bool)
  | int (i : ℤ)
  | float (d : Dyadic)
  | str (s : String)
  | array (items : List JsonValue)
  | object (items : List (String × JsonValue))

/-- `dict[str, JsonValue]`. -/
abbrev JsonMapping := List (String × JsonValue)

namespace JsonValue

/-- `mapping.get(key)`, with `none` for an absent key. -/
def get? (items : JsonMapping) (key : String) : Option JsonValue :=
  (items.find? fun item => item.1 = key).map Prod.snd

def ofOption {α : Type} (f : α → JsonValue) : Option α → JsonValue
  | Option.none => .null
  | some a => f a

def strings (items : List String) : JsonValue := .array (items.map .str)

mutual

def toPy : JsonValue → PyValue
  | .null => .none
  | .bool b => .bool b
  | .int i => .int i
  | .float d => .float (.finite d)
  | .str s => .str s
  | .array items => .list (toPyList items)
  | .object items => .dict (toPyPairs items)

def toPyList : List JsonValue → List PyValue
  | [] => []
  | x :: xs => x.toPy :: toPyList xs

def toPyPairs : List (String × JsonValue) → List (PyScalar × PyValue)
  | [] => []
  | (k, v) :: rest => (.str k, v.toPy) :: toPyPairs rest

end

end JsonValue

end SemanticCi.Python
