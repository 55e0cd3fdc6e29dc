import Mathlib

/-! Python numbers: unbounded integers, binary64 floats with round-half-even
arithmetic, and their exact mixed comparison. -/

namespace SemanticCi.Python

/-- The exceptions that the modelled code can raise and catch. -/
inductive PyError where
  | typeError
  | overflowError
deriving DecidableEq, Repr

/-- `exc.__class__.__name__`. -/
def PyError.name : PyError → String
  | .typeError => "TypeError"
  | .overflowError => "OverflowError"

/-- A `float`. Finite values are kept exact; the sign of zero is not kept, as no
comparison sees it. -/
inductive PyFloat where
  | finite (d : Dyadic)
  | posInf
  | negInf
  | nan
deriving DecidableEq

/-- The quotient `a / b`, rounded to the nearest integer with ties to even. -/
def roundQuot (a b : ℕ) : ℕ :=
  let q := a / b
  let r := a % b
  if 2 * r < b then q
  else if b < 2 * r then q + 1
  else if q % 2 = 0 then q else q + 1

/-- `⌊log₂ (a / b)⌋` for positive `a` and `b`. -/
def log2Ratio (a b : ℕ) : ℤ :=
  let t : ℤ := (a.log2 : ℤ) - (b.log2 : ℤ)
  let small := if 0 ≤ t then a < b * 2 ^ t.toNat else a * 2 ^ (-t).toNat < b
  if small then t - 1 else t

/-- The binary64 value nearest to `± a / b`. -/
def roundRatio (negative : Bool) (a b : ℕ) : PyFloat :=
  if a = 0 then .finite 0
  else
    let e := max (log2Ratio a b - 52) (-1074)
    let m := if 0 ≤ e then roundQuot a (b * 2 ^ e.toNat) else roundQuot (a * 2 ^ (-e).toNat) b
    let value := Dyadic.ofIntWithPrec (if negative then -(m : ℤ) else m) (-e)
    if e + (m.log2 : ℤ) < 1024 ∨ m = 0 then .finite value
    else if negative then .negInf else .posInf

/-- The binary64 value nearest to an exact dyadic. -/
def roundDyadic : Dyadic → PyFloat
  | .zero => .finite 0
  | .ofOdd n k _ =>
      if 0 ≤ k then roundRatio (n < 0) n.natAbs (2 ^ k.toNat)
      else roundRatio (n < 0) (n.natAbs * 2 ^ (-k).toNat) 1

/-- `float.__add__`. -/
def PyFloat.add : PyFloat → PyFloat → PyFloat
  | .finite a, .finite b => roundDyadic (a + b)
  | .nan, _ | _, .nan => .nan
  | .posInf, .negInf | .negInf, .posInf => .nan
  | .posInf, _ | _, .posInf => .posInf
  | .negInf, _ | _, .negInf => .negInf

/-- `float.__neg__`. -/
def PyFloat.neg : PyFloat → PyFloat
  | .finite a => .finite (-a)
  | .posInf => .negInf
  | .negInf => .posInf
  | .nan => .nan

/-- `float.__sub__`. -/
def PyFloat.sub (a b : PyFloat) : PyFloat := a.add b.neg

/-- A number that is not a `bool`: what `_is_number` accepts. -/
inductive PyNum where
  | int (i : ℤ)
  | float (f : PyFloat)
deriving DecidableEq

/-- The float that an arithmetic operation with another float sees. An integer out
of the binary64 range raises `OverflowError`. -/
def PyNum.toFloat : PyNum → Except PyError PyFloat
  | .int i =>
      match roundRatio (i < 0) i.natAbs 1 with
      | .finite d => .ok (.finite d)
      | _ => .error .overflowError
  | .float f => .ok f

/-- `number + float`. -/
def PyNum.addFloat (x : PyNum) (t : PyFloat) : Except PyError PyNum := do
  return .float ((← x.toFloat).add t)

/-- `number - float`. -/
def PyNum.subFloat (x : PyNum) (t : PyFloat) : Except PyError PyNum := do
  return .float ((← x.toFloat).sub t)

/-- The exact value a comparison works on. -/
def PyNum.value : PyNum → PyFloat
  | .int i => .finite (Dyadic.ofInt i)
  | .float f => f

/-- `x < y`, exact also between an integer and a float. -/
def PyNum.lt (x y : PyNum) : Bool :=
  match x.value, y.value with
  | .finite a, .finite b => a < b
  | .nan, _ | _, .nan => false
  | .negInf, .negInf | .posInf, _ | _, .negInf => false
  | .negInf, _ | _, .posInf => true

/-- `x <= y`, exact also between an integer and a float. -/
def PyNum.le (x y : PyNum) : Bool :=
  match x.value, y.value with
  | .finite a, .finite b => a ≤ b
  | .nan, _ | _, .nan => false
  | .negInf, _ | _, .posInf => true
  | .posInf, _ | _, .negInf => false

/-- `x == y`. -/
def PyNum.eq (x y : PyNum) : Bool :=
  match x.value, y.value with
  | .nan, _ | _, .nan => false
  | a, b => a = b

@[simp] theorem PyNum.value_int (i : ℤ) : (PyNum.int i).value = .finite (Dyadic.ofInt i) := rfl

@[simp] theorem PyNum.value_float (f : PyFloat) : (PyNum.float f).value = f := rfl

/-! ## `repr` of a float -/

/-- The number of decimal digits of `n`. -/
private def decimalLength (n : ℕ) : ℕ := (toString n).length

/-- `⌊log₁₀ (a / b)⌋` for positive `a` and `b`. -/
private def log10Ratio (a b : ℕ) : ℤ :=
  let t : ℤ := (decimalLength a : ℤ) - (decimalLength b : ℤ)
  let small := if 0 ≤ t then a < b * 10 ^ t.toNat else a * 10 ^ (-t).toNat < b
  if small then t - 1 else t

/-- The first of `p, p + 1, ...` significant digits that read back as `± a / b`,
with the digits and the power of ten of the last one. -/
private def shortestDigits (a b : ℕ) (target : PyFloat) : ℕ → ℕ → ℕ × ℤ
  | 0, _ => (0, 0)
  | fuel + 1, p =>
      let e := log10Ratio a b - ((p : ℤ) - 1)
      let m := if 0 ≤ e then roundQuot a (b * 10 ^ e.toNat) else roundQuot (a * 10 ^ (-e).toNat) b
      let back := if 0 ≤ e then roundRatio false (m * 10 ^ e.toNat) 1
        else roundRatio false m (10 ^ (-e).toNat)
      if back = target then (m, e) else shortestDigits a b target fuel (p + 1)

private def stripZeros : ℕ → ℕ → ℤ → ℕ × ℤ
  | 0, m, e => (m, e)
  | fuel + 1, m, e => if m ≠ 0 ∧ m % 10 = 0 then stripZeros fuel (m / 10) (e + 1) else (m, e)

private def zeros (n : ℕ) : String := String.ofList (List.replicate n '0')

/-- Layout of the digits `m · 10 ^ e` as Python prints them. -/
private def layoutDigits (m : ℕ) (e : ℤ) : String :=
  let digits := toString m
  let count := digits.length
  let point : ℤ := count + e
  if point ≤ -4 ∨ 16 < point then
    let x := point - 1
    let body := String.ofList (digits.toList.take 1) ++
      (if count = 1 then "" else "." ++ String.ofList (digits.toList.drop 1))
    let magnitude := toString x.natAbs
    body ++ "e" ++ (if x < 0 then "-" else "+") ++ zeros (2 - magnitude.length) ++ magnitude
  else if point ≤ 0 then "0." ++ zeros (-point).toNat ++ digits
  else if (count : ℤ) ≤ point then digits ++ zeros (point.toNat - count) ++ ".0"
  else String.ofList (digits.toList.take point.toNat) ++ "." ++
    String.ofList (digits.toList.drop point.toNat)

/-- `repr(float)`: the shortest digits that read back as the same value. -/
def PyFloat.repr : PyFloat → String
  | .posInf => "inf"
  | .negInf => "-inf"
  | .nan => "nan"
  | .finite .zero => "0.0"
  | .finite (.ofOdd n k _) =>
      let (a, b) := if 0 ≤ k then (n.natAbs, 2 ^ k.toNat) else (n.natAbs * 2 ^ (-k).toNat, 1)
      let (m, e) := shortestDigits a b (roundRatio false a b) 17 1
      let (m, e) := stripZeros 17 m e
      (if n < 0 then "-" else "") ++ layoutDigits m e

end SemanticCi.Python
