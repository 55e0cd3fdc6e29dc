import SemanticCi.Library.Framing
import SemanticCi.Python.Path

/-! Characters and text as `str`, `int` and `re` see them. -/

namespace SemanticCi.Python

/-! ## Characters -/

/-- The zeros of the scripts that have decimal digits. The digits one to nine follow each. -/
def decimalZeros : List ℕ :=
  [0x30, 0x660, 0x6f0, 0x7c0, 0x966, 0x9e6, 0xa66, 0xae6, 0xb66, 0xbe6, 0xc66, 0xce6, 0xd66, 0xde6,
    0xe50, 0xed0, 0xf20, 0x1040, 0x1090, 0x17e0, 0x1810, 0x1946, 0x19d0, 0x1a80, 0x1a90, 0x1b50,
    0x1bb0, 0x1c40, 0x1c50, 0xa620, 0xa8d0, 0xa900, 0xa9d0, 0xa9f0, 0xaa50, 0xabf0, 0xff10, 0x104a0,
    0x10d30, 0x11066, 0x110f0, 0x11136, 0x111d0, 0x112f0, 0x11450, 0x114d0, 0x11650, 0x116c0,
    0x11730, 0x118e0, 0x11950, 0x11c50, 0x11d50, 0x11da0, 0x11f50, 0x16a60, 0x16ac0, 0x16b50,
    0x1d7ce, 0x1d7d8, 0x1d7e2, 0x1d7ec, 0x1d7f6, 0x1e140, 0x1e2f0, 0x1e4f0, 0x1e950, 0x1fbf0]

/-- The value of a character that `\d` matches. -/
def decimalDigit? (c : Char) : Option ℕ :=
  (decimalZeros.find? fun first => first ≤ c.toNat ∧ c.toNat < first + 10).map (c.toNat - ·)

def isDecimal (c : Char) : Bool := (decimalDigit? c).isSome

/-- The number that decimal digits spell. -/
def decimalValue (digits : List Char) : ℕ :=
  digits.foldl (fun value c => 10 * value + (decimalDigit? c).getD 0) 0

/-- `c.isspace()`, which is also `\s`. -/
def isSpace (c : Char) : Bool :=
  (9 ≤ c.toNat ∧ c.toNat ≤ 13) ∨ (28 ≤ c.toNat ∧ c.toNat ≤ 32) ∨
    (0x2000 ≤ c.toNat ∧ c.toNat ≤ 0x200a) ∨
    c.toNat ∈ [0x85, 0xa0, 0x1680, 0x2028, 0x2029, 0x202f, 0x205f, 0x3000]

/-- The ASCII letter that `c` matches under `re.IGNORECASE`, and any other character itself. -/
def ignoreCase (c : Char) : Char :=
  if c.toNat = 0x130 ∨ c.toNat = 0x131 then 'i'
  else if c.toNat = 0x17f then 's'
  else if c.toNat = 0x212a then 'k'
  else c.toLower

theorem exists_zero_of_isDecimal {c : Char} (h : isDecimal c) :
    ∃ first ∈ decimalZeros, ∃ digit < 10, c.toNat = first + digit := by
  rw [isDecimal, decimalDigit?, Option.isSome_map, List.find?_isSome] at h
  obtain ⟨first, hfirst, hc⟩ := h
  have hc := of_decide_eq_true hc
  exact ⟨first, hfirst, c.toNat - first, by omega, by omega⟩

theorem isSpace_of_isDecimal {c : Char} (h : isDecimal c) : isSpace c = false := by
  have hnone : ∀ first ∈ decimalZeros, ∀ digit < 10,
      ¬ ((9 ≤ first + digit ∧ first + digit ≤ 13) ∨ (28 ≤ first + digit ∧ first + digit ≤ 32) ∨
        (0x2000 ≤ first + digit ∧ first + digit ≤ 0x200a) ∨
        first + digit ∈ [0x85, 0xa0, 0x1680, 0x2028, 0x2029, 0x202f, 0x205f, 0x3000]) := by
    decide +kernel
  obtain ⟨first, hfirst, digit, hdigit, hc⟩ := exists_zero_of_isDecimal h
  rw [isSpace, hc]
  exact decide_eq_false (hnone first hfirst digit hdigit)

/-- No letter is a digit, whatever its case. -/
theorem ignoreCase_ne_of_isDecimal {c d : Char} (h : isDecimal c) (hd : d.isLower) :
    ignoreCase c ≠ d := by
  have hnone : ∀ first ∈ decimalZeros, ∀ digit < 10,
      first + digit ≠ 0x130 ∧ first + digit ≠ 0x131 ∧ first + digit ≠ 0x17f ∧
        first + digit ≠ 0x212a ∧ ¬ (65 ≤ first + digit ∧ first + digit ≤ 90) ∧
        ¬ (97 ≤ first + digit ∧ first + digit ≤ 122) := by
    decide +kernel
  obtain ⟨first, hfirst, digit, hdigit, hc⟩ := exists_zero_of_isDecimal h
  obtain ⟨h1, h2, h3, h4, hupper, hlower⟩ := hnone first hfirst digit hdigit
  rw [← hc] at h1 h2 h3 h4 hupper hlower
  have hself : ignoreCase c = c := by
    rw [ignoreCase, if_neg (by tauto), if_neg h3, if_neg h4]
    apply dif_neg
    simpa [UInt32.le_iff_toNat_le] using hupper
  rintro rfl
  rw [hself] at hd
  have hletter : (decide (c.val ≥ 97) && decide (c.val ≤ 122)) = true := hd
  apply hlower
  simpa [UInt32.le_iff_toNat_le] using hletter

/-! ## Text -/

/-- `text.strip()`. -/
def strip (text : String) : String :=
  String.ofList ((text.toList.dropWhile isSpace).reverse.dropWhile isSpace).reverse

/-- The blanks around a number that `int` and `float` ignore: not the separators of ASCII. -/
def isNumberSpace (c : Char) : Bool := isSpace c ∧ ¬ (28 ≤ c.toNat ∧ c.toNat ≤ 31)

/-- The text without the blanks around a number. -/
def stripNumber (text : String) : List Char :=
  ((text.toList.dropWhile isNumberSpace).reverse.dropWhile isNumberSpace).reverse

/-- `text.split(sep)`. -/
def splitOn (sep : Char) (text : String) : List String :=
  (text.toList.splitOn sep).map String.ofList

theorem splitOn_eq_iff (sep : Char) (text : String) (pieces : List String) :
    splitOn sep text = pieces ↔
      Framing.frame sep (pieces.map String.toList) = text.toList ++ [sep] ∧
        ∀ piece ∈ pieces, sep ∉ piece.toList := by
  have hchars : splitOn sep text = pieces ↔
      text.toList.splitOn sep = pieces.map String.toList := by
    constructor
    · rintro rfl
      simp [splitOn]
    · intro h
      simp [splitOn, h]
  rw [hchars, Framing.splitOn_eq_iff, List.forall_mem_map]

/-- What is left of a text behind a given beginning. -/
def dropBeginning (beginning text : List Char) : Option (List Char) :=
  if beginning.isPrefixOf text then some (text.drop beginning.length) else none

/-- What is left of a text behind a word of lower case ASCII letters, in any case. -/
def dropWord (word : String) (text : List Char) : Option (List Char) :=
  if (text.take word.length).map ignoreCase = word.toList then some (text.drop word.length)
  else none

end SemanticCi.Python
