import Mathlib.Algebra.Order.Field.Rat
import Mathlib.Data.List.Sort
import Mathlib.Data.Prod.Lex
import Mathlib.Data.String.Basic

/-! `difflib.get_close_matches` on texts. -/

namespace SemanticCi.Python.Difflib

/-- A part of both texts that is still to be searched. -/
structure Window where
  alo : ℕ
  ahi : ℕ
  blo : ℕ
  bhi : ℕ

/-- Where a common block starts in both texts, and its size. -/
structure Block where
  a : ℕ
  b : ℕ
  size : ℕ

section Matcher

variable (a b : List Char)

/-- `b2j`. In a text of two hundred characters or more, those that come up too often are left
out. -/
def indices (c : Char) : List ℕ :=
  let found := (List.range b.length).filter fun j => b[j]? = some c
  if 200 ≤ b.length ∧ b.length / 100 + 1 < found.length then [] else found

/-- One turn of the loop over `a`: the lengths of the matches that end there, and the best. -/
def matchRow (w : Window) (state : List (ℕ × ℕ) × Block) (i : ℕ) : List (ℕ × ℕ) × Block :=
  let found := (a[i]?.map (indices b)).getD []
  let row := (found.filter fun j => w.blo ≤ j ∧ j < w.bhi).map fun j =>
    (j, (if j = 0 then 0 else (state.1.lookup (j - 1)).getD 0) + 1)
  (row, row.foldl (fun best entry =>
    if best.size < entry.2 then ⟨i + 1 - entry.2, entry.1 + 1 - entry.2, entry.2⟩ else best)
    state.2)

/-- The characters in front of a block that agree, in at most `steps` steps. -/
def extendBack (w : Window) : ℕ → Block → Block
  | 0, block => block
  | steps + 1, block =>
      if w.alo < block.a ∧ w.blo < block.b ∧ a[block.a - 1]? = b[block.b - 1]? then
        extendBack w steps ⟨block.a - 1, block.b - 1, block.size + 1⟩
      else block

/-- The characters behind a block that agree, in at most `steps` steps. -/
def extendOn (w : Window) : ℕ → Block → Block
  | 0, block => block
  | steps + 1, block =>
      if block.a + block.size < w.ahi ∧ block.b + block.size < w.bhi ∧
          a[block.a + block.size]? = b[block.b + block.size]? then
        extendOn w steps ⟨block.a, block.b, block.size + 1⟩
      else block

/-- `find_longest_match`. -/
def findLongestMatch (w : Window) : Block :=
  let best := ((List.range' w.alo (w.ahi - w.alo)).foldl (matchRow a b w)
    ([], ⟨w.alo, w.blo, 0⟩)).2
  extendOn a b w a.length (extendBack a b w a.length best)

/-- The sizes of `get_matching_blocks`, summed up: on both sides of the longest match the search
goes on. -/
def matchedSize : ℕ → Window → ℕ
  | 0, _ => 0
  | fuel + 1, w =>
      let block := findLongestMatch a b w
      if block.size = 0 then 0
      else
        let front := if w.alo < block.a ∧ w.blo < block.b then
          matchedSize fuel ⟨w.alo, block.a, w.blo, block.b⟩ else 0
        let back := if block.a + block.size < w.ahi ∧ block.b + block.size < w.bhi then
          matchedSize fuel ⟨block.a + block.size, w.ahi, block.b + block.size, w.bhi⟩ else 0
        front + block.size + back

/-- `ratio()`. The `float` of it compares as the fraction does. -/
def ratio : ℚ :=
  if a.length + b.length = 0 then 1
  else 2 * matchedSize a b a.length ⟨0, a.length, 0, b.length⟩ / (a.length + b.length : ℕ)

end Matcher

/-- `get_close_matches`. The quick ratios that it tries first are upper bounds of the ratio. -/
def getCloseMatches (word : String) (possibilities : List String) (n : ℕ) (cutoff : ℚ) :
    List String :=
  let scored := (possibilities.map fun x => (ratio x.toList word.toList, x)).filter fun found =>
    cutoff ≤ found.1
  ((scored.insertionSort fun p q => toLex q ≤ toLex p).take n).map Prod.snd

/-- How the close matches end a message, if there are any. -/
def didYouMean (suggestions : List String) : String :=
  if suggestions = [] then "" else " Did you mean: " ++ ", ".intercalate suggestions ++ "?"

theorem mem_of_mem_getCloseMatches {word : String} {possibilities : List String} {n : ℕ}
    {cutoff : ℚ} {x : String} (h : x ∈ getCloseMatches word possibilities n cutoff) :
    x ∈ possibilities := by
  obtain ⟨found, hfound, rfl⟩ := List.mem_map.mp h
  have hscored := (List.mem_insertionSort _).mp (List.mem_of_mem_take hfound)
  obtain ⟨y, hy, rfl⟩ := List.mem_map.mp (List.mem_filter.mp hscored).1
  exact hy

example : getCloseMatches "fqns" ["fqn", "kind", "visibility"] 3 (2 / 5) = ["fqn"] := by
  decide +kernel

end SemanticCi.Python.Difflib
