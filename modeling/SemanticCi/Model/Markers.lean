import SemanticCi.Python.Loads
import Mathlib.Data.Prod.Lex
import Mathlib.Data.List.Lex

/-! Environment markers of lock files: the comparison of versions and the evaluation of a
marker expression. -/

namespace SemanticCi.Markers

open SemanticCi.Python

/-! ## Versions -/

/-- The rest of a release behind the digits in `part`: more digits, and parts behind dots. -/
def releaseParts (part : List Char) : List Char → List (List Char) × List Char
  | [] => ([part], [])
  | c :: rest =>
      if isDecimal c then releaseParts (part ++ [c]) rest
      else if c = '.' ∧ rest.head?.any isDecimal then
        let (parts, tail) := releaseParts [] rest
        (part :: parts, tail)
      else ([part], c :: rest)

/-- `\d+(?:\.\d+)*`. -/
def matchRelease (text : List Char) : Option (List (List Char) × List Char) :=
  if text.head?.any isDecimal then some (releaseParts [] text) else none

/-- The labels of a pre-release in the order in which the pattern tries them. -/
def preLabels : List (String × ℕ) :=
  [("a", 0), ("alpha", 0), ("b", 1), ("beta", 1), ("rc", 2), ("c", 2), ("pre", 2), ("preview", 2)]

/-- An optional pre-release, as what its label stands for and its digits. -/
def matchPre {α : Type} (labels : List (String × α)) (text : List Char) :
    Option (α × List Char) × List Char :=
  match labels.findSome? fun label => (dropWord label.1 text).map (label.2, ·) with
  | some (label, rest) => (some (label, rest.takeWhile isDecimal), rest.dropWhile isDecimal)
  | none => (none, text)

/-- `(?:\.?word(\d+))?`. -/
def matchNumbered (word : String) (text : List Char) : Option (List Char) × List Char :=
  match dropWord word (if text.head? = some '.' then text.drop 1 else text) with
  | some rest =>
      if rest.head?.any isDecimal then
        (some (rest.takeWhile isDecimal), rest.dropWhile isDecimal)
      else (none, text)
  | none => (none, text)

/-- `^\s*v?`. -/
def dropVersionStart (text : List Char) : List Char :=
  let text := text.dropWhile isSpace
  (dropWord "v" text).getD text

/-- `int(digits)`, `none` for the `ValueError` of too many of them. -/
def intOfDigits (digits : List Char) : Option ℕ :=
  if digits.length ≤ maxIntDigits then some (decimalValue digits) else none

/-- What stands for the parts behind the release, `none` for a `ValueError`. -/
def versionPhase (pre : Option (ℕ × List Char)) (post dev : Option (List Char)) :
    Option (ℤ ×ₗ ℕ ×ₗ ℕ) :=
  match pre, post, dev with
  | none, _, some devN => (intOfDigits devN).map fun n => toLex (-1, toLex (0, n))
  | some (preRank, preN), _, _ => (intOfDigits preN).map fun n => toLex (0, toLex (preRank, n))
  | none, some postN, none => (intOfDigits postN).map fun n => toLex (2, toLex (0, n))
  | none, none, none => some (toLex (1, toLex (0, 0)))

/-- `_pep440ish_version`, `none` for a `ValueError`. The pattern has no end, so what follows a
version is ignored. -/
def pep440ishVersion (value : String) : Option (Option (List ℕ × (ℤ ×ₗ ℕ ×ₗ ℕ))) :=
  match matchRelease (dropVersionStart value.toList) with
  | none => some none
  | some (parts, text) => do
      let (pre, text) := matchPre preLabels text
      let (post, text) := matchNumbered "post" text
      let (dev, _) := matchNumbered "dev" text
      return some (← parts.mapM intOfDigits, ← versionPhase pre post dev)

/-- `(left > right) - (left < right)`. -/
def threeWay {α : Type} [LT α] [DecidableLT α] (left right : α) : ℤ :=
  (if right < left then 1 else 0) - (if left < right then 1 else 0)

def padRelease (release : List ℕ) (width : ℕ) : List ℕ :=
  release ++ List.replicate (width - release.length) 0

/-- Two versions: their padded releases, and what stands for the parts behind them. -/
def comparePadded (left right : List ℕ × (ℤ ×ₗ ℕ ×ₗ ℕ)) : ℤ :=
  let width := max left.1.length right.1.length
  let paddedLeft := padRelease left.1 width
  let paddedRight := padRelease right.1 width
  if paddedLeft ≠ paddedRight then threeWay paddedLeft paddedRight
  else threeWay left.2 right.2

/-- `_compare_marker_versions`, `none` for a `ValueError`. -/
def compareMarkerVersions (left right : String) : Option ℤ := do
  match ← pep440ishVersion left, ← pep440ishVersion right with
  | some leftVersion, some rightVersion => return comparePadded leftVersion rightVersion
  | _, _ => return threeWay left right

/-- `_version_wildcard_matches`. -/
def versionWildcardMatches (pattern value : String) : Bool :=
  let chars := pattern.toList
  let front := chars.take (chars.length - 2)
  if chars.drop front.length = ['.', '*'] ∧ (matchRelease front).any fun found => found.2 = [] then
    value.toList = front ∨ (front ++ ['.']).isPrefixOf value.toList
  else false

/-- `_marker_values_equal`. -/
def markerValuesEqual (left right : String) : Bool :=
  left = right || versionWildcardMatches left right || versionWildcardMatches right left

/-! ## Expressions -/

/-- The comparison operators of Python. -/
inductive CompareOp where
  | eq
  | notEq
  | lt
  | ltE
  | gt
  | gtE
  | is
  | isNot
  | in
  | notIn
deriving DecidableEq

/-- `_compare_marker_values`, `none` for a `ValueError`: of a number with too many digits, or of an
operator that markers lack. -/
def compareMarkerValues (left : String) (op : CompareOp) (right : String) : Option Bool :=
  match op with
  | .eq => some (markerValuesEqual left right)
  | .notEq => some (!markerValuesEqual left right)
  | .in => some (hasSubstring left right)
  | .notIn => some (!hasSubstring left right)
  | .lt => (compareMarkerVersions left right).map fun order => order < 0
  | .ltE => (compareMarkerVersions left right).map fun order => order ≤ 0
  | .gt => (compareMarkerVersions left right).map fun order => order > 0
  | .gtE => (compareMarkerVersions left right).map fun order => order ≥ 0
  | .is | .isNot => none

/-- The part of a parsed expression that markers use. -/
inductive MarkerNode where
  | boolOp (isAnd : Bool) (values : List MarkerNode)
  | compare (left : MarkerNode) (rest : List (CompareOp × MarkerNode))
  | name (id : String)
  | constant (text : String)
  | other

/-- What a marker sees of the running Python. -/
structure Platform where
  /-- `ast.parse(text, mode="eval").body`, `none` for a `SyntaxError` or a `ValueError`. -/
  parse : String → Option MarkerNode
  /-- `_marker_environment`. -/
  environment : List (String × String)
  /-- `text.lower()`. -/
  lower : String → String

section Evaluation

variable (platform : Platform)

/-- `_eval_marker_value`. -/
def evalMarkerValue : MarkerNode → Option String
  | .name id => (platform.environment.find? fun entry => entry.1 = id).map Prod.snd
  | .constant text => some text
  | _ => none

/-- The loop over the operators of one comparison. It stops at the first that fails. -/
def evalComparison (left : String) : List (CompareOp × MarkerNode) → Option Bool
  | [] => some true
  | (op, comparator) :: rest => do
      let right ← evalMarkerValue platform comparator
      if ← compareMarkerValues left op right then evalComparison right rest else some false

mutual

/-- `_eval_marker_node`. All operands of `and` and `or` are evaluated. -/
def evalMarkerNode : MarkerNode → Option Bool
  | .boolOp isAnd values =>
      (evalMarkerNodes values).map fun values => if isAnd then values.all id else values.any id
  | .compare left rest => do evalComparison platform (← evalMarkerValue platform left) rest
  | _ => none

def evalMarkerNodes : List MarkerNode → Option (List Bool)
  | [] => some []
  | value :: values => do
      let result ← evalMarkerNode value
      let results ← evalMarkerNodes values
      some (result :: results)

end

end Evaluation

/-! ## Marker syntax that Python lacks -/

/-- `re.sub(r"\s+===\s+", " == ", marker)`, for texts of at most `size` characters. -/
def replaceArbitraryEquality (size : ℕ) (text : List Char) : List Char :=
  match size, text with
  | 0, _ | _, [] => text
  | size + 1, c :: rest =>
      match dropBeginning "===".toList (text.dropWhile isSpace) with
      | some tail =>
          if isSpace c ∧ tail.head?.any isSpace then
            " == ".toList ++ replaceArbitraryEquality size (tail.dropWhile isSpace)
          else c :: replaceArbitraryEquality size rest
      | none => c :: replaceArbitraryEquality size rest

/-- `_compatible_release_wildcard`. -/
def compatibleReleaseWildcard (version : List Char) : List Char :=
  let parts := version.splitOn '.'
  (if parts.length ≤ 2 then parts.headD [] else ['.'].intercalate parts.dropLast) ++ ['.', '*']

/-- `_compatible_release_replacement`. -/
def compatibleReleaseReplacement (name : List Char) (quote : Char) (version : List Char) :
    List Char :=
  "(".toList ++ name ++ " >= ".toList ++ [quote] ++ version ++ [quote] ++ " and ".toList ++ name ++
    " == ".toList ++ [quote] ++ compatibleReleaseWildcard version ++ [quote] ++ ")".toList

/-- A compatible release clause at the start of a text, with what follows it. -/
def matchCompatibleRelease (text : List Char) : Option (List Char × List Char) := do
  let name := text.takeWhile fun c => c.isAlphanum ∨ c = '_'
  if text.head?.any fun c => c.isAlpha ∨ c = '_' then
    let tail ← dropBeginning "~=".toList ((text.drop name.length).dropWhile isSpace)
    match tail.dropWhile isSpace with
    | [] => none
    | quote :: quoted =>
        let version := quoted.takeWhile fun c => c ≠ '\'' ∧ c ≠ '"'
        if quote ∈ ['\'', '"'] ∧ version ≠ [] ∧ (quoted.drop version.length).head? = some quote then
          some (compatibleReleaseReplacement name quote version, quoted.drop (version.length + 1))
        else none
  else none

/-- The second substitution of `_normalize_pep508_marker_syntax`. -/
def replaceCompatibleRelease (size : ℕ) (text : List Char) : List Char :=
  match size, text with
  | 0, _ | _, [] => text
  | size + 1, c :: rest =>
      match matchCompatibleRelease text with
      | some (replacement, tail) => replacement ++ replaceCompatibleRelease size tail
      | none => c :: replaceCompatibleRelease size rest

def normalizePep508MarkerSyntax (marker : String) : String :=
  let text := replaceArbitraryEquality marker.length marker.toList
  String.ofList (replaceCompatibleRelease text.length text)

/-- `_evaluate_marker`, `none` for a `SyntaxError` or a `ValueError`. -/
def evaluateMarker (platform : Platform) (marker : String) : Option Bool := do
  evalMarkerNode platform (← platform.parse (normalizePep508MarkerSyntax marker))

end SemanticCi.Markers
