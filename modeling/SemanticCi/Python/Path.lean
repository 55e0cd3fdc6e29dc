import Mathlib.Data.List.Basic
import Mathlib.Data.String.Basic

/-! Relative POSIX paths and substring search. -/

namespace SemanticCi.Python

/-- A relative `Path`, split into its parts. -/
abbrev PurePath := List String

instance : LawfulBEq PurePath := inferInstance

namespace PurePath

def name (path : PurePath) : String := path.getLastD ""

/-- The characters of a name before and after its last dot, when both are there. -/
def splitSuffix (name : String) : Option (List Char × List Char) :=
  let chars := name.toList
  let extension := (chars.reverse.takeWhile (· ≠ '.')).reverse
  let front := chars.take (chars.length - extension.length - 1)
  if '.' ∈ chars ∧ front ≠ [] ∧ extension ≠ [] then some (front, extension) else none

/-- `path.suffix`: the last dot must be neither the first nor the last character. -/
def suffix (path : PurePath) : String :=
  match splitSuffix path.name with
  | some (_, extension) => String.ofList ('.' :: extension)
  | none => ""

/-- `path.stem`. -/
def stem (path : PurePath) : String :=
  match splitSuffix path.name with
  | some (front, _) => String.ofList front
  | none => path.name

/-- `str(path)`. -/
def text (path : PurePath) : String := if path = [] then "." else "/".intercalate path

end PurePath

/-- `needle in text`. -/
def hasSubstring (needle text : String) : Bool :=
  text.toList.tails.any fun rest => needle.toList.isPrefixOf rest

end SemanticCi.Python
