import SemanticCi.Python.FilePath
import SemanticCi.Python.Loads

/-! How the numstat of a diff is read (`cli/git_diff.py`). -/

namespace SemanticCi.GitDiff

open SemanticCi.Python

/-- One record of `git diff --numstat`. `int` takes a sign, so a count may be negative. -/
structure NumstatEntry where
  added : ℤ
  removed : ℤ
  path : FilePath
  oldPath : Option FilePath := none
  isBinary : Bool := false
  isRename : Bool := false
deriving DecidableEq

/-- The text of a `ValueError`. -/
structure ValueError where
  text : String
deriving DecidableEq

def malformedCounts (addedRaw removedRaw : String) : ValueError :=
  ⟨s!"malformed git numstat counts: {strRepr addedRaw}, {strRepr removedRaw}"⟩

/-- `_parse_counts`. -/
def parseCounts (addedRaw removedRaw : String) : Except ValueError (ℤ × ℤ × Bool) :=
  if addedRaw = "-" ∧ removedRaw = "-" then .ok (0, 0, true)
  else if addedRaw = "-" ∨ removedRaw = "-" then .error (malformedCounts addedRaw removedRaw)
  else
    match intOfText addedRaw, intOfText removedRaw with
    | some added, some removed => .ok (added, removed, false)
    | _, _ => .error (malformedCounts addedRaw removedRaw)

/-- The counts of a record, and the path behind them. -/
def parseHeader (header : String) : Except ValueError ((ℤ × ℤ × Bool) × String) :=
  match splitOn '\t' header with
  | [addedRaw, removedRaw, pathRaw] => do return (← parseCounts addedRaw removedRaw, pathRaw)
  | _ => .error ⟨s!"malformed git numstat record: {strRepr header}"⟩

/-- The loop of `parse_numstat`. -/
def parseFields : List String → Except ValueError (List NumstatEntry)
  | [] => .ok []
  | header :: rest => do
      let ((added, removed, isBinary), pathRaw) ← parseHeader header
      if pathRaw = "" then
        match rest with
        | oldPath :: newPath :: rest =>
            if oldPath = "" ∨ newPath = "" then
              .error ⟨"malformed git numstat rename path"⟩
            else
              return { added, removed, path := .ofText newPath, oldPath := some (.ofText oldPath),
                       isBinary, isRename := true } :: (← parseFields rest)
        | _ => .error ⟨"malformed git numstat rename record"⟩
      else return { added, removed, path := .ofText pathRaw, isBinary } :: (← parseFields rest)

/-- The fields of a numstat: the empty one behind the last separator is none. -/
def numstatFields (stdout : String) : List String :=
  let fields := splitOn '\x00' stdout
  if fields.getLast? = some "" then fields.dropLast else fields

def parseNumstat (stdout : String) : Except ValueError (List NumstatEntry) :=
  if stdout = "" then .ok [] else parseFields (numstatFields stdout)

end SemanticCi.GitDiff
