import SemanticCi.Model.GitDiff
import SemanticCi.Model.StateSchema
import Mathlib.Data.Prod.Lex

/-! The git side of a delta (`cli/delta_overlay.py`): how the numstat of a diff is laid over the
computed delta. -/

namespace SemanticCi.DeltaOverlay

open SemanticCi.Python SemanticCi.StateSchema SemanticCi.GitDiff

def overlayDelta (delta : CodeStateDelta) (filesTouched : ℤ) (locDelta : LocDelta)
    (renames : List RenameEntry) : CodeStateDelta :=
  { delta with filesTouched := filesTouched, locDelta := locDelta, renames := renames }

def summarizeNumstat (entries : List NumstatEntry) : ℤ × LocDelta :=
  let textual := entries.filter fun entry => !entry.isBinary
  (entries.length,
    { added := (textual.map (·.added)).sum, removed := (textual.map (·.removed)).sum })

/-- `_posix_path`. -/
def posixPath (path : FilePath) : String :=
  String.ofList (path.text.toList.map fun c => if c = '\\' then '/' else c)

/-- The rename that an entry records. -/
def renameOf (entry : NumstatEntry) : Option RenameEntry :=
  if entry.isRename then
    entry.oldPath.map fun oldPath => ⟨posixPath oldPath, posixPath entry.path⟩
  else none

def renamesFromNumstat (entries : List NumstatEntry) : List RenameEntry :=
  (entries.filterMap renameOf).insertionSort fun a b =>
    toLex (a.oldPath, a.newPath) ≤ toLex (b.oldPath, b.newPath)

/-- What `check` does with the numstat of the diff. -/
def overlayNumstat (delta : CodeStateDelta) (entries : List NumstatEntry) : CodeStateDelta :=
  let (filesTouched, locDelta) := summarizeNumstat entries
  overlayDelta delta filesTouched locDelta (renamesFromNumstat entries)

/-- An entry read from what git prints: counts without a sign, relative paths. -/
structure PrintedEntry extends NumstatEntry where
  added_nonneg : 0 ≤ added
  removed_nonneg : 0 ≤ removed
  path_relative : path.root = ""
  oldPath_relative : ∀ old ∈ oldPath, old.root = ""

def numstatOf (entries : List PrintedEntry) : List NumstatEntry :=
  entries.map PrintedEntry.toNumstatEntry

end SemanticCi.DeltaOverlay
