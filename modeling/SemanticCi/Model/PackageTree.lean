import SemanticCi.Library.Visitor
import SemanticCi.Python.Ast
import SemanticCi.Python.Path
import Mathlib.Data.List.Sort
import Mathlib.Data.String.Basic

/-! Package trees on disk: the Python files below a root directory, in the order in which the
extractors read them, and the names of their modules. -/

namespace SemanticCi.Extraction

open SemanticCi.Python SemanticCi.Python.Ast

/-- A name that a directory can hold. -/
def ValidPart (part : String) : Prop := part ≠ "" ∧ '/' ∉ part.toList

instance : DecidablePred ValidPart := fun _ => inferInstanceAs (Decidable (_ ∧ _))

/-- `*.py`. -/
def isPythonName (name : String) : Bool := ".py".toList.isSuffixOf name.toList

/-- The absolute path of a resolved directory, below `/`. -/
structure Root where
  parts : PurePath
  valid : ∀ part ∈ parts, ValidPart part

/-- A file with what `ast.parse` makes of its text. -/
structure SourceFile where
  path : PurePath
  tree : Node

/-- What `rglob("*.py")` finds below a directory in which no directory is itself called `*.py`.
Such a directory would be found too: the effects and the module graph raise on it, and the other
extractors read what lies below it once more. -/
structure PackageTree where
  files : List SourceFile
  valid : ∀ file ∈ files, ∀ part ∈ file.path, ValidPart part
  python : ∀ file ∈ files, isPythonName file.path.name
  directories : ∀ file ∈ files, ∀ part ∈ file.path.dropLast, isPythonName part = false
  distinct : (files.map (·.path)).Nodup

/-- `str(path)`. -/
def absoluteText (root : Root) (path : PurePath) : String :=
  "/" ++ PurePath.text (root.parts ++ path)

/-- `sorted(paths, key=lambda path: str(path.resolve()))`. -/
def sortPaths (root : Root) (files : List SourceFile) : List SourceFile :=
  files.insertionSort fun a b => absoluteText root a.path ≤ absoluteText root b.path

/-- `_python_paths_from_inputs` of the root itself. No path occurs twice. -/
def pythonPathsFromInputs (root : Root) (package : PackageTree) : List SourceFile :=
  sortPaths root (sortPaths root package.files)

/-- `_expand_python_paths` of files. -/
def expandPythonPaths (root : Root) (paths : List SourceFile) : List SourceFile :=
  sortPaths root (paths.filter fun file => file.path.suffix = ".py")

/-- The parts of a module's name, none for the `__init__.py` of the root. -/
def moduleParts (path : PurePath) : List String :=
  let parts := path.dropLast ++ [path.stem]
  if parts.getLast? = some "__init__" then parts.dropLast else parts

/-- `_module_fqn_from_path`. -/
def moduleFqnFromPath (root : Root) (path : PurePath) : String :=
  let parts := moduleParts path
  ".".intercalate (if parts = [] then [PurePath.name (root.parts ++ path.dropLast)] else parts)

/-- `_join_fqn`. -/
def joinFqn (parts : List String) : String := ".".intercalate (parts.filter (· ≠ ""))

/-! ## Module scope -/

/-- `tree.body`. -/
def moduleBody : Node → List Node
  | .module body => body
  | _ => []

/-- The nodes that run in module scope inside a compound statement, a handler or a case. -/
def blockNodes : Node → List Node
  | .ifStmt _ _ body orelse => body ++ orelse
  | .tryStmt _ _ body handlers orelse finalbody => body ++ handlers ++ orelse ++ finalbody
  | .exceptHandler _ _ _ body => body
  | .forLoop _ _ _ _ body orelse => body ++ orelse
  | .whileLoop _ _ body orelse => body ++ orelse
  | .withStmt _ _ _ body => body
  | .matchStmt _ _ cases => cases
  | .matchCase _ _ body => body
  | _ => []

theorem mem_children_of_mem_blockNodes {c n : Node} (h : c ∈ blockNodes n) : c ∈ n.children := by
  cases n <;> simp only [blockNodes, List.not_mem_nil] at h <;>
    simp only [Node.children, List.mem_append, List.mem_cons] at h ⊢ <;> tauto

/-- The recursion that the extractors share: what is recorded at a statement, then the
statements inside it that still run in module scope. -/
def moduleScope {α : Type} (here : Node → List α) : Visitor Unit Node α where
  here _ n := here n
  next _ n := (blockNodes n).map fun c => ((), c)
  descends := by
    intro _ n step hstep
    obtain ⟨c, hc, rfl⟩ := List.mem_map.mp hstep
    exact Node.sizeOf_lt_of_mem_children (mem_children_of_mem_blockNodes hc)

def scanModuleScope {α : Type} (here : Node → List α) (stmts : List Node) : List α :=
  stmts.flatMap ((moduleScope here).run ())

end SemanticCi.Extraction
