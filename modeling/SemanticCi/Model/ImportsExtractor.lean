import SemanticCi.Library.OrderedDict
import SemanticCi.Model.PackageTree
import SemanticCi.Model.StateSchema
import Mathlib.Data.Prod.Lex

/-! The imports of a module and the graph of the modules of a package
(`imports/python_imports_extractor.py`, `module_graph/python_module_graph_extractor.py`). -/

namespace SemanticCi.Extraction

open SemanticCi.Python SemanticCi.Python.Ast SemanticCi.StateSchema OrderedDict

/-! ## Imports -/

/-- `_iter_module_scope_imports`. -/
def iterModuleScopeImports (stmts : List Node) : List Node :=
  scanModuleScope (fun
    | stmt@(.importStmt ..) => [stmt]
    | stmt@(.importFrom ..) => [stmt]
    | _ => []) stmts

/-- `_entries_for_import` and `_entry_for_import_from`. -/
def importEntries : Node → List ImportEntry
  | .importStmt _ names => names.map fun item => { module := item.name }
  | .importFrom _ module names level =>
    [{ module := module.getD ""
       from_ := if level = 0 then none else some (String.ofList (List.replicate level '.'))
       symbols := (names.map (·.name)).insertionSort fun a b => a ≤ b }]
  | _ => []

def importSortKey (entry : ImportEntry) : String ×ₗ String ×ₗ List String :=
  toLex (entry.from_.getD "", toLex (entry.module, entry.symbols))

/-- `_stable_entries`. -/
def stableImportEntries (entries : List ImportEntry) : List ImportEntry :=
  (indexBy id entries).values.insertionSort fun a b => importSortKey a ≤ importSortKey b

/-- `extract_python_imports`. -/
def extractPythonImports (tree : Node) : List ImportEntry :=
  stableImportEntries ((iterModuleScopeImports (moduleBody tree)).flatMap importEntries)

/-- The loop of `extract_python_imports_from_paths`. -/
def importsOfFiles (files : List SourceFile) : List ImportEntry :=
  stableImportEntries (files.flatMap fun file => extractPythonImports file.tree)

/-- `extract_python_imports_from_paths`. -/
def extractPythonImportsFromPaths (root : Root) (paths : List SourceFile) : List ImportEntry :=
  importsOfFiles (expandPythonPaths root paths)

/-! ## The module graph -/

/-- `text.split(".")`. -/
def splitDots (text : String) : List String := (text.toList.splitOn '.').map String.ofList

/-- `text.rpartition(".")[0]`. -/
def beforeLastDot (text : String) : String :=
  String.ofList ((text.toList.reverse.dropWhile (· ≠ '.')).drop 1).reverse

/-- `_containing_package`. -/
def containingPackage (importer : String) (packageModules : List String) : String :=
  if importer ∈ packageModules then importer else beforeLastDot importer

/-- `_candidate_base`. -/
def candidateBase (importer : String) (entry : ImportEntry) (packageModules : List String) :
    Option String :=
  match entry.from_ with
  | none => some entry.module
  | some dots =>
    let package := containingPackage importer packageModules
    let parts := splitDots package
    let ascents := dots.length - 1
    if package = "" ∨ (parts.length ≤ ascents ∧ 0 < ascents) then none
    else
      let parts := parts.take (parts.length - ascents)
      some (".".intercalate
        (if entry.module = "" then parts else parts ++ splitDots entry.module))

/-- `_join_module`. -/
def joinModule (base symbol : String) : String :=
  if base = "" then symbol else base ++ "." ++ symbol

/-- `_resolve_internal_modules`. -/
def resolveInternalModules (importer : String) (entry : ImportEntry)
    (known packageModules : List String) : List String :=
  match candidateBase importer entry packageModules with
  | none => []
  | some base =>
    let symbols := entry.symbols.filter (· ≠ "*")
    (base :: symbols.map (joinModule base)).filter (· ∈ known)

/-- The modules that a package has, and those with an `__init__.py` of their own. -/
def moduleNames (root : Root) (files : List SourceFile) : List String :=
  files.map fun file => moduleFqnFromPath root file.path

def packageModules (root : Root) (files : List SourceFile) : List String :=
  moduleNames root (files.filter fun file => file.path.name = "__init__.py")

/-- `forward[importer]`, over all files that bear the name. -/
def forwardEdges (root : Root) (files : List SourceFile) (importer : String) : List String :=
  let importing := files.filter fun file => moduleFqnFromPath root file.path = importer
  let candidates := importing.flatMap fun file =>
    (extractPythonImports file.tree).flatMap fun entry =>
      resolveInternalModules importer entry (moduleNames root files) (packageModules root files)
  (candidates.filter (· ≠ importer)).dedup

/-- `extract_python_module_graph`, after the discovery of the files. -/
def moduleGraphOfFiles (root : Root) (files : List SourceFile) : List ModuleGraphEntry :=
  let known := (moduleNames root files).dedup
  (known.insertionSort fun a b => a ≤ b).map fun module =>
    let importers := known.filter fun importer => module ∈ forwardEdges root files importer
    { module := module
      imports := (forwardEdges root files module).insertionSort fun a b => a ≤ b
      importedBy := importers.insertionSort fun a b => a ≤ b }

/-- `extract_python_module_graph`. -/
def extractPythonModuleGraph (root : Root) (package : PackageTree) : List ModuleGraphEntry :=
  moduleGraphOfFiles root (sortPaths root package.files)

end SemanticCi.Extraction
