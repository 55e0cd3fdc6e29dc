import SemanticCi.Model.CodeStatePipeline
import SemanticCi.Model.ExtractConfig

/-! The extraction of a code state as it is called (`pipeline/python_code_state.py`, without a
timeout): some paths are excluded, some dimensions left out, and a path may fail to be read. -/

namespace SemanticCi.Extraction

open SemanticCi.Python SemanticCi.Python.Ast SemanticCi.StateSchema

/-! ## Directories -/

/-- The path lies below the directory. -/
def isInside (directory path : PurePath) : Bool := directory.isPrefixOf path ∧ directory ≠ path

/-- What `rglob("*.py")` finds below a package root: files, and directories of such a name. -/
structure DiskLayout where
  files : List PurePath
  directories : List PurePath
  valid : ∀ path ∈ files ++ directories, ∀ part ∈ path, ValidPart part
  python : ∀ path ∈ files ++ directories, isPythonName path.name
  distinct : (files ++ directories).Nodup
  above : ∀ path ∈ files ++ directories, ∀ front,
    isInside front path → isPythonName front.name → front ∈ directories

/-- An exception of `read_text` or `ast.parse`, with its `filename`. -/
structure ReadError where
  filename : Option String

/-- A package on disk, with what `ast.parse` makes of the text of every file. -/
structure DiskTree extends DiskLayout where
  contents : PurePath → Except ReadError Node

/-- `sorted(paths, key=lambda path: str(path.resolve()))`. -/
def sortPurePaths (root : Root) (paths : List PurePath) : List PurePath :=
  paths.insertionSort fun a b => absoluteText root a ≤ absoluteText root b

namespace DiskLayout

/-- `root.rglob("*.py")`. -/
def found (layout : DiskLayout) : List PurePath := layout.files ++ layout.directories

/-- `_python_paths_from_inputs` of the root itself. No path occurs twice. -/
def pythonPaths (root : Root) (layout : DiskLayout) : List PurePath :=
  sortPurePaths root (sortPurePaths root layout.found)

/-- What one path stands for: a directory for all that is found below it. -/
def expandPath (layout : DiskLayout) (path : PurePath) : List PurePath :=
  if path ∈ layout.directories then layout.found.filter (isInside path)
  else if path.suffix = ".py" then [path]
  else []

/-- `_expand_python_paths`. -/
def expandPaths (root : Root) (layout : DiskLayout) (paths : List PurePath) : List PurePath :=
  sortPurePaths root (paths.flatMap layout.expandPath)

end DiskLayout

/-- `read_text`, then `ast.parse`. A directory cannot be read. -/
def DiskTree.read (disk : DiskTree) (root : Root) (path : PurePath) :
    Except ReadError SourceFile :=
  if path ∈ disk.directories then .error ⟨some (absoluteText root path)⟩
  else do return ⟨path, ← disk.contents path⟩

structure ExtractorError where
  extractorName : String
  path : Option String

/-- `_run_extractor`. -/
def runExtractor {α : Type} (extractorName : String) (path : Option String)
    (action : Except ReadError α) : Except ExtractorError α :=
  match action with
  | .ok value => .ok value
  | .error exc =>
    .error ⟨extractorName, path.orElse fun _ => exc.filename.filter fun name => name ≠ ""⟩

/-! ## Dimensions -/

/-- `_should_extract`. -/
def shouldExtract (dimension : String) (dimensions : Option (Finset String)) : Bool :=
  match dimensions with
  | none => true
  | some dimensions => dimension ∈ dimensions

/-- `extract_dimension`. -/
def extractDimension {α : Type} (dimensions : Option (Finset String)) (dimension : String)
    (action : Except ExtractorError (List α)) : Except ExtractorError (List α) :=
  if shouldExtract dimension dimensions then action else .ok []

section Dimensions

variable (root : Root) (disk : DiskTree) (paths : List PurePath)

/-- An extractor that expands its paths again and reads all of them. -/
def extractPaths {α : Type} (extractorName : String) (extractor : List SourceFile → List α) :
    Except ExtractorError (List α) :=
  runExtractor extractorName none do
    let files ← (disk.expandPaths root paths).mapM (disk.read root)
    return extractor files

/-- `_extract_api_surface`. -/
def extractApiSurface (lib : Stdlib) : Except ExtractorError (List APISurfaceEntry) :=
  extractPaths root disk paths "api_surface" (apiSurfaceOfFiles lib root)

/-- `_extract_imports`. -/
def extractImports : Except ExtractorError (List ImportEntry) :=
  extractPaths root disk paths "imports" importsOfFiles

/-- `_extract_complexity`. -/
def extractComplexity : Except ExtractorError (List ComplexityEntry) :=
  extractPaths root disk paths "complexity" (complexityOfFiles root)

/-- `_extract_test_surface`. -/
def extractTestSurface : Except ExtractorError (List TestSurfaceEntry) :=
  extractPaths root disk paths "test_surface" testSurfaceOfFiles

/-- `_extract_effects`: every path is read as it is, and the error names it. -/
def extractReadEffects (db : List EffectSignature) : Except ExtractorError (List EffectEntry) := do
  let entries ← paths.mapM fun path =>
    let filename := absoluteText root path
    runExtractor "effects" (some filename) do
      let file ← disk.read root path
      return extractPythonEffects db filename (moduleFqnFromPath root path) file.tree
  return entries.flatten

/-- `_discover_module_paths`. -/
def discoverModulePaths (config : Option ExtractConfig) : List PurePath :=
  (filterExcludedPaths root (sortPurePaths root disk.found) config).1

/-- `_extract_module_graph`. -/
def extractModuleGraph (config : Option ExtractConfig) :
    Except ExtractorError (List ModuleGraphEntry) :=
  runExtractor "module_graph" (some (absoluteText root [])) do
    let files ← (discoverModulePaths root disk config).mapM (disk.read root)
    return moduleGraphOfFiles root files

/-- `_assemble_code_state`. -/
def assembleCodeState (lib : Stdlib) (db : List EffectSignature)
    (dimensions : Option (Finset String)) (config : Option ExtractConfig) :
    Except ExtractorError CodeState := do
  let apiSurface ← extractDimension dimensions "api_surface"
    (extractApiSurface root disk paths lib)
  let effects ← extractDimension dimensions "effects" (extractReadEffects root disk paths db)
  let imports ← extractDimension dimensions "imports" (extractImports root disk paths)
  let complexity ← extractDimension dimensions "complexity" (extractComplexity root disk paths)
  let testSurface ← extractDimension dimensions "test_surface"
    (extractTestSurface root disk paths)
  let moduleGraph ← extractDimension dimensions "module_graph"
    (extractModuleGraph root disk config)
  return { apiSurface, effects, imports, complexity, testSurface, moduleGraph }

end Dimensions

/-- `extract_python_code_state_result`. -/
def extractPythonCodeStateResult (lib : Stdlib) (db : List EffectSignature) (root : Root)
    (disk : DiskTree) (dimensions : Option (Finset String)) (config : Option ExtractConfig) :
    Except ExtractorError CodeState :=
  let kept := (filterExcludedPaths root (disk.pythonPaths root) config).1
  assembleCodeState root disk kept lib db dimensions config

end SemanticCi.Extraction
