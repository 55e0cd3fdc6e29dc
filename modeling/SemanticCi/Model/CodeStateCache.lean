import Mathlib.Data.Finset.Sort
import Mathlib.Data.String.Basic
import SemanticCi.Library.Framing
import SemanticCi.Library.OrderedDict
import SemanticCi.Library.Worklist

/-! `cli/code_state_cache.py`: the source fingerprints of the extractors and the key under
which an extracted code state is stored. -/

namespace SemanticCi.CodeStateCache

abbrev Bytes := List UInt8

/-- `text.encode("utf-8")`. -/
def utf8 (text : String) : Bytes := text.toByteArray.data.toList

inductive Dimension
  | apiSurface
  | effects
  | imports
  | complexity
  | testSurface
  | moduleGraph
deriving DecidableEq, Repr

namespace Dimension

def value : Dimension → String
  | apiSurface => "api_surface"
  | effects => "effects"
  | imports => "imports"
  | complexity => "complexity"
  | testSurface => "test_surface"
  | moduleGraph => "module_graph"

def all : List Dimension :=
  [apiSurface, effects, imports, complexity, testSurface, moduleGraph]

end Dimension

/-- `_EXTRACTOR_SOURCE_MAP`. -/
def extractorSourceMap : Dimension → List String
  | .apiSurface => ["api_surface/"]
  | .effects => ["effects/"]
  | .imports => ["imports/"]
  | .complexity => ["complexity/"]
  | .testSurface => ["test_surface/"]
  | .moduleGraph => ["module_graph/"]

/-- `_COMMON_EXTRACTOR_DEPS`. -/
def commonExtractorDeps : List String :=
  ["pipeline/python_code_state.py", "domain/state_schema.py"]

/-! ## The engine's own files -/

/-- `Path(raw).as_posix()`: a trailing slash goes. -/
def asPosix (raw : String) : String :=
  String.ofList (raw.toList.reverse.dropWhile (· = '/')).reverse

/-- The file lies somewhere below the directory. -/
def isBelow (directory path : String) : Bool :=
  (asPosix directory ++ "/").toList.isPrefixOf path.toList

/-- The pattern `*.py`. -/
def isPythonFile (path : String) : Bool :=
  ".py".toList.isSuffixOf path.toList

/-- The Python files that the import of `pipeline/python_code_state.py` executes. A package
stands for its `__init__.py`. -/
inductive EngineModule
  | root
  | apiSurface
  | pythonApiExtractor
  | complexity
  | pythonComplexityExtractor
  | domain
  | stateSchema
  | effects
  | effectDb
  | pythonEffectExtractor
  | framework
  | constraintTypes
  | extractConfig
  | securityPolicy
  | targetSvp
  | imports
  | pythonImportsExtractor
  | moduleGraph
  | pythonModuleGraphExtractor
  | pipeline
  | pythonCodeState
  | testSurface
  | pythonTestSurfaceExtractor
deriving DecidableEq, Repr

namespace EngineModule

def path : EngineModule → String
  | root => "__init__.py"
  | apiSurface => "api_surface/__init__.py"
  | pythonApiExtractor => "api_surface/python_api_extractor.py"
  | complexity => "complexity/__init__.py"
  | pythonComplexityExtractor => "complexity/python_complexity_extractor.py"
  | domain => "domain/__init__.py"
  | stateSchema => "domain/state_schema.py"
  | effects => "effects/__init__.py"
  | effectDb => "effects/effect_db.py"
  | pythonEffectExtractor => "effects/python_effect_extractor.py"
  | framework => "framework/__init__.py"
  | constraintTypes => "framework/constraint_types.py"
  | extractConfig => "framework/extract_config.py"
  | securityPolicy => "framework/security_policy.py"
  | targetSvp => "framework/target_svp.py"
  | imports => "imports/__init__.py"
  | pythonImportsExtractor => "imports/python_imports_extractor.py"
  | moduleGraph => "module_graph/__init__.py"
  | pythonModuleGraphExtractor => "module_graph/python_module_graph_extractor.py"
  | pipeline => "pipeline/__init__.py"
  | pythonCodeState => "pipeline/python_code_state.py"
  | testSurface => "test_surface/__init__.py"
  | pythonTestSurfaceExtractor => "test_surface/python_test_surface_extractor.py"

def all : List EngineModule :=
  [root, apiSurface, pythonApiExtractor, complexity, pythonComplexityExtractor, domain,
    stateSchema, effects, effectDb, pythonEffectExtractor, framework, constraintTypes,
    extractConfig, securityPolicy, targetSvp, imports, pythonImportsExtractor, moduleGraph,
    pythonModuleGraphExtractor, pipeline, pythonCodeState, testSurface,
    pythonTestSurfaceExtractor]

/-- The package that is executed before the module. -/
def parent : EngineModule → EngineModule
  | pythonApiExtractor => apiSurface
  | pythonComplexityExtractor => complexity
  | stateSchema => domain
  | effectDb | pythonEffectExtractor => effects
  | constraintTypes | extractConfig | securityPolicy | targetSvp => framework
  | pythonImportsExtractor => imports
  | pythonModuleGraphExtractor => moduleGraph
  | pythonCodeState => pipeline
  | pythonTestSurfaceExtractor => testSurface
  | _ => root

/-- The modules of the engine that the `import` statements of a module name. -/
def importStatements : EngineModule → List EngineModule
  | root | stateSchema | constraintTypes | extractConfig | securityPolicy => []
  | apiSurface => [pythonApiExtractor]
  | pythonApiExtractor => [stateSchema]
  | complexity => [pythonComplexityExtractor]
  | pythonComplexityExtractor => [pythonApiExtractor, stateSchema]
  | domain => [stateSchema]
  | effects => [effectDb, pythonEffectExtractor]
  | effectDb => [stateSchema]
  | pythonEffectExtractor => [stateSchema, effectDb]
  | framework => [constraintTypes, extractConfig, targetSvp]
  | targetSvp => [stateSchema, constraintTypes, securityPolicy]
  | imports => [pythonImportsExtractor]
  | pythonImportsExtractor => [stateSchema]
  | moduleGraph => [pythonModuleGraphExtractor]
  | pythonModuleGraphExtractor => [pythonApiExtractor, stateSchema, extractConfig, imports]
  | pipeline => [pythonCodeState]
  | pythonCodeState =>
    [apiSurface, pythonApiExtractor, complexity, stateSchema, effects, extractConfig, imports,
      moduleGraph, testSurface]
  | testSurface => [pythonTestSurfaceExtractor]
  | pythonTestSurfaceExtractor => [stateSchema]

end EngineModule

/-- Files without which the engine does not extract. -/
def installedFiles : List String :=
  "effects/effect_db_python.yaml" :: EngineModule.all.map EngineModule.path

/-- One version of the regular files below `package_root`, by relative POSIX path. No file
name holds a NUL, and Python compiles no source that holds one. -/
structure EngineFiles where
  files : OrderedDict String Bytes
  installed : ∀ path ∈ installedFiles, (files.get? path).isSome
  nulFree : ∀ path content, files.get? path = some content →
    0 ∉ utf8 path ∧ (isPythonFile path → 0 ∉ content)

namespace EngineFiles

def contents (engine : EngineFiles) (path : String) : Option Bytes := engine.files.get? path

/-- `(package_root / raw).is_dir()`. -/
def isDir (engine : EngineFiles) (raw : String) : Bool :=
  engine.files.keys.any (isBelow raw)

/-- `(package_root / raw).rglob("*.py")`. No directory of the engine has such a name. -/
def rglobPython (engine : EngineFiles) (raw : String) : List String :=
  engine.files.keys.filter fun path => isBelow raw path && isPythonFile path

/-- `path.read_bytes()`, with the text that stands for a file that cannot be read. -/
def readBytes (engine : EngineFiles) (path : String) : Bytes :=
  (engine.contents path).getD (utf8 "<unreadable:FileNotFoundError>")

end EngineFiles

/-- `_extractor_source_paths`. -/
def extractorSourcePaths (engine : EngineFiles) (sourcePaths : List String) : List String :=
  let sources := sourcePaths.flatMap fun raw =>
    if engine.isDir raw then engine.rglobPython raw else [asPosix raw]
  (sources ++ commonExtractorDeps).toFinset.sort (· ≤ ·)

/-! ## Keys -/

inductive ExecutionMode
  | smoke
  | full
deriving DecidableEq, Repr

def ExecutionMode.value : ExecutionMode → String
  | .smoke => "smoke"
  | .full => "full"

def cacheFormatVersion : ℕ := 3

def codeStateSchemaVersion : String := "1"

/-- What one `check` run extracts: the arguments of `cache_key` besides the engine. -/
structure CheckRequest where
  treeObjectId : String
  packageRoot : String
  mode : ExecutionMode
  dimensions : Option (Finset String)
  effectiveExclude : String × List String
  pythonXy : String
  packageVersion : String
deriving DecidableEq

/-- The `payload` of `cache_key`. -/
structure KeyPayload (Digest : Type*) where
  cacheFormatVersion : ℕ
  codeStateSchemaVersion : String
  dimensions : Option (List String)
  effectiveExclude : String × List String
  extractorVersions : List (String × Digest)
  mode : String
  packageRoot : String
  packageVersion : String
  pythonXy : String
  treeObjectId : String
deriving DecidableEq

/-- `dimensions_for_cache`. -/
def dimensionsForCache (dimensions : Option (Finset String)) : Option (List String) :=
  dimensions.map fun selected => selected.sort (· ≤ ·)

section Digests

-- `hexdigest()[:16]` of a byte stream, and the digest of the dumped payload.
variable {Digest Key : Type*} (digest : Bytes → Digest) (keyDigest : KeyPayload Digest → Key)

/-- `_fingerprint_paths`. -/
def fingerprintPaths (engine : EngineFiles) (paths : List String) : Digest :=
  digest (Framing.framePairs 0 (paths.map fun path => (utf8 path, engine.readBytes path)))

/-- The entry of one dimension in `extractor_versions`. -/
def extractorVersion (engine : EngineFiles) (dimension : Dimension) : Digest :=
  fingerprintPaths digest engine (extractorSourcePaths engine (extractorSourceMap dimension))

/-- The items of a dictionary in the order of their keys. -/
def sortedItems (items : List (String × Digest)) : List (String × Digest) :=
  items.mergeSort fun a b => a.1 ≤ b.1

/-- `extractor_versions`. -/
def extractorVersions (engine : EngineFiles) : List (String × Digest) :=
  sortedItems (Dimension.all.map fun d => (d.value, extractorVersion digest engine d))

/-- `_extractor_versions_for_key`. -/
def extractorVersionsForKey (versions : List (String × Digest)) :
    Option (List String) → List (String × Digest)
  | none => sortedItems versions
  | some selected => sortedItems (versions.filter fun item => item.1 ∈ selected)

def keyPayload (engine : EngineFiles) (request : CheckRequest) : KeyPayload Digest where
  cacheFormatVersion := cacheFormatVersion
  codeStateSchemaVersion := codeStateSchemaVersion
  dimensions := dimensionsForCache request.dimensions
  effectiveExclude := request.effectiveExclude
  extractorVersions :=
    extractorVersionsForKey (extractorVersions digest engine)
      (dimensionsForCache request.dimensions)
  mode := request.mode.value
  packageRoot := request.packageRoot
  packageVersion := request.packageVersion
  pythonXy := request.pythonXy
  treeObjectId := request.treeObjectId

/-- `cache_key`. -/
def cacheKey (engine : EngineFiles) (request : CheckRequest) : Key :=
  keyDigest (keyPayload digest engine request)

end Digests

/-! ## What extraction reads -/

/-- The key covers the dimension. -/
def CheckRequest.Covers (request : CheckRequest) (dimension : Dimension) : Prop :=
  ∀ selected, request.dimensions = some selected → dimension.value ∈ selected

/-- A module of the dimension's own package. -/
def ownSource (dimension : Dimension) (path : String) : Bool :=
  (extractorSourceMap dimension).any (isBelow · path) && isPythonFile path

/-- What counts as imported for one dimension. -/
inductive ImportReading
  /-- What the pipeline calls for the dimension, with what that imports in turn. -/
  | called
  /-- Whatever the import of the pipeline executes. -/
  | executed
deriving DecidableEq, Repr

def ImportReading.all : List ImportReading := [called, executed]

/-- The imports of the pipeline that the extraction of the dimension calls: every dimension
goes through `filter_excluded_paths`, and the pipeline names the modules for the effects. -/
def calledImports (dimension : Dimension) : List EngineModule :=
  [.stateSchema, .extractConfig] ++
    match dimension with
    | .apiSurface => [.apiSurface]
    | .effects => [.effects, .pythonApiExtractor]
    | .imports => [.imports]
    | .complexity => [.complexity]
    | .testSurface => [.testSurface]
    | .moduleGraph => [.moduleGraph]

/-- The modules that the import of one module executes besides it. -/
def importedModules (reading : ImportReading) (dimension : Dimension) (m : EngineModule) :
    List EngineModule :=
  m.parent ::
    if reading = .called ∧ m = .pythonCodeState then calledImports dimension
    else m.importStatements

/-- Importing the pipeline for the dimension executes the module. -/
def Imported (reading : ImportReading) (dimension : Dimension) : EngineModule → Prop :=
  Worklist.Reached (fun m other => other ∈ importedModules reading dimension m)
    {m | m ∈ [EngineModule.pythonCodeState]}

/-- `default_python_effect_db`. -/
def databaseFiles : Dimension → List String
  | .effects => ["effects/effect_db_python.yaml"]
  | _ => []

/-- The extraction of the dimension reads or imports the file. -/
def ExtractorReads (reading : ImportReading) (dimension : Dimension) (path : String) : Prop :=
  ownSource dimension path ∨ path ∈ commonExtractorDeps ∨
    (∃ m, Imported reading dimension m ∧ m.path = path) ∨ path ∈ databaseFiles dimension

/-- The imported modules, found in six rounds. -/
def importClosure (reading : ImportReading) (dimension : Dimension) : List EngineModule :=
  (Worklist.expand (importedModules reading dimension))^[6] [.pythonCodeState]

/-- What the extraction of one dimension reads besides its own package and the common
dependencies. -/
def otherReads (reading : ImportReading) (dimension : Dimension) : List String :=
  (databaseFiles dimension ++ (importClosure reading dimension).map EngineModule.path).filter
    fun path => ¬ ownSource dimension path ∧ path ∉ commonExtractorDeps

end SemanticCi.CodeStateCache
