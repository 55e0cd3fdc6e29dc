import SemanticCi.Python.Value

/-! The code state and its delta, with the JSON dump that the evaluator compares. -/

namespace SemanticCi.StateSchema

open SemanticCi.Python

inductive ChangeKind where
  | feature
  | bugfix
  | refactor
  | testUpdate
  | generic
deriving DecidableEq

inductive EffectClass where
  | pure
  | io
  | net
  | fs
  | process
  | env
  | timeRandom
  | stdout
  | dynamicCode
  | unsafeDeserialize
  | globalMutation
deriving DecidableEq

def EffectClass.value : EffectClass → String
  | .pure => "pure"
  | .io => "io"
  | .net => "net"
  | .fs => "fs"
  | .process => "process"
  | .env => "env"
  | .timeRandom => "time_random"
  | .stdout => "stdout"
  | .dynamicCode => "dynamic_code"
  | .unsafeDeserialize => "unsafe_deserialize"
  | .globalMutation => "global_mutation"

structure APISurfaceEntry where
  fqn : String
  kind : String
  signature : Option String := none
  visibility : Option String := none
  decorators : List String := []
deriving DecidableEq

structure TypeRelation where
  fqn : String
  typeExpr : String
  nullable : Option Bool := none
  genericParams : List String := []

structure EffectEntry where
  fqn : String
  effectClass : EffectClass
  confidence : Option Dyadic := none
  evidence : JsonValue := .null

structure ControlFlowEntry where
  fqn : String
  branches : Option ℤ := none
  loops : Option ℤ := none
  exceptionPaths : Option ℤ := none
  cyclomatic : Option ℤ := none

structure DataFlowEntry where
  source : String
  sink : String
  path : List String := []

structure ImportEntry where
  module : String
  from_ : Option String := none
  symbols : List String := []
deriving DecidableEq

structure ComplexityEntry where
  fqn : String
  cyclomatic : Option ℤ := none
  cognitive : Option ℤ := none
deriving DecidableEq

structure TestSurfaceEntry where
  testFile : String
  testFunction : String
  asserts : Option ℤ := none
  parametrizeCount : Option ℤ := none
deriving DecidableEq

structure CoverageEntry where
  file : String
  lineCoverage : Dyadic
  branchCoverage : Option Dyadic := none

structure ModuleGraphEntry where
  module : String
  imports : List String := []
  importedBy : List String := []
deriving DecidableEq

structure CodeState where
  apiSurface : List APISurfaceEntry := []
  typeRelations : List TypeRelation := []
  effects : List EffectEntry := []
  controlFlow : List ControlFlowEntry := []
  dataFlow : List DataFlowEntry := []
  imports : List ImportEntry := []
  complexity : List ComplexityEntry := []
  testSurface : List TestSurfaceEntry := []
  coverage : Option (List CoverageEntry) := none
  moduleGraph : List ModuleGraphEntry := []
  pythonSpecific : Option JsonMapping := none
  typescriptSpecific : Option JsonMapping := none

structure SymbolDelta where
  added : List JsonValue := []
  removed : List JsonValue := []
  changed : List JsonValue := []

structure EffectChanges where
  added : List JsonValue := []
  removed : List JsonValue := []

structure CFGDelta where
  newBranches : ℤ := 0
  removedBranches : ℤ := 0

structure ImportDelta where
  added : List JsonValue := []
  removed : List JsonValue := []

structure ComplexityDelta where
  cyclomatic : ℤ := 0
  cognitive : ℤ := 0

structure TestSurfaceDelta where
  newFiles : List String := []
  newCases : List String := []
  removedCases : List String := []

structure CoverageDelta where
  line : Option Dyadic := none
  branch : Option Dyadic := none

structure LocDelta where
  added : ℤ := 0
  removed : ℤ := 0

structure RenameEntry where
  oldPath : String
  newPath : String
deriving DecidableEq

structure CodeStateDelta where
  apiSurfaceDelta : SymbolDelta := {}
  decoratorsDelta : SymbolDelta := {}
  typeChanges : List JsonValue := []
  effectChanges : EffectChanges := {}
  cfgDelta : CFGDelta := {}
  importsDelta : ImportDelta := {}
  complexityDelta : ComplexityDelta := {}
  testSurfaceDelta : TestSurfaceDelta := {}
  coverageDelta : Option CoverageDelta := none
  filesTouched : ℤ := 0
  locDelta : LocDelta := {}
  renames : List RenameEntry := []
  pythonSpecific : Option JsonMapping := none
  typescriptSpecific : Option JsonMapping := none

/-! ## `model_dump(mode="json")`

Fields appear under their own names, so an import keeps `from_`. -/

private abbrev optInt : Option ℤ → JsonValue := .ofOption .int
private abbrev optFloat : Option Dyadic → JsonValue := .ofOption .float

def APISurfaceEntry.dump (e : APISurfaceEntry) : JsonMapping :=
  [("fqn", .str e.fqn), ("kind", .str e.kind), ("signature", .ofOption .str e.signature),
    ("visibility", .ofOption .str e.visibility), ("decorators", .strings e.decorators)]

def TypeRelation.dump (e : TypeRelation) : JsonMapping :=
  [("fqn", .str e.fqn), ("type_expr", .str e.typeExpr), ("nullable", .ofOption .bool e.nullable),
    ("generic_params", .strings e.genericParams)]

def EffectEntry.dump (e : EffectEntry) : JsonMapping :=
  [("fqn", .str e.fqn), ("effect_class", .str e.effectClass.value),
    ("confidence", .ofOption .float e.confidence), ("evidence", e.evidence)]

def ControlFlowEntry.dump (e : ControlFlowEntry) : JsonMapping :=
  [("fqn", .str e.fqn), ("branches", optInt e.branches), ("loops", optInt e.loops),
    ("exception_paths", optInt e.exceptionPaths), ("cyclomatic", optInt e.cyclomatic)]

def DataFlowEntry.dump (e : DataFlowEntry) : JsonMapping :=
  [("source", .str e.source), ("sink", .str e.sink), ("path", .strings e.path)]

def ImportEntry.dump (e : ImportEntry) : JsonMapping :=
  [("module", .str e.module), ("from_", .ofOption .str e.from_), ("symbols", .strings e.symbols)]

/-- `model_dump(mode="json", by_alias=True)`. -/
def ImportEntry.dumpByAlias (e : ImportEntry) : JsonMapping :=
  [("module", .str e.module), ("from", .ofOption .str e.from_), ("symbols", .strings e.symbols)]

def ComplexityEntry.dump (e : ComplexityEntry) : JsonMapping :=
  [("fqn", .str e.fqn), ("cyclomatic", .ofOption .int e.cyclomatic),
    ("cognitive", .ofOption .int e.cognitive)]

def TestSurfaceEntry.dump (e : TestSurfaceEntry) : JsonMapping :=
  [("test_file", .str e.testFile), ("test_function", .str e.testFunction),
    ("asserts", .ofOption .int e.asserts), ("parametrize_count", .ofOption .int e.parametrizeCount)]

def CoverageEntry.dump (e : CoverageEntry) : JsonMapping :=
  [("file", .str e.file), ("line_coverage", .float e.lineCoverage),
    ("branch_coverage", optFloat e.branchCoverage)]

def ModuleGraphEntry.dump (e : ModuleGraphEntry) : JsonMapping :=
  [("module", .str e.module), ("imports", .strings e.imports),
    ("imported_by", .strings e.importedBy)]

/-- A tuple of records. -/
def records {α : Type} (dump : α → JsonMapping) (entries : List α) : JsonValue :=
  .array (entries.map fun e => .object (dump e))

def CodeState.dump (s : CodeState) : JsonMapping :=
  [("api_surface", records APISurfaceEntry.dump s.apiSurface),
    ("type_relations", records TypeRelation.dump s.typeRelations),
    ("effects", records EffectEntry.dump s.effects),
    ("control_flow", records ControlFlowEntry.dump s.controlFlow),
    ("data_flow", records DataFlowEntry.dump s.dataFlow),
    ("imports", records ImportEntry.dump s.imports),
    ("complexity", records ComplexityEntry.dump s.complexity),
    ("test_surface", records TestSurfaceEntry.dump s.testSurface),
    ("coverage", .ofOption (records CoverageEntry.dump) s.coverage),
    ("module_graph", records ModuleGraphEntry.dump s.moduleGraph),
    ("python_specific", .ofOption .object s.pythonSpecific),
    ("typescript_specific", .ofOption .object s.typescriptSpecific)]

def SymbolDelta.dump (d : SymbolDelta) : JsonMapping :=
  [("added", .array d.added), ("removed", .array d.removed), ("changed", .array d.changed)]

def EffectChanges.dump (d : EffectChanges) : JsonMapping :=
  [("added", .array d.added), ("removed", .array d.removed)]

def CFGDelta.dump (d : CFGDelta) : JsonMapping :=
  [("new_branches", .int d.newBranches), ("removed_branches", .int d.removedBranches)]

def ImportDelta.dump (d : ImportDelta) : JsonMapping :=
  [("added", .array d.added), ("removed", .array d.removed)]

def ComplexityDelta.dump (d : ComplexityDelta) : JsonMapping :=
  [("cyclomatic", .int d.cyclomatic), ("cognitive", .int d.cognitive)]

def TestSurfaceDelta.dump (d : TestSurfaceDelta) : JsonMapping :=
  [("new_files", .strings d.newFiles), ("new_cases", .strings d.newCases),
    ("removed_cases", .strings d.removedCases)]

def CoverageDelta.dump (d : CoverageDelta) : JsonMapping :=
  [("line", optFloat d.line), ("branch", optFloat d.branch)]

def LocDelta.dump (d : LocDelta) : JsonMapping :=
  [("added", .int d.added), ("removed", .int d.removed)]

def RenameEntry.dump (e : RenameEntry) : JsonMapping :=
  [("old_path", .str e.oldPath), ("new_path", .str e.newPath)]

def CodeStateDelta.dump (d : CodeStateDelta) : JsonMapping :=
  [("api_surface_delta", .object d.apiSurfaceDelta.dump),
    ("decorators_delta", .object d.decoratorsDelta.dump),
    ("type_changes", .array d.typeChanges),
    ("effect_changes", .object d.effectChanges.dump),
    ("cfg_delta", .object d.cfgDelta.dump),
    ("imports_delta", .object d.importsDelta.dump),
    ("complexity_delta", .object d.complexityDelta.dump),
    ("test_surface_delta", .object d.testSurfaceDelta.dump),
    ("coverage_delta", .ofOption (fun c => .object c.dump) d.coverageDelta),
    ("files_touched", .int d.filesTouched),
    ("loc_delta", .object d.locDelta.dump),
    ("renames", records RenameEntry.dump d.renames),
    ("python_specific", .ofOption .object d.pythonSpecific),
    ("typescript_specific", .ofOption .object d.typescriptSpecific)]

/-! ## Field annotations

What `model_fields` reflects: the shape that the static checks of the compiler walk. -/

inductive Annotation where
  | str
  | int
  | float
  | bool
  | any
  | mapping
  | tupleOf (element : Annotation)
  | optional (inner : Annotation)
  | model (fields : List (String × Annotation))

private abbrev str? : Annotation := .optional .str
private abbrev int? : Annotation := .optional .int
private abbrev float? : Annotation := .optional .float
private abbrev jsonTuple : Annotation := .tupleOf .any
private abbrev strTuple : Annotation := .tupleOf .str

def CodeState.modelFields : List (String × Annotation) :=
  [("api_surface", .tupleOf (.model [("fqn", .str), ("kind", .str), ("signature", str?),
      ("visibility", str?), ("decorators", strTuple)])),
    ("type_relations", .tupleOf (.model [("fqn", .str), ("type_expr", .str),
      ("nullable", .optional .bool), ("generic_params", strTuple)])),
    ("effects", .tupleOf (.model [("fqn", .str), ("effect_class", .str), ("confidence", float?),
      ("evidence", .any)])),
    ("control_flow", .tupleOf (.model [("fqn", .str), ("branches", int?), ("loops", int?),
      ("exception_paths", int?), ("cyclomatic", int?)])),
    ("data_flow", .tupleOf (.model [("source", .str), ("sink", .str), ("path", strTuple)])),
    ("imports", .tupleOf (.model [("module", .str), ("from_", str?), ("symbols", strTuple)])),
    ("complexity", .tupleOf (.model [("fqn", .str), ("cyclomatic", int?), ("cognitive", int?)])),
    ("test_surface", .tupleOf (.model [("test_file", .str), ("test_function", .str),
      ("asserts", int?), ("parametrize_count", int?)])),
    ("coverage", .optional (.tupleOf (.model [("file", .str), ("line_coverage", .float),
      ("branch_coverage", float?)]))),
    ("module_graph", .tupleOf (.model [("module", .str), ("imports", strTuple),
      ("imported_by", strTuple)])),
    ("python_specific", .optional .mapping),
    ("typescript_specific", .optional .mapping)]

private def symbolDelta : Annotation :=
  .model [("added", jsonTuple), ("removed", jsonTuple), ("changed", jsonTuple)]

def CodeStateDelta.modelFields : List (String × Annotation) :=
  [("api_surface_delta", symbolDelta),
    ("decorators_delta", symbolDelta),
    ("type_changes", jsonTuple),
    ("effect_changes", .model [("added", jsonTuple), ("removed", jsonTuple)]),
    ("cfg_delta", .model [("new_branches", .int), ("removed_branches", .int)]),
    ("imports_delta", .model [("added", jsonTuple), ("removed", jsonTuple)]),
    ("complexity_delta", .model [("cyclomatic", .int), ("cognitive", .int)]),
    ("test_surface_delta", .model [("new_files", strTuple), ("new_cases", strTuple),
      ("removed_cases", strTuple)]),
    ("coverage_delta", .optional (.model [("line", float?), ("branch", float?)])),
    ("files_touched", .int),
    ("loc_delta", .model [("added", .int), ("removed", .int)]),
    ("renames", .tupleOf (.model [("old_path", .str), ("new_path", .str)])),
    ("python_specific", .optional .mapping),
    ("typescript_specific", .optional .mapping)]

end SemanticCi.StateSchema
