import SemanticCi.Library.OrderedDict
import SemanticCi.Model.Evaluator

/-! The repair plan of a verdict (`repair/emitter.py`, `repair/codes.py`). -/

namespace SemanticCi.Repair

open SemanticCi.Python SemanticCi.Framework SemanticCi.Compiler SemanticCi.Operators
  SemanticCi.Evaluator

/-! ## Repair codes -/

inductive RepairCode where
  | apiRemoved
  | apiChanged
  | typeRelationsChanged
  | effectsChanged
  | newEffect
  | testSurfaceChanged
  | importsChanged
  | userViolation
  | pathUnresolved
  | typeMismatch
  | operatorTargetMismatch
  | unsupportedOperator
  | unsupportedRepairKind
  | extractionTimeout
  | unknown
deriving DecidableEq

def RepairCode.value : RepairCode → String
  | .apiRemoved => "R_API_REMOVED"
  | .apiChanged => "R_API_CHANGED"
  | .typeRelationsChanged => "R_TYPE_RELATIONS_CHANGED"
  | .effectsChanged => "R_EFFECTS_CHANGED"
  | .newEffect => "R_NEW_EFFECT"
  | .testSurfaceChanged => "R_TEST_SURFACE_CHANGED"
  | .importsChanged => "R_IMPORTS_CHANGED"
  | .userViolation => "R_USER_VIOLATION"
  | .pathUnresolved => "R_PATH_UNRESOLVED"
  | .typeMismatch => "R_TYPE_MISMATCH"
  | .operatorTargetMismatch => "R_OPERATOR_TARGET_MISMATCH"
  | .unsupportedOperator => "R_UNSUPPORTED_OPERATOR"
  | .unsupportedRepairKind => "R_UNSUPPORTED_REPAIR_KIND"
  | .extractionTimeout => "R_EXTRACTION_TIMEOUT"
  | .unknown => "R_UNKNOWN"

/-- `_TEMPLATE_REPAIR_CODE`. -/
def templateRepairCode : List (String × RepairCode) :=
  [("template:feature:no_removed_api", .apiRemoved),
    ("template:refactor:api_surface_unchanged", .apiChanged),
    ("template:bugfix:api_surface_unchanged", .apiChanged),
    ("template:test_update:api_surface_unchanged", .apiChanged),
    ("template:refactor:type_relations_unchanged", .typeRelationsChanged),
    ("template:refactor:effects_unchanged", .effectsChanged),
    ("template:test_update:effects_unchanged", .effectsChanged),
    ("template:bugfix:no_new_effects", .newEffect),
    ("template:feature:no_new_effects", .newEffect),
    ("template:refactor:test_surface_unchanged", .testSurfaceChanged),
    ("template:test_update:imports_unchanged", .importsChanged)]

/-- `_ERROR_CODE_REPAIR_CODE`. -/
def errorCodeRepairCode : List (ErrorCode × RepairCode) :=
  [(.pathUnresolved, .pathUnresolved), (.typeMismatch, .typeMismatch),
    (.operatorTargetMismatch, .operatorTargetMismatch),
    (.operatorUnsupportedP1, .unsupportedOperator),
    (.repairKindUnsupportedP1, .unsupportedRepairKind),
    (.dimensionTimedOut, .extractionTimeout)]

/-- `resolve_repair_code`. -/
def resolveRepairCode (result : ConstraintResult) : RepairCode :=
  match result.errorCode with
  | none => .unknown
  | some .violation => (templateRepairCode.lookup result.constraintId).getD .userViolation
  | some errorCode => (errorCodeRepairCode.lookup errorCode).getD .unknown

/-! ## Instructions -/

inductive RepairCategory where
  | fixRequired
  | suggested
  | info
  | unresolved
deriving DecidableEq

def RepairCategory.value : RepairCategory → String
  | .fixRequired => "fix_required"
  | .suggested => "suggested"
  | .info => "info"
  | .unresolved => "unresolved"

structure RepairInstruction where
  constraintId : String
  source : ConstraintSource
  kind : ConstraintKind
  target : TargetPath
  operator : Operator
  severity : Severity
  unknownPolicy : UnknownPolicy
  status : ResultStatus
  errorCode : Option ErrorCode
  repairCode : RepairCode
  category : RepairCategory
  message : String
  observed : PyValue
  expected : PyValue
  added : List PyValue
  removed : List PyValue
  missing : List PyValue
  extra : List PyValue
  extraEvidence : Evidence
  unknownCause : Option UnknownCause

structure RepairPlan where
  result : VerdictResult
  instructions : List RepairInstruction

/-- What the emitter could raise. -/
inductive EmitError where
  | assertionError (status : ResultStatus)
  | keyError (repairCode : RepairCode)
deriving DecidableEq

/-- `_category_or_none`, with its `raise` behind the last branch. -/
def categoryOrNone (result : ConstraintResult) : Except EmitError (Option RepairCategory) :=
  if result.status = .satisfied then .ok none
  else if result.status = .violated ∧ result.severity = .hard then .ok (some .fixRequired)
  else if result.status = .violated ∧ result.severity = .soft then .ok (some .suggested)
  else if result.status = .violated ∧ result.severity = .info then .ok (some .info)
  else if result.status = .unknown ∧ result.unknownCause = some .authoring then
    .ok (some .fixRequired)
  else if result.status = .unknown ∧ result.unknownPolicy = .fail then .ok (some .fixRequired)
  else if result.status = .unknown ∧ result.unknownPolicy = .repair then .ok (some .suggested)
  else if result.status = .unknown ∧ result.unknownPolicy = .warn then .ok (some .unresolved)
  else if result.status = .unknown ∧ result.unknownPolicy = .ignore then .ok none
  else if result.status = .skipped then
    if result.errorCode = some .hardLockShortCircuit then .ok none else .ok (some .unresolved)
  else .error (.assertionError result.status)

/-! ## Evidence -/

/-- `_NAMED_EVIDENCE_KEYS`. -/
def namedEvidenceKeys : List String :=
  ["observed", "expected", "added", "removed", "missing", "extra"]

/-- `_as_tuple`. -/
def asTuple : Option PyValue → List PyValue
  | none => []
  | some (.scalar .none) => []
  | some (.seq _ items) => items
  | some value => [value]

/-- `dict(evidence).get(key)`. -/
def evidenceValue (evidence : Evidence) (key : String) : Option PyValue :=
  (OrderedDict.ofPairs evidence).get? key

/-- The evidence that has no field of its own. -/
def extraEvidence (evidence : Evidence) : Evidence :=
  (evidence.filter fun item => item.1 ∉ namedEvidenceKeys).insertionSort fun a b => a.1 ≤ b.1

/-! ## Messages -/

def kindValue : ConstraintKind → String
  | .state => "state"
  | .delta => "delta"
  | .repair => "repair"

def causeValue : UnknownCause → String
  | .authoring => "authoring"
  | .extraction => "extraction"
  | .openRuntime => "open_runtime"
  | .evaluatorInternal => "evaluator_internal"

/-- `f"{error_code}"`. -/
def errorText (errorCode : Option ErrorCode) : String :=
  match errorCode with
  | some errorCode => errorCode.value
  | none => "None"

/-- `_EXPECTED_STATE_BY_REPAIR_CODE`. -/
def expectedStateByRepairCode : List (RepairCode × String) :=
  [(.apiRemoved, "without removed API"), (.apiChanged, "unchanged"),
    (.typeRelationsChanged, "unchanged"), (.effectsChanged, "unchanged"),
    (.newEffect, "without new effects"), (.testSurfaceChanged, "unchanged"),
    (.importsChanged, "unchanged")]

/-- `_TEMPLATE_REPAIR_CODES`. -/
def templateRepairCodes : List RepairCode :=
  [.apiRemoved, .apiChanged, .typeRelationsChanged, .effectsChanged, .newEffect,
    .testSurfaceChanged, .importsChanged]

def isIdentifierStart (c : Char) : Bool :=
  ('A' ≤ c ∧ c ≤ 'Z') ∨ ('a' ≤ c ∧ c ≤ 'z') ∨ c = '_'

def isIdentifierPart (c : Char) : Bool := isIdentifierStart c || ('0' ≤ c ∧ c ≤ '9')

/-- The identifier that `_TEMPLATE_ID_PATTERN` captures. -/
def templateKind (constraintId : String) : Option String :=
  let chars := constraintId.toList
  if !"template:".toList.isPrefixOf chars then none
  else
    let rest := chars.drop "template:".length
    let identifier := rest.takeWhile isIdentifierPart
    match identifier, rest.drop identifier.length with
    | first :: _, ':' :: _ =>
      if isIdentifierStart first then some (String.ofList identifier) else none
    | _, _ => none

/-- `_primary_kind`. -/
def primaryKind (constraintId : String) : String := (templateKind constraintId).getD "template"

/-- `_message`. -/
def message (result : ConstraintResult) (repairCode : RepairCode) : Except EmitError String :=
  if repairCode ∈ templateRepairCodes then
    match expectedStateByRepairCode.lookup repairCode with
    | none => .error (.keyError repairCode)
    | some expectedState =>
      .ok (primaryKind result.constraintId ++ " change requires " ++ result.target.text ++
        " to remain " ++ expectedState ++ "; constraint " ++ result.constraintId ++ " violated.")
  else if repairCode = .userViolation then
    .ok ("User constraint " ++ result.constraintId ++ " violated: operator=" ++
      result.operator.value ++ ", target=" ++ result.target.text ++ ".")
  else if repairCode ∈ [.pathUnresolved, .typeMismatch, .operatorTargetMismatch,
      .extractionTimeout] then
    let causeSuffix := match result.unknownCause with
      | some cause => ", cause=" ++ causeValue cause
      | none => ""
    .ok (result.constraintId ++ ": cannot evaluate (" ++ errorText result.errorCode ++
      "); target=" ++ result.target.text ++ ", operator=" ++ result.operator.value ++
      causeSuffix ++ ".")
  else if repairCode ∈ [.unsupportedOperator, .unsupportedRepairKind] then
    .ok (result.constraintId ++ ": skipped in P1 (" ++ errorText result.errorCode ++
      "); operator=" ++ result.operator.value ++ ", kind=" ++ kindValue result.kind ++ ".")
  else if result.errorCode = some .dimensionSkipped then
    .ok (result.constraintId ++ ": skipped because execution mode did not " ++
      "extract this target dimension; target=" ++ result.target.text ++ ".")
  else
    .ok (result.constraintId ++ ": unrecognized error_code=" ++ errorText result.errorCode ++ ".")

/-! ## The plan -/

/-- The instruction of a category. -/
def instruction (result : ConstraintResult) (category : RepairCategory) :
    Except EmitError RepairInstruction := do
  let repairCode := resolveRepairCode result
  let text ← message result repairCode
  return {
    constraintId := result.constraintId
    source := result.source
    kind := result.kind
    target := result.target
    operator := result.operator
    severity := result.severity
    unknownPolicy := result.unknownPolicy
    status := result.status
    errorCode := result.errorCode
    repairCode := repairCode
    category := category
    message := text
    observed := (evidenceValue result.evidence "observed").getD PyValue.none
    expected := (evidenceValue result.evidence "expected").getD PyValue.none
    added := asTuple (evidenceValue result.evidence "added")
    removed := asTuple (evidenceValue result.evidence "removed")
    missing := asTuple (evidenceValue result.evidence "missing")
    extra := asTuple (evidenceValue result.evidence "extra")
    extraEvidence := extraEvidence result.evidence
    unknownCause := result.unknownCause }

/-- `_instruction_or_none`. -/
def instructionOrNone (result : ConstraintResult) :
    Except EmitError (Option RepairInstruction) := do
  match ← categoryOrNone result with
  | none => return none
  | some category => return some (← instruction result category)

/-- `emit_repair_plan`. -/
def emitRepairPlan (verdict : Verdict) : Except EmitError RepairPlan := do
  let instructions ← verdict.results.mapM instructionOrNone
  return { result := verdict.result, instructions := instructions.filterMap id }

end SemanticCi.Repair
