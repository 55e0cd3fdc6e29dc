import SemanticCi.Model.CodeStateDelta
import SemanticCi.Model.Evaluator

/-! The risk summary of a plan: what the target says of a baseline that has not been changed yet
(`repair_compiler/risk_summary.py`). -/

namespace SemanticCi.RepairCompiler

open SemanticCi.Python SemanticCi.StateSchema SemanticCi.Framework SemanticCi.Compiler
  SemanticCi.Operators SemanticCi.Evaluator

/-- `_FORBIDDEN_ZONE_OPERATORS`. -/
def forbiddenZoneOperators : List Operator :=
  [.equalsBaseline, .supersetOfBaseline, .noNewItems, .noRemovedItems, .unchanged]

structure AuthoringError where
  constraintId : String
  errorCode : Option ErrorCode

structure ForbiddenZone where
  constraintId : String
  source : ConstraintSource
  target : TargetPath
  operator : Operator

/-- One item for `includes_all`, one group of alternatives for `includes_any`. -/
inductive Expectation where
  | expected (item : PyValue)
  | expectedAnyOf (items : List PyValue)

structure RequiredAddition where
  constraintId : String
  source : ConstraintSource
  target : TargetPath
  operator : Operator
  expectation : Expectation

structure RiskSummary where
  authoringErrors : List AuthoringError
  wouldViolate : List String
  forbiddenZones : List ForbiddenZone
  requiredAdditions : List RequiredAddition
  templateImplications : List String

/-- `_authoring_errors`. -/
def authoringErrors (results : List ConstraintResult) : List AuthoringError :=
  results.filterMap fun r =>
    if r.source = .user ∧ r.status = .unknown ∧ r.unknownCause = some .authoring then
      some ⟨r.constraintId, r.errorCode⟩
    else none

/-- The id of a user constraint that is violated. -/
def violatedUserId (r : ConstraintResult) : Option String :=
  if r.source = .user ∧ r.status = .violated then some r.constraintId else none

/-- `_would_violate`. -/
def wouldViolate (results : List ConstraintResult) : List String :=
  results.filterMap violatedUserId

/-- `_forbidden_zones`. -/
def forbiddenZones (constraints : List CompiledConstraint) : List ForbiddenZone :=
  constraints.filterMap fun c =>
    if c.operator ∈ forbiddenZoneOperators then some ⟨c.id, c.source, c.target, c.operator⟩
    else none

/-- `_expected_items`. -/
def expectedItems : PyValue → List PyValue
  | .seq _ items => items
  | .scalar .none => []
  | expected => [expected]

mutual

/-- `_jsonable`. Sorting the items of a mapping raises when its keys do not compare; the dump of
a target writes every key as a string. -/
def jsonable : PyValue → Except PyError PyValue
  | .dict items => do
      let sorted ← sortByKey (← jsonablePairs items)
      return .dict (sorted.map fun item => (.str (keyText item.1), item.2))
  | .seq _ items => do return .list (← jsonableList items)
  | value => .ok value

def jsonableList : List PyValue → Except PyError (List PyValue)
  | [] => .ok []
  | x :: xs => do
      let y ← jsonable x
      let ys ← jsonableList xs
      return y :: ys

def jsonablePairs : List (PyScalar × PyValue) → Except PyError (List (PyScalar × PyValue))
  | [] => .ok []
  | (k, v) :: rest => do
      let w ← jsonable v
      let ws ← jsonablePairs rest
      return (k, w) :: ws

end

/-- One turn of the loop of `_required_additions`. -/
def requiredAdditionsOf (c : CompiledConstraint) : Except PyError (List RequiredAddition) :=
  let addition (expectation : Expectation) : RequiredAddition :=
    ⟨c.id, c.source, c.target, c.operator, expectation⟩
  if c.operator = .includesAll then do
    return (← jsonableList (expectedItems c.expected)).map fun item => addition (.expected item)
  else if c.operator = .includesAny then do
    return [addition (.expectedAnyOf (← jsonableList (expectedItems c.expected)))]
  else return []

/-- `_required_additions`. -/
def requiredAdditions (constraints : List CompiledConstraint) :
    Except PyError (List RequiredAddition) := do
  return (← constraints.mapM requiredAdditionsOf).flatten

/-- `_template_implications`. -/
def templateImplications (constraints : List CompiledConstraint) : List String :=
  constraints.filterMap fun c => if c.source = .template then some c.id else none

/-- The baseline against itself. -/
def selfInput (baseline : CodeState) : EvaluationInput where
  delta := Delta.computeCodeStateDelta baseline baseline
  baseline := baseline
  candidate := baseline

def liftPyError {α : Type} : Except PyError α → Except CompileError α
  | .ok a => .ok a
  | .error e => .error (.crash e)

section Reload

-- `target_svp_to_yaml` and the parser behind `compile_target_svp`: what the YAML library and
-- the schema validation make of a target that is written out and read again.
variable (reload : TargetSVP → Except CompileError TargetSVP)

/-- `compile_target_svp(target_svp_to_yaml(target))`. -/
def compileReloaded (target : TargetSVP) : Except CompileError CompiledTarget := do
  compileTargetSvp (← reload target)

/-- `compute_risk_summary`. -/
def computeRiskSummary (target : TargetSVP) (baseline : CodeState) :
    Except CompileError RiskSummary := do
  let compiled ← compileReloaded reload target
  let verdict := evaluateConstraints compiled (selfInput baseline)
  return {
    authoringErrors := authoringErrors verdict.results
    wouldViolate := wouldViolate verdict.results
    forbiddenZones := forbiddenZones compiled.constraints
    requiredAdditions := ← liftPyError (requiredAdditions compiled.constraints)
    templateImplications := templateImplications compiled.constraints }

end Reload

end SemanticCi.RepairCompiler
