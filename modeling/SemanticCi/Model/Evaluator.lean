import SemanticCi.Library.EarlyExit
import SemanticCi.Model.Operators
import SemanticCi.Model.PathResolver
import SemanticCi.Model.TargetCompiler
import Mathlib.Data.Finset.Lattice.Basic

/-! Constraint evaluation: one result per compiled constraint, the short circuit at a broken
user lock, and the verdict over all results. -/

namespace SemanticCi.Evaluator

open SemanticCi.Python SemanticCi.StateSchema SemanticCi.Framework SemanticCi.Compiler
  SemanticCi.Operators SemanticCi.PathResolver

structure ConstraintResult where
  constraintId : String
  source : ConstraintSource
  kind : ConstraintKind
  target : TargetPath
  operator : Operator
  severity : Severity
  unknownPolicy : UnknownPolicy
  tolerance : Option PyFloat
  evidenceRequired : Bool
  status : ResultStatus
  errorCode : Option ErrorCode
  evidence : Evidence
  unknownCause : Option UnknownCause

inductive VerdictResult where
  | pass
  | repair
  | fail
deriving DecidableEq

structure Verdict where
  result : VerdictResult
  results : List ConstraintResult

/-- What `evaluate_constraints` reads besides the compiled target. -/
structure EvaluationInput where
  delta : CodeStateDelta
  baseline : CodeState
  candidate : CodeState
  extractedDimensions : Option (Finset String) := none
  baselineTimedOutDimensions : Option (Finset String) := none
  candidateTimedOutDimensions : Option (Finset String) := none

/-! ## Results -/

/-- `_result`. A cause is only kept on `UNKNOWN`. -/
def result (c : CompiledConstraint) (status : ResultStatus) (errorCode : Option ErrorCode)
    (extraEvidence : Evidence) (unknownCause : Option UnknownCause := none)
    (evidence : Evidence := []) : ConstraintResult where
  constraintId := c.id
  source := c.source
  kind := c.kind
  target := c.target
  operator := c.operator
  severity := c.severity
  unknownPolicy := c.unknownPolicy
  tolerance := c.tolerance
  evidenceRequired := c.evidenceRequired
  status := status
  errorCode := errorCode
  evidence := (evidence ++ extraEvidence.insertionSort fun a b => a.1 ≤ b.1).insertionSort
    fun a b => a.1 ≤ b.1
  unknownCause := if status = .unknown then unknownCause else none

/-- `_is_open_target`. -/
def isOpenTarget (target : TargetPath) : Bool := openPrefixes.contains target.first

/-- `_is_schema_valid_target`. -/
def isSchemaValidTarget (target : TargetPath) : Bool :=
  validStateTargetPaths.contains target || validDeltaTargetPaths.contains target

/-- `_resolved_unknown_cause`. -/
def resolvedUnknownCause (target : TargetPath) : UnknownCause :=
  if isOpenTarget target then .openRuntime
  else if isSchemaValidTarget target then .extraction
  else .authoring

/-- `_from_operator_outcome`: on an open target a type mismatch is not the author's. -/
def fromOperatorOutcome (c : CompiledConstraint) (outcome : OperatorOutcome) :
    ConstraintResult :=
  let cause :=
    if outcome.unknownCause = some .authoring ∧ isOpenTarget c.target then some .openRuntime
    else outcome.unknownCause
  result c outcome.status outcome.errorCode [] cause outcome.evidence

/-! ## Dimensions -/

/-- `_dimension_for_target`. -/
def dimensionForTarget (segments : List String) : Option String :=
  let first := segments.headD ""
  if first ∈ ["api_surface", "api_surface_public", "api_surface_delta"] then some "api_surface"
  else if first ∈ ["effects", "effect_changes"] then some "effects"
  else if first ∈ ["imports", "imports_delta"] then some "imports"
  else if first ∈ ["complexity", "complexity_delta"] then some "complexity"
  else if first ∈ ["test_surface", "test_surface_delta"] then some "test_surface"
  else if first = "module_graph" then some "module_graph"
  else if first ∈ ["type_relations", "type_changes"] then some "type_relations"
  else if first ∈ ["control_flow", "cfg_delta"] then some "control_flow"
  else if first = "data_flow" then some "data_flow"
  else if first ∈ ["coverage", "coverage_delta"] then some "coverage"
  else if first = "python_specific" ∧ segments[1]? = some "module_graph_delta" then
    some "module_graph"
  else if first = "python_specific" ∧ segments[1]? = some "complexity_changes" then
    some "complexity"
  else if first = "python_specific" ∧ segments[1]? = some "test_surface_changes" then
    some "test_surface"
  else if first = "typescript_specific" then some "typescript_specific"
  else none

/-- `_skipped_dimension`. -/
def skippedDimension (segments : List String) (extractedDimensions : Option (Finset String)) :
    Option String :=
  match extractedDimensions, dimensionForTarget segments with
  | some extracted, some dimension => if dimension ∈ extracted then none else some dimension
  | _, _ => none

/-- The timed-out dimensions that a constraint of this kind looks at. -/
def timedOutDimensions (kind : ConstraintKind) (input : EvaluationInput) : Finset String :=
  match kind with
  | .state => input.candidateTimedOutDimensions.getD ∅
  | .delta =>
      input.baselineTimedOutDimensions.getD ∅ ∪ input.candidateTimedOutDimensions.getD ∅
  | .repair => ∅

/-- `_timed_out_dimension`. -/
def timedOutDimension (c : CompiledConstraint) (input : EvaluationInput) : Option String :=
  match dimensionForTarget c.target with
  | some dimension =>
      if dimension ∈ timedOutDimensions c.kind input then some dimension else none
  | none => none

/-! ## Allow rules -/

/-- `_api_surface_matches_allow_rule`, on the `fqn` of the entry. -/
def apiSurfaceMatchesAllowRule (fqn : Option JsonValue) (rules : List APISurfaceAllowRule) :
    Bool :=
  match fqn with
  | some (.str s) => rules.any fun rule =>
      rule.fqn = some s ||
        match rule.fqnPrefix with
        | some fqnPrefix => fqnPrefix.toList.isPrefixOf s.toList
        | none => false
  | _ => false

/-- `_filter_api_surface_entries` on the records of a delta. -/
def filterApiSurfaceEntries (entries : List JsonValue) (rules : List APISurfaceAllowRule) :
    List JsonValue :=
  entries.filter fun entry => !apiSurfaceMatchesAllowRule (field entry "fqn") rules

/-- `_filter_code_state_api_surface`. -/
def filterCodeStateApiSurface (state : CodeState) (rules : List APISurfaceAllowRule) :
    CodeState :=
  { state with
    apiSurface := state.apiSurface.filter fun entry =>
      !apiSurfaceMatchesAllowRule (some (.str entry.fqn)) rules }

/-- Lists and mappings cannot be members of a Python `set`. -/
def isHashable : JsonValue → Bool
  | .array _ | .object _ => false
  | _ => true

/-- `_effect_resolved_call`. -/
def effectResolvedCall (effect : JsonValue) : Option JsonValue :=
  match field effect "evidence" with
  | some evidence => field evidence "resolved_call"
  | none => none

def isText (text : String) : Option JsonValue → Bool
  | some (.str s) => s = text
  | _ => false

/-- `rule.fqn not in {effect_fqn, effect_resolved_call}`, negated. Building the set raises
when a member is not hashable. -/
def ruleNamesEffect (effect : JsonValue) (fqn : String) : Except PyError Bool :=
  let effectFqn := field effect "fqn"
  let resolvedCall := effectResolvedCall effect
  if (effectFqn.all isHashable && resolvedCall.all isHashable) then
    .ok (isText fqn effectFqn || isText fqn resolvedCall)
  else .error .typeError

/-- `_effect_matches_allow_rule`. -/
def effectMatchesAllowRule (effect : JsonValue) : List EffectAllowRule → Except PyError Bool
  | [] => .ok false
  | rule :: rules => do
      let named ← match rule.fqn with
        | some fqn => ruleNamesEffect effect fqn
        | none => .ok true
      let classed := match rule.effectClass with
        | some effectClass => isText effectClass.value (field effect "effect_class")
        | none => true
      if named && classed then return true else effectMatchesAllowRule effect rules

/-- The effects that no allow rule matches. -/
def filterEffects (rules : List EffectAllowRule) : List JsonValue → Except PyError (List JsonValue)
  | [] => .ok []
  | effect :: rest => do
      let allowed ← effectMatchesAllowRule effect rules
      let kept ← filterEffects rules rest
      return if allowed then kept else effect :: kept

def noNewEffectsTemplateIds : List String :=
  ["template:bugfix:no_new_effects", "template:feature:no_new_effects"]

def apiSurfaceUnchangedTemplateIds : List String :=
  ["template:refactor:api_surface_unchanged", "template:bugfix:api_surface_unchanged",
    "template:test_update:api_surface_unchanged"]

def apiSurfaceRemovedTemplateIds : List String := ["template:feature:no_removed_api"]

/-- `_delta_for_constraint`: the delta as one template constraint sees it. -/
def deltaForConstraint (c : CompiledConstraint) (delta : CodeStateDelta)
    (effectAllowNew : List EffectAllowRule)
    (apiSurfaceAllowChanges : List APISurfaceAllowRule) : Except PyError CodeStateDelta := do
  let view :=
    if apiSurfaceAllowChanges ≠ [] ∧ c.source = .template ∧
        c.id ∈ apiSurfaceRemovedTemplateIds ∧
        c.target = ["api_surface_delta", "removed_public"] ∧ c.operator = .equals then
      { delta with
        apiSurfaceDelta := { delta.apiSurfaceDelta with
          removed := filterApiSurfaceEntries delta.apiSurfaceDelta.removed
            apiSurfaceAllowChanges } }
    else delta
  if effectAllowNew ≠ [] ∧ c.source = .template ∧ c.id ∈ noNewEffectsTemplateIds ∧
      c.target = ["effect_changes", "added"] ∧ c.operator = .equals then
    let added ← filterEffects effectAllowNew view.effectChanges.added
    return { view with effectChanges := { view.effectChanges with added := added } }
  else return view

/-- `_states_for_constraint`: the two states as one template constraint sees them. -/
def statesForConstraint (c : CompiledConstraint) (baseline candidate : CodeState)
    (apiSurfaceAllowChanges : List APISurfaceAllowRule) : CodeState × CodeState :=
  if apiSurfaceAllowChanges = [] ∨ c.source ≠ .template ∨
      c.id ∉ apiSurfaceUnchangedTemplateIds ∨ c.target ≠ ["api_surface_public"] ∨
      c.operator ≠ .equalsBaseline then
    (baseline, candidate)
  else
    (filterCodeStateApiSurface baseline apiSurfaceAllowChanges,
      filterCodeStateApiSurface candidate apiSurfaceAllowChanges)

/-! ## One constraint -/

private def targetEvidence (c : CompiledConstraint) : Evidence :=
  [("target", .str c.target.text)]

/-- The result when a value that the constraint reads did not resolve. -/
def unresolvedResult (c : CompiledConstraint) : ConstraintResult :=
  result c .unknown (some .pathUnresolved) (targetEvidence c)
    (some (resolvedUnknownCause c.target))

/-- The residual branches that the compiler already rejects. -/
def authoringResult (c : CompiledConstraint) (errorCode : ErrorCode) : ConstraintResult :=
  result c .unknown (some errorCode) (targetEvidence c) (some .authoring)

/-- A pure operator on one resolved value. -/
def evaluatePure (c : CompiledConstraint) (resolved : Option JsonValue) :
    Except PyError ConstraintResult :=
  match resolved with
  | none => .ok (unresolvedResult c)
  | some value => do
      return fromOperatorOutcome c
        (← evaluatePureOperator c.operator value.toPy c.expected c.tolerance)

/-- A baseline operator on the two resolved values. -/
def evaluateBaseline (c : CompiledConstraint) (baseline candidate : Option JsonValue) :
    Except PyError ConstraintResult :=
  match baseline, candidate with
  | some b, some v => do
      return fromOperatorOutcome c (← evaluateBaselineOperator c.operator b.toPy v.toPy)
  | _, _ => .ok (unresolvedResult c)

/-- `_evaluate_state_constraint`. -/
def evaluateStateConstraint (c : CompiledConstraint) (candidate : CodeState) :
    Except PyError ConstraintResult :=
  if c.target.first ∉ codeStateFields then .ok (authoringResult c .pathUnresolved)
  else if c.operator ∈ baselineOperators then .ok (authoringResult c .operatorTargetMismatch)
  else evaluatePure c (resolveState candidate c.target)

/-- `_evaluate_delta_constraint`. -/
def evaluateDeltaConstraint (c : CompiledConstraint) (delta : CodeStateDelta)
    (baseline candidate : CodeState) : Except PyError ConstraintResult :=
  if c.target.first ∈ codeStateDeltaFields then
    if c.operator ∈ baselineOperators then .ok (authoringResult c .operatorTargetMismatch)
    else evaluatePure c (resolveDelta delta c.target)
  else if c.target.first ∈ codeStateFields then
    if c.operator ∉ baselineOperators then .ok (authoringResult c .operatorTargetMismatch)
    else evaluateBaseline c (resolveState baseline c.target) (resolveState candidate c.target)
  else .ok (authoringResult c .pathUnresolved)

/-- What happens inside the `try` of `_evaluate_constraint`. -/
def evaluateResolved (effectAllowNew : List EffectAllowRule)
    (apiSurfaceAllowChanges : List APISurfaceAllowRule) (input : EvaluationInput)
    (c : CompiledConstraint) : Except PyError ConstraintResult :=
  match c.kind with
  | .state => evaluateStateConstraint c input.candidate
  | _ => do
      let delta ← deltaForConstraint c input.delta effectAllowNew apiSurfaceAllowChanges
      let (baseline, candidate) :=
        statesForConstraint c input.baseline input.candidate apiSurfaceAllowChanges
      evaluateDeltaConstraint c delta baseline candidate

/-- `except Exception`. -/
def catchInternal (c : CompiledConstraint) :
    Except PyError ConstraintResult → ConstraintResult
  | .ok r => r
  | .error e =>
      result c .unknown (some .typeMismatch) [("error", .str e.name)] (some .evaluatorInternal)

/-- `_evaluate_constraint`. -/
def evaluateConstraint (effectAllowNew : List EffectAllowRule)
    (apiSurfaceAllowChanges : List APISurfaceAllowRule) (input : EvaluationInput)
    (c : CompiledConstraint) : ConstraintResult :=
  if c.kind = .repair then
    result c .skipped (some .repairKindUnsupportedP1) [("reason", .str "repair_kind_p1")]
  else if c.operator = .changedOnlyIn then
    result c .skipped (some .operatorUnsupportedP1) [("reason", .str "changed_only_in_p1")]
  else if !matchesTargetPattern c.target then authoringResult c .pathUnresolved
  else
    match skippedDimension c.target input.extractedDimensions with
    | some dimension =>
        result c .skipped (some .dimensionSkipped)
          [("reason", .str "partial_code_state"), ("dimension", .str dimension)]
    | none =>
        match timedOutDimension c input with
        | some dimension =>
            result c .unknown (some .dimensionTimedOut)
              [("reason", .str "extractor_timeout"), ("dimension", .str dimension)]
              (some .extraction)
        | none =>
            catchInternal c (evaluateResolved effectAllowNew apiSurfaceAllowChanges input c)

/-! ## The short circuit at a user lock -/

def lockShortCircuitOperators : List Operator :=
  [.equalsBaseline, .supersetOfBaseline, .noNewItems, .noRemovedItems, .unchanged]

def denyStyleLockOperators : List Operator := [.excludesAll, .subsetOf]

def deltaLockCollectionTargets : List TargetPath :=
  [["api_surface_delta", "added"], ["api_surface_delta", "added", "fqns"],
    ["api_surface_delta", "removed"], ["api_surface_delta", "removed_public"],
    ["api_surface_delta", "changed"], ["effect_changes", "added"],
    ["effect_changes", "removed"], ["effect_changes", "added", "fqns"],
    ["imports_delta", "added"], ["imports_delta", "added", "modules"],
    ["imports_delta", "removed"], ["test_surface_delta", "new_files"],
    ["test_surface_delta", "new_cases"], ["test_surface_delta", "removed_cases"],
    ["type_changes"]]

def emptyEqualsLockRecordTargets : List (TargetPath × List String) :=
  [(["api_surface_delta"], ["added", "removed", "changed"]),
    (["effect_changes"], ["added", "removed"]),
    (["imports_delta"], ["added", "removed"]),
    (["test_surface_delta"], ["new_files", "new_cases", "removed_cases"])]

/-- `_is_empty_collection_literal`. -/
def isEmptyCollectionLiteral : PyValue → Bool
  | .seq _ [] | .set [] => true
  | _ => false

/-- `_is_full_zero_record_lock_literal`. -/
def isFullZeroRecordLockLiteral (target : TargetPath) (value : PyValue) : Bool :=
  match emptyEqualsLockRecordTargets.lookup target, value with
  | some expectedKeys, .dict items =>
      (items.all fun item => expectedKeys.any fun key => item.1 = .str key) &&
        (expectedKeys.all fun key => items.any fun item => item.1 = .str key) &&
        items.all fun item => isEmptyCollectionLiteral item.2
  | _, _ => false

/-- `_is_equals_empty_delta_lock`. -/
def isEqualsEmptyDeltaLock (c : CompiledConstraint) : Bool :=
  if c.kind ≠ .delta ∨ c.operator ≠ .equals then false
  else if c.target ∈ deltaLockCollectionTargets then isEmptyCollectionLiteral c.expected
  else isFullZeroRecordLockLiteral c.target c.expected

/-- `_is_deny_style_delta_lock`. -/
def isDenyStyleDeltaLock (c : CompiledConstraint) : Bool :=
  c.kind = .delta ∧ c.operator ∈ denyStyleLockOperators ∧ c.target ∈ deltaLockCollectionTargets

/-- `_is_user_lock_result`. -/
def isUserLockResult (c : CompiledConstraint) (r : ConstraintResult) : Bool :=
  if r.source ≠ .user ∨ r.severity ≠ .hard then false
  else r.operator ∈ lockShortCircuitOperators || isEqualsEmptyDeltaLock c ||
    isDenyStyleDeltaLock c

/-- `_should_short_circuit`. -/
def shouldShortCircuit (c : CompiledConstraint) (r : ConstraintResult) : Bool :=
  if !isUserLockResult c r then false
  else if r.status = .violated then true
  else r.status = .unknown ∧ r.unknownCause = some .authoring

/-- `_short_circuit_skipped_result`. -/
def shortCircuitSkippedResult (c : CompiledConstraint) : ConstraintResult :=
  result c .skipped (some .hardLockShortCircuit) [("reason", .str "hard_lock_short_circuit")]

/-! ## The verdict -/

/-- The loop of `_aggregate`, with `has_repair` as its accumulator. -/
def aggregateFrom : Bool → List ConstraintResult → VerdictResult
  | hasRepair, [] => if hasRepair then .repair else .pass
  | hasRepair, r :: rest =>
      match r.status with
      | .violated =>
          match r.severity with
          | .hard => .fail
          | .soft => aggregateFrom true rest
          | .info => aggregateFrom hasRepair rest
      | .unknown =>
          if r.unknownCause = some .authoring then .fail
          else if r.unknownPolicy = .fail then .fail
          else if r.unknownPolicy = .repair then aggregateFrom true rest
          else aggregateFrom hasRepair rest
      | _ => aggregateFrom hasRepair rest

def aggregate (results : List ConstraintResult) : VerdictResult := aggregateFrom false results

/-- `evaluate_constraints`. -/
def evaluateConstraints (compiled : CompiledTarget) (input : EvaluationInput) : Verdict :=
  let results := EarlyExit.run
    (evaluateConstraint compiled.effectAllowNew compiled.apiSurfaceAllowChanges input)
    shortCircuitSkippedResult shouldShortCircuit false compiled.constraints
  { result := aggregate results, results := results }

end SemanticCi.Evaluator
