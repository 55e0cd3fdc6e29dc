import SemanticCi.Model.Operators
import SemanticCi.Model.TargetCompiler
import SemanticCi.Python.Path

/-! The hazard detectors that reason about a vacuous verdict: lock-only targets on a diff
without Python (D4) and targets without a positive addition (P1, P2). -/

namespace SemanticCi.Hazards

open SemanticCi.Python SemanticCi.StateSchema SemanticCi.Framework SemanticCi.Compiler
  SemanticCi.Operators

structure Advisory where
  code : String
  message : String
  evidence : Evidence
  severity : String := "info"

def changeKindValue : ChangeKind → String
  | .feature => "feature"
  | .bugfix => "bugfix"
  | .refactor => "refactor"
  | .testUpdate => "test_update"
  | .generic => "generic"

/-- `_is_python_path`. Every branch behind the test for `.py` returns `False`. -/
def isPythonPath (path : PurePath) : Bool :=
  path.suffix.toList.map Char.toLower = ".py".toList

/-- `_participates_in_verdict`. -/
def participatesInVerdict (c : CompiledConstraint) : Bool :=
  if c.kind = .repair then false
  else if c.operator = .changedOnlyIn then false
  else if c.severity = .info then c.unknownPolicy = .fail ∨ c.unknownPolicy = .repair
  else true

/-- `_is_open_path`. -/
def isOpenHazardPath (target : TargetPath) : Bool :=
  target.first ∈ ["python_specific", "typescript_specific"]

/-- `_is_empty_collection`. -/
def isEmptyCollection : PyValue → Bool
  | .seq _ [] | .set [] => true
  | _ => false

/-- `isinstance(value, dict) and value and all(...)`: every value is an empty collection. -/
def isZeroShape : PyValue → Bool
  | .dict (item :: items) => (item :: items).all fun p => isEmptyCollection p.2
  | _ => false

/-- The number under a lock literal, and the zero it is compared with. -/
private abbrev zero : PyNum := .int 0

/-- The scalar branches of `_is_lock_only_constraint`, for a leaf target. -/
def isNumericLock (operator : Operator) (expected : PyValue) : Bool :=
  match operator, expected.asNumber? with
  | .lessThan, some n => zero.lt n
  | .lessThanOrEqual, some n => zero.le n
  | .greaterThan, some n => n.lt zero
  | .greaterThanOrEqual, some n => n.le zero
  | .withinRange, _ =>
      match rangeBounds? expected with
      | some (low, high) => low.le zero && zero.le high
      | none => false
  | _, _ => false

/-- `_is_lock_only_constraint`. -/
def isLockOnlyConstraint (c : CompiledConstraint) : Bool :=
  let isLeaf : Bool := 1 < c.target.length
  if c.kind ≠ .delta then false
  else if isOpenHazardPath c.target then false
  else
    match c.operator with
    | .equalsBaseline | .supersetOfBaseline | .noNewItems | .noRemovedItems | .unchanged => true
    | .excludesAll | .subsetOf => isLeaf
    | .equals =>
        if c.source = .template ∧ isZeroShape c.expected then true
        else if isLeaf ∧ isEmptyCollection c.expected then true
        else
          match c.expected.asNumber? with
          | some n => isLeaf && n.eq zero
          | none => false
    | .includesAll | .supersetOf => isLeaf && isEmptyCollection c.expected
    | .notEquals =>
        if !isLeaf then false
        else
          match c.expected.asNumber? with
          | some n => !n.eq zero
          | none => !isEmptyCollection c.expected
    | operator => isLeaf && isNumericLock operator c.expected

/-- `_is_lock_only_target`. -/
def isLockOnlyTarget (target : CompiledTarget) : Bool :=
  match target.constraints.filter participatesInVerdict with
  | [] => false
  | participating => participating.all isLockOnlyConstraint

def detectD4 (target : CompiledTarget) (filesTouched : List PurePath) : List Advisory :=
  if filesTouched.any isPythonPath then []
  else if !isLockOnlyTarget target then []
  else
    [{ code := "ADVISORY-D4"
       message := s!"primary_kind={changeKindValue target.primaryKind} expands lock-only " ++
        "constraints, and the candidate diff touches no Python files " ++
        s!"({filesTouched.length} non-Python file(s)). The verdict will " ++
        "be a vacuous PASS — the engine extracted nothing relevant. " ++
        "Pair this PR with the appropriate non-Python gate (lint, " ++
        "schema check, workflow validator)."
       evidence := [("primary_kind", .str (changeKindValue target.primaryKind)),
        ("files_touched_count", .int filesTouched.length),
        ("sample_files", .list ((filesTouched.take 5).map fun p => .str p.text))] }]

/-! ## Positive additions -/

def semanticAdditionPathPrefixes : List TargetPath :=
  [["api_surface_delta", "added"], ["test_surface_delta", "new_cases"]]

/-- `_targets_added_dimension`. -/
def targetsAddedDimension (target : TargetPath) : Bool :=
  semanticAdditionPathPrefixes.any fun pre => pre.isPrefixOf target

def additionForcingOperators : List Operator := [.equals, .includesAll, .includesAny, .supersetOf]

/-- `_is_positive_addition`. -/
def isPositiveAddition (c : CompiledConstraint) : Bool :=
  if !participatesInVerdict c then false
  else if !targetsAddedDimension c.target then false
  else if c.operator ∈ additionForcingOperators then !isEmptyCollection c.expected
  else c.operator = .notEquals && isEmptyCollection c.expected

/-- `_targets_new_test_cases`. -/
def targetsNewTestCases (c : CompiledConstraint) : Bool :=
  if !hasSubstring "test_surface_delta" c.target.text then false
  else if !hasSubstring "new_cases" c.target.text && !hasSubstring "added" c.target.text then
    false
  else isPositiveAddition c

def detectP1 (target : CompiledTarget) : List Advisory :=
  if target.primaryKind ≠ .feature then []
  else if target.constraints.any isPositiveAddition then []
  else
    [{ code := "ADVISORY-P1"
       message := "primary_kind=feature has no positive addition constraint " ++
        "(e.g. includes_all / includes_any / not_equals expected: [] " ++
        "against api_surface_delta.added or test_surface_delta.new_cases). " ++
        "The verdict will pass vacuously even if the feature is not " ++
        "implemented. Add a constraint asserting the new surface."
       evidence := [("primary_kind", .str "feature")] }]

def detectP2 (target : CompiledTarget) : List Advisory :=
  if target.primaryKind ≠ .bugfix then []
  else if target.constraints.any targetsNewTestCases then []
  else
    [{ code := "ADVISORY-P2"
       message := "primary_kind=bugfix has no test_surface_delta.new_cases " ++
        "expectation (e.g. includes_all / not_equals expected: [] " ++
        "against test_surface_delta.new_cases). A bugfix without a " ++
        "regression test asserts no behavioural lock. Add a constraint " ++
        "requiring the new test, or relax primary_kind."
       evidence := [("primary_kind", .str "bugfix")] }]

end SemanticCi.Hazards
