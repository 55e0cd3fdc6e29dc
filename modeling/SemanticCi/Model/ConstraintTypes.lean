import SemanticCi.Model.StateSchema

/-! Constraints and targets as an author writes them, after the YAML parser and the
schema validation. Authorship and the security policy, which neither the compiler nor the
evaluator reads, are left out. -/

namespace SemanticCi.Framework

open SemanticCi.Python SemanticCi.StateSchema

inductive ConstraintKind where
  | state
  | delta
  | repair
deriving DecidableEq

inductive Operator where
  | equals
  | notEquals
  | equalsBaseline
  | notEqualsBaseline
  | includesAll
  | includesAny
  | excludesAll
  | subsetOf
  | supersetOf
  | supersetOfBaseline
  | noNewItems
  | noRemovedItems
  | lessThan
  | lessThanOrEqual
  | greaterThan
  | greaterThanOrEqual
  | withinRange
  | unchanged
  | changed
  | changedOnlyIn
deriving DecidableEq

def Operator.value : Operator → String
  | .equals => "equals"
  | .notEquals => "not_equals"
  | .equalsBaseline => "equals_baseline"
  | .notEqualsBaseline => "not_equals_baseline"
  | .includesAll => "includes_all"
  | .includesAny => "includes_any"
  | .excludesAll => "excludes_all"
  | .subsetOf => "subset_of"
  | .supersetOf => "superset_of"
  | .supersetOfBaseline => "superset_of_baseline"
  | .noNewItems => "no_new_items"
  | .noRemovedItems => "no_removed_items"
  | .lessThan => "less_than"
  | .lessThanOrEqual => "less_than_or_equal"
  | .greaterThan => "greater_than"
  | .greaterThanOrEqual => "greater_than_or_equal"
  | .withinRange => "within_range"
  | .unchanged => "unchanged"
  | .changed => "changed"
  | .changedOnlyIn => "changed_only_in"

inductive Severity where
  | hard
  | soft
  | info
deriving DecidableEq

inductive UnknownPolicy where
  | fail
  | repair
  | warn
  | ignore
deriving DecidableEq

/-- A dotted target, held split at its dots: `target.split(".")` loses nothing. -/
abbrev TargetPath := List String

/-- The dotted text of a target. -/
def TargetPath.text (target : TargetPath) : String := ".".intercalate target

/-- `target.partition(".")[0]`. -/
def TargetPath.first (target : TargetPath) : String := target.headD ""

structure Constraint where
  id : String
  kind : ConstraintKind
  target : TargetPath
  operator : Operator
  expected : PyValue := .none
  severity : Severity := .hard
  unknownPolicy : UnknownPolicy := .fail
  tolerance : Option PyFloat := none
  evidenceRequired : Bool := false
  scope : PyValue := .none

structure APISurfaceAllowRule where
  fqn : Option String := none
  fqnPrefix : Option String := none
deriving DecidableEq

structure APISurfacePolicy where
  allowChanges : List APISurfaceAllowRule := []

structure EffectAllowRule where
  fqn : Option String := none
  effectClass : Option EffectClass := none
deriving DecidableEq

structure EffectsPolicy where
  allowNew : List EffectAllowRule := []

structure ChangeBlock where
  primaryKind : ChangeKind
  allowedSecondaryKinds : List ChangeKind := []
  scope : List (String × List String) := []

structure TargetSVP where
  intent : String
  change : ChangeBlock
  apiSurface : Option APISurfacePolicy := none
  effects : Option EffectsPolicy := none
  constraints : List Constraint := []

end SemanticCi.Framework
