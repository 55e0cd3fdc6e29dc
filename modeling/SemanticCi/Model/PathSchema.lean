import SemanticCi.Model.ConstraintTypes
import SemanticCi.Python.Difflib

/-! The static checks on a constraint: which targets exist, which operator class fits the
domain of a target, and which literal and target types an operator takes. -/

namespace SemanticCi.Compiler

open SemanticCi.Python SemanticCi.StateSchema SemanticCi.Framework

/-! ## Target paths -/

private def isIdentStart (c : Char) : Bool := c.isAlpha || c = '_'

private def isIdentChar (c : Char) : Bool := c.isAlphanum || c = '_'

/-- `[A-Za-z_][A-Za-z0-9_]*`. -/
def isIdentifier (s : String) : Bool :=
  match s.toList with
  | [] => false
  | c :: cs => isIdentStart c && cs.all isIdentChar

/-- `_TARGET_PATTERN.fullmatch(target)`. -/
def matchesTargetPattern (target : TargetPath) : Bool :=
  !target.isEmpty && target.all isIdentifier

def openPrefixes : List String := ["python_specific", "typescript_specific"]

def codeStateAliases : List TargetPath := [["api_surface_public"]]

def removedPublicAliases : List TargetPath := [["api_surface_delta"]]

def deltaFlatProjectionAliases : List TargetPath :=
  [["api_surface_delta", "added", "fqns"], ["effect_changes", "added", "fqns"],
    ["imports_delta", "added", "modules"]]

mutual

/-- `_walk`: the paths below a field. Only models, also under `Optional`, are entered. -/
def walkPaths (pre : TargetPath) : Annotation → List TargetPath
  | .model fields =>
      if pre.all (openPrefixes.contains ·) then [pre]
      else pre :: walkFieldPaths pre fields ++
        (if pre ∈ removedPublicAliases ∧ (fields.lookup "removed").isSome then
          [pre ++ ["removed_public"]] else [])
  | .optional inner => walkPaths pre inner
  | _ => [pre]

def walkFieldPaths (pre : TargetPath) : List (String × Annotation) → List TargetPath
  | [] => []
  | (name, ann) :: rest =>
      walkPaths (pre ++ [name]) ann ++ walkFieldPaths pre rest

end

def validStateTargetPaths : List TargetPath :=
  walkFieldPaths [] CodeState.modelFields ++ codeStateAliases

def validDeltaTargetPaths : List TargetPath :=
  validStateTargetPaths ++ walkFieldPaths [] CodeStateDelta.modelFields ++
    deltaFlatProjectionAliases

def isOpenPath (target : TargetPath) : Bool :=
  matchesTargetPattern target && openPrefixes.contains target.first

/-- `suggest_targets`. The candidates are a set. -/
def suggestTargets (target : TargetPath) (candidates : List TargetPath) : List String :=
  Difflib.getCloseMatches target.text (candidates.map TargetPath.text).dedup 3 (3 / 5)

def codeStateFields : List String := CodeState.modelFields.map Prod.fst ++ ["api_surface_public"]

def codeStateDeltaFields : List String := CodeStateDelta.modelFields.map Prod.fst

/-! ## Operator class against target domain -/

def operatorSchemaBaseline : List Operator :=
  [.equalsBaseline, .notEqualsBaseline, .supersetOfBaseline, .noNewItems, .noRemovedItems,
    .unchanged, .changed]

def operatorSchemaPure : List Operator :=
  [.equals, .notEquals, .includesAll, .includesAny, .excludesAll, .subsetOf, .supersetOf,
    .lessThan, .lessThanOrEqual, .greaterThan, .greaterThanOrEqual, .withinRange]

def p1UnsupportedOperators : List Operator := [.changedOnlyIn]

/-- The three forbidden pairings of an operator with the domain it reads. -/
inductive OperatorTargetMismatch where
  | stateWithBaseline
  | deltaPathWithBaseline
  | statePathWithPure

/-- `_BASELINE_TO_PURE_HINT`. -/
def baselineToPureHint : Operator → Option Operator
  | .equalsBaseline => some .equals
  | .notEqualsBaseline => some .notEquals
  | .supersetOfBaseline => some .supersetOf
  | .unchanged => some .equals
  | .changed => some .notEquals
  | _ => none

/-- `_PURE_TO_BASELINE_HINT`. -/
def pureToBaselineHint : Operator → Option Operator
  | .equals => some .equalsBaseline
  | .notEquals => some .notEqualsBaseline
  | .supersetOf => some .supersetOfBaseline
  | _ => none

/-- `_pure_operator_suggestions` and `_baseline_operator_suggestions`. -/
def operatorSuggestions (operator : Operator) (among : List Operator) : List String :=
  Difflib.getCloseMatches operator.value (among.map Operator.value) 3 (2 / 5)

/-- `_fallback_hint`. -/
def fallbackHint (suggestions : List String) : String :=
  if suggestions = [] then "Pick a compatible operator from the constraint's allowed set."
  else "Did you mean one of: " ++ ", ".intercalate suggestions ++ "?"

def stateWithBaselineMessage (target : TargetPath) (operator : Operator) : String :=
  s!"operator {strRepr operator.value} compares baseline to candidate and requires a " ++
    "delta-kind constraint. It cannot be applied to a state-kind constraint at target " ++
    s!"{strRepr target.text}. " ++
    match baselineToPureHint operator with
    | some hint => s!"Did you mean operator {strRepr hint.value} (state semantics) or " ++
        "change kind to 'delta' to keep baseline-vs-candidate semantics?"
    | none => fallbackHint (operatorSuggestions operator operatorSchemaPure)

def deltaPathWithBaselineMessage (target : TargetPath) (operator : Operator) : String :=
  s!"operator {strRepr operator.value} compares baseline to candidate and cannot be " ++
    s!"applied to delta target {strRepr target.text}, which is itself a single " ++
    "computed value rather than a paired state. " ++
    match baselineToPureHint operator with
    | some hint => s!"Did you mean operator {strRepr hint.value} on the same delta path, or " ++
        "retarget at a CodeState path to keep baseline semantics?"
    | none => fallbackHint (operatorSuggestions operator operatorSchemaPure)

def statePathWithPureMessage (target : TargetPath) (operator : Operator) : String :=
  s!"operator {strRepr operator.value} is a pure operator and reads a single value, but " ++
    s!"target {strRepr target.text} is a CodeState path on a delta-kind constraint, " ++
    "which requires comparing baseline against candidate. " ++
    match pureToBaselineHint operator with
    | some hint => s!"Did you mean operator {strRepr hint.value}, or retarget at a " ++
        "CodeStateDelta path (e.g. one of api_surface_delta / effect_changes / " ++
        "imports_delta / complexity_delta / test_surface_delta) to keep pure semantics?"
    | none => fallbackHint (operatorSuggestions operator operatorSchemaBaseline)

def OperatorTargetMismatch.message (target : TargetPath) (operator : Operator) :
    OperatorTargetMismatch → String
  | .stateWithBaseline => stateWithBaselineMessage target operator
  | .deltaPathWithBaseline => deltaPathWithBaselineMessage target operator
  | .statePathWithPure => statePathWithPureMessage target operator

/-- `check_operator_target_compatibility`: the mismatch, if there is one. -/
def checkOperatorTargetCompatibility (kind : ConstraintKind) (target : TargetPath)
    (operator : Operator) : Option OperatorTargetMismatch :=
  if kind = .repair then none
  else if operator ∈ p1UnsupportedOperators then none
  else if kind = .state then
    if operator ∈ operatorSchemaBaseline then some .stateWithBaseline else none
  else if target.first ∈ codeStateDeltaFields then
    if operator ∈ operatorSchemaBaseline then some .deltaPathWithBaseline else none
  else if target.first ∈ codeStateFields then
    if operator ∈ operatorSchemaPure then some .statePathWithPure else none
  else none

/-! ## Target category against operator and literal -/

inductive TargetCategory where
  | record
  | recordCollection
  | stringCollection
  | numberCollection
  | scalarString
  | scalarNumber
  | scalarBool
  | mappingOpen
  | unknownOpen
deriving DecidableEq

def TargetCategory.value : TargetCategory → String
  | .record => "record"
  | .recordCollection => "record_collection"
  | .stringCollection => "string_collection"
  | .numberCollection => "number_collection"
  | .scalarString => "scalar_string"
  | .scalarNumber => "scalar_number"
  | .scalarBool => "scalar_bool"
  | .mappingOpen => "mapping_open"
  | .unknownOpen => "unknown_open"

/-- The operators that read a collection; the first five also take a list literal. -/
def collectionOperatorsWithExpected : List Operator :=
  [.includesAll, .includesAny, .excludesAll, .subsetOf, .supersetOf]

def typedCollectionOperators : List Operator :=
  collectionOperatorsWithExpected ++ [.supersetOfBaseline, .noNewItems, .noRemovedItems]

def numericOperators : List Operator :=
  [.lessThan, .lessThanOrEqual, .greaterThan, .greaterThanOrEqual]

def collectionCategories : List TargetCategory :=
  [.recordCollection, .stringCollection, .numberCollection]

def unwrapNullable : Annotation → Annotation
  | .optional inner => inner
  | ann => ann

def collectionCategory (element : Annotation) : TargetCategory :=
  match unwrapNullable element with
  | .str => .stringCollection
  | .int | .float => .numberCollection
  | _ => .recordCollection

def annotationCategory (ann : Annotation) : TargetCategory :=
  match unwrapNullable ann with
  | .mapping => .mappingOpen
  | .model _ => .record
  | .tupleOf element => collectionCategory element
  | .int | .float => .scalarNumber
  | .bool => .scalarBool
  | .str => .scalarString
  | _ => .unknownOpen

mutual

/-- `_walk` of the type schema: a category for every path below a field. -/
def walkCategories (pre : TargetPath) : Annotation → List (TargetPath × TargetCategory)
  | .model fields =>
      (pre, .record) :: walkFieldCategories pre fields ++
        (if pre ∈ removedPublicAliases ∧ (fields.lookup "removed").isSome then
          [(pre ++ ["removed_public"], .recordCollection)] else [])
  | .optional (.model fields) =>
      (pre, .record) :: walkFieldCategories pre fields ++
        (if pre ∈ removedPublicAliases ∧ (fields.lookup "removed").isSome then
          [(pre ++ ["removed_public"], .recordCollection)] else [])
  | ann => [(pre, annotationCategory ann)]

def walkFieldCategories (pre : TargetPath) :
    List (String × Annotation) → List (TargetPath × TargetCategory)
  | [] => []
  | (name, ann) :: rest =>
      walkCategories (pre ++ [name]) ann ++ walkFieldCategories pre rest

end

def topLevelAliasCategories : List (TargetPath × TargetCategory) :=
  [(["api_surface_public"], .recordCollection)]

def flatProjectionCategories : List (TargetPath × TargetCategory) :=
  [(["api_surface_delta", "added", "fqns"], .stringCollection),
    (["effect_changes", "added", "fqns"], .stringCollection),
    (["imports_delta", "added", "modules"], .stringCollection)]

/-- `_category_map`, last write first. -/
def categoryMap : List (TargetPath × TargetCategory) :=
  flatProjectionCategories ++ topLevelAliasCategories ++
    walkFieldCategories [] CodeStateDelta.modelFields ++
    walkFieldCategories [] CodeState.modelFields

def categoryForTarget (target : TargetPath) : TargetCategory :=
  if isOpenPath target then .unknownOpen
  else (categoryMap.lookup target).getD .unknownOpen

inductive TypeMismatchSide where
  | observed
  | expected
deriving DecidableEq

structure TypeMismatch where
  message : String
  side : TypeMismatchSide

/-- `_is_real_number`. -/
def isRealNumber (value : PyValue) : Bool := value.asNumber?.isSome

private def observedCollectionMessage (target : TargetPath) (operator : Operator)
    (category : TargetCategory) : String :=
  s!"operator {strRepr operator.value} requires a collection target " ++
    "(record_collection / string_collection / number_collection), but target " ++
    s!"{strRepr target.text} is statically typed as {strRepr category.value}. " ++
    "Use a collection target or pick a category-compatible operator."

private def observedNumericMessage (target : TargetPath) (operator : Operator)
    (category : TargetCategory) : String :=
  s!"operator {strRepr operator.value} reads a scalar number, but target " ++
    s!"{strRepr target.text} is statically typed as {strRepr category.value}. Use a " ++
    "numeric target (e.g. complexity_delta.cyclomatic) or switch to a " ++
    "category-compatible operator."

private def expectedCollectionMessage (target : TargetPath) (operator : Operator)
    (expected : PyValue) : String :=
  s!"operator {strRepr operator.value} compares observed against an expected list of items, " ++
    s!"but expected is {expected.repr} for target {strRepr target.text}. " ++
    "Provide a YAML list (e.g. expected: [...] or a sequence of dicts)."

private def expectedNumericMessage (target : TargetPath) (operator : Operator)
    (expected : PyValue) : String :=
  s!"operator {strRepr operator.value} compares to a numeric literal, but expected is " ++
    s!"{expected.repr} for target {strRepr target.text}. Provide an int or float."

private def expectedWithinRangeMessage (target : TargetPath) (operator : Operator)
    (expected : PyValue) : String :=
  s!"operator {strRepr operator.value} requires expected as a [low, high] pair of numbers, " ++
    s!"but expected is {expected.repr} for target {strRepr target.text}."

/-- `isinstance(expected, list | tuple)` of two real numbers. -/
def isNumberPair : PyValue → Bool
  | .seq _ [low, high] => isRealNumber low && isRealNumber high
  | _ => false

/-- `_check_expected_shape`. -/
def checkExpectedShape (target : TargetPath) (operator : Operator) (expected : PyValue) :
    Option TypeMismatch :=
  if operator ∈ collectionOperatorsWithExpected then
    if expected.isListOrTuple then none
    else some ⟨expectedCollectionMessage target operator expected, .expected⟩
  else if operator ∈ numericOperators then
    if isRealNumber expected then none
    else some ⟨expectedNumericMessage target operator expected, .expected⟩
  else if operator = .withinRange then
    if isNumberPair expected then none
    else some ⟨expectedWithinRangeMessage target operator expected, .expected⟩
  else none

/-- `check_type_compatibility`: the observed side first, then the literal. -/
def checkTypeCompatibility (target : TargetPath) (operator : Operator) (expected : PyValue) :
    Option TypeMismatch :=
  let category := categoryForTarget target
  if category ≠ .unknownOpen ∧ operator ∈ typedCollectionOperators ∧
      category ∉ collectionCategories then
    some ⟨observedCollectionMessage target operator category, .observed⟩
  else if category ≠ .unknownOpen ∧ (operator ∈ numericOperators ∨ operator = .withinRange) ∧
      category ≠ .scalarNumber then
    some ⟨observedNumericMessage target operator category, .observed⟩
  else checkExpectedShape target operator expected

end SemanticCi.Compiler
