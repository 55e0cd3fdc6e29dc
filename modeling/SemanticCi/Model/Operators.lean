import SemanticCi.Model.MatchSchema

/-! Operator evaluation: canonical values, the twelve pure and the seven baseline
operators, and the evidence they leave. -/

namespace SemanticCi.Operators

open SemanticCi.Python SemanticCi.Framework SemanticCi.Matching

inductive ResultStatus where
  | satisfied
  | violated
  | unknown
  | skipped
deriving DecidableEq

inductive UnknownCause where
  | authoring
  | extraction
  | openRuntime
  | evaluatorInternal
deriving DecidableEq

inductive ErrorCode where
  | violation
  | typeMismatch
  | pathUnresolved
  | operatorTargetMismatch
  | operatorUnsupportedP1
  | repairKindUnsupportedP1
  | dimensionSkipped
  | dimensionTimedOut
  | hardLockShortCircuit
deriving DecidableEq

def ErrorCode.value : ErrorCode → String
  | .violation => "E_VIOLATION"
  | .typeMismatch => "E_TYPE_MISMATCH"
  | .pathUnresolved => "E_PATH_UNRESOLVED"
  | .operatorTargetMismatch => "E_OPERATOR_TARGET_MISMATCH"
  | .operatorUnsupportedP1 => "E_OPERATOR_UNSUPPORTED_P1"
  | .repairKindUnsupportedP1 => "E_REPAIR_KIND_UNSUPPORTED_P1"
  | .dimensionSkipped => "E_DIMENSION_SKIPPED"
  | .dimensionTimedOut => "E_DIMENSION_TIMED_OUT"
  | .hardLockShortCircuit => "E_HARD_LOCK_SHORT_CIRCUIT"

def baselineOperators : List Operator :=
  [.equalsBaseline, .notEqualsBaseline, .supersetOfBaseline, .noNewItems, .noRemovedItems,
    .unchanged, .changed]

def pureOperators : List Operator :=
  [.equals, .notEquals, .includesAll, .includesAny, .excludesAll, .subsetOf, .supersetOf,
    .lessThan, .lessThanOrEqual, .greaterThan, .greaterThanOrEqual, .withinRange]

abbrev Evidence := List (String × PyValue)

structure OperatorOutcome where
  status : ResultStatus
  errorCode : Option ErrorCode
  evidence : Evidence
  unknownCause : Option UnknownCause := none

/-! ## Canonical values -/

mutual

/-- `_canon`. Sorting the items of a mapping raises when its keys do not compare. -/
def canon : PyValue → Except PyError PyValue
  | .scalar s => .ok (.scalar s)
  | .seq .canonicalMapping items => do return .seq .canonicalMapping (← canonList items)
  | .seq _ items => do return .tuple (← canonList items)
  | .dict items => do
      let sorted ← sortByKey (← canonPairs items)
      return .seq .canonicalMapping (sorted.map fun item => .tuple [.scalar item.1, item.2])
  | .set items => .ok (.set items)

def canonList : List PyValue → Except PyError (List PyValue)
  | [] => .ok []
  | x :: xs => do
      let y ← canon x
      let ys ← canonList xs
      return y :: ys

def canonPairs : List (PyScalar × PyValue) → Except PyError (List (PyScalar × PyValue))
  | [] => .ok []
  | (k, v) :: rest => do
      let w ← canon v
      let ws ← canonPairs rest
      return (k, w) :: ws

end

/-- `sorted(values, key=repr)`. -/
def sortedValues (values : List PyValue) : List PyValue :=
  values.insertionSort fun a b => a.repr ≤ b.repr

/-- `frozenset(values)`: of equal members the first stays. -/
def dedupValues : List PyValue → List PyValue
  | [] => []
  | x :: xs => x :: (dedupValues xs).filter fun y => !(y.eq x)

/-- The members of a canonical value that is a collection. -/
def collectionMembers : PyValue → Option (List PyValue)
  | .seq _ items => some items
  | .set items => some (items.map .scalar)
  | _ => none

/-- `_collection_items`. -/
def collectionItems (value : PyValue) : Except PyError (Option (List PyValue)) := do
  return (collectionMembers (← canon value)).map fun items => sortedValues (dedupValues items)

/-- `_evidence`, on items that are canonicalized here. -/
def evidence (items : Evidence) : Except PyError Evidence := do
  let values ← canonList (items.map Prod.snd)
  return ((items.map Prod.fst).zip values).insertionSort fun a b => a.1 ≤ b.1

/-! ## Outcomes -/

def unknownTypeMismatch (cause : UnknownCause) (items : Evidence) :
    Except PyError OperatorOutcome := do
  return ⟨.unknown, some .typeMismatch, ← evidence items, some cause⟩

def booleanOutcome (satisfied : Bool) (items : Evidence) : Except PyError OperatorOutcome := do
  return ⟨if satisfied then .satisfied else .violated,
    if satisfied then none else some .violation, ← evidence items, none⟩

/-- `_set_outcome` and `_baseline_set_outcome`: the two sides under their own names, and a
detail only when it is not empty. -/
def setOutcome (satisfied : Bool) (left right : String × List PyValue)
    (detail : List (String × List PyValue)) : Except PyError OperatorOutcome :=
  let entry := fun item : String × List PyValue => (item.1, PyValue.tuple (sortedValues item.2))
  booleanOutcome satisfied
    (entry left :: entry right :: (detail.filter fun item => !item.2.isEmpty).map entry)

/-! ## Pure operators -/

def anyObservedMatches (expectedItem : PyValue) (observedItems : List PyValue) : Bool :=
  observedItems.any fun observedItem => matchItem expectedItem observedItem

def anyExpectedMatches (observedItem : PyValue) (expectedItems : List PyValue) : Bool :=
  expectedItems.any fun expectedItem => matchItem expectedItem observedItem

/-- `_matched_pairs`. -/
def matchedPairs (expectedItems observedItems : List PyValue) : List PyValue :=
  let pairs := expectedItems.flatMap fun e =>
    (observedItems.filter fun o => matchItem e o).map fun o =>
      PyValue.seq .canonicalMapping
        [.tuple [.str "expected_item", e], .tuple [.str "observed_record", o]]
  sortedValues (dedupValues pairs)

/-- The frame the five pure set operators share: both sides must be collections. -/
def onCollections (resolved expected : PyValue)
    (body : List PyValue → List PyValue → Except PyError OperatorOutcome) :
    Except PyError OperatorOutcome := do
  match ← collectionItems resolved, ← collectionItems expected with
  | some observedItems, some expectedItems => body observedItems expectedItems
  | _, _ => unknownTypeMismatch .authoring [("observed", resolved), ("expected", expected)]

def includesAll (resolved expected : PyValue) : Except PyError OperatorOutcome :=
  onCollections resolved expected fun observedItems expectedItems =>
    let missing := expectedItems.filter fun e => !anyObservedMatches e observedItems
    setOutcome missing.isEmpty ("observed", observedItems) ("expected", expectedItems)
      [("missing", missing)]

def includesAny (resolved expected : PyValue) : Except PyError OperatorOutcome :=
  onCollections resolved expected fun observedItems expectedItems =>
    let common := expectedItems.filter fun e => anyObservedMatches e observedItems
    setOutcome (!common.isEmpty) ("observed", observedItems) ("expected", expectedItems)
      [("common", common)]

def excludesAll (resolved expected : PyValue) : Except PyError OperatorOutcome :=
  onCollections resolved expected fun observedItems expectedItems =>
    let matched := matchedPairs expectedItems observedItems
    setOutcome matched.isEmpty ("observed", observedItems) ("expected", expectedItems)
      [("matched", matched)]

def subsetOf (resolved expected : PyValue) : Except PyError OperatorOutcome :=
  onCollections resolved expected fun observedItems expectedItems =>
    let extra := observedItems.filter fun o => !anyExpectedMatches o expectedItems
    setOutcome extra.isEmpty ("observed", observedItems) ("expected", expectedItems)
      [("extra", extra)]

def supersetOf (resolved expected : PyValue) : Except PyError OperatorOutcome :=
  includesAll resolved expected

inductive Relation where
  | lt
  | le
  | gt
  | ge
deriving DecidableEq

/-- `tolerance or 0.0`. -/
def toleranceOrZero (tolerance : Option PyFloat) : PyFloat := tolerance.getD (.finite 0)

/-- The comparison of `_numeric_compare`, with the bound widened by the tolerance. -/
def relationHolds (relation : Relation) (x bound : PyNum) (tol : PyFloat) :
    Except PyError Bool :=
  match relation with
  | .lt => do return x.lt (← bound.addFloat tol)
  | .le => do return x.le (← bound.addFloat tol)
  | .gt => do return (← bound.subFloat tol).lt x
  | .ge => do return (← bound.subFloat tol).le x

def numericCompare (resolved expected : PyValue) (tolerance : Option PyFloat)
    (relation : Relation) : Except PyError OperatorOutcome :=
  match resolved.asNumber?, expected.asNumber? with
  | some x, some bound => do
      let tol := toleranceOrZero tolerance
      let satisfied ← relationHolds relation x bound tol
      booleanOutcome satisfied
        [("observed", resolved), ("expected", expected), ("tolerance", .float tol)]
  | _, _ => unknownTypeMismatch .authoring [("observed", resolved), ("expected", expected)]

def PyNum.toPy : PyNum → PyValue
  | .int i => .int i
  | .float f => .float f

/-- The two bounds of a canonical `[low, high]` literal. -/
def rangeBounds? : PyValue → Option (PyNum × PyNum)
  | .seq _ [low, high] =>
      match low.asNumber?, high.asNumber? with
      | some a, some b => some (a, b)
      | _, _ => none
  | _ => none

def withinRange (resolved expected : PyValue) (tolerance : Option PyFloat) :
    Except PyError OperatorOutcome :=
  match resolved.asNumber? with
  | none => unknownTypeMismatch .authoring [("observed", resolved), ("expected", expected)]
  | some x => do
      match rangeBounds? (← canon expected) with
      | none => unknownTypeMismatch .authoring [("observed", resolved), ("expected", expected)]
      | some (a, b) =>
          let tol := toleranceOrZero tolerance
          let low ← a.subFloat tol
          let high ← b.addFloat tol
          booleanOutcome (low.le x && x.le high)
            [("observed", resolved), ("expected", expected), ("lower", PyNum.toPy low),
              ("upper", PyNum.toPy high), ("tolerance", .float tol)]

/-- `except TypeError`. -/
def catchTypeError (action handler : Except PyError OperatorOutcome) :
    Except PyError OperatorOutcome :=
  match action with
  | .error .typeError => handler
  | outcome => outcome

/-- The dispatch inside `evaluate_pure_operator`. An operator outside `PURE_OPERATORS` is
an `AssertionError` in the source and never reaches it. -/
def pureDispatch (operator : Operator) (resolved expected : PyValue)
    (tolerance : Option PyFloat) : Except PyError OperatorOutcome :=
  match operator with
  | .equals => do
      let satisfied := (← canon resolved).eq (← canon expected)
      booleanOutcome satisfied [("observed", resolved), ("expected", expected)]
  | .notEquals => do
      let satisfied := !(← canon resolved).eq (← canon expected)
      booleanOutcome satisfied [("observed", resolved), ("expected", expected)]
  | .includesAll => includesAll resolved expected
  | .includesAny => includesAny resolved expected
  | .excludesAll => excludesAll resolved expected
  | .subsetOf => subsetOf resolved expected
  | .supersetOf => supersetOf resolved expected
  | .lessThan => numericCompare resolved expected tolerance .lt
  | .lessThanOrEqual => numericCompare resolved expected tolerance .le
  | .greaterThan => numericCompare resolved expected tolerance .gt
  | .greaterThanOrEqual => numericCompare resolved expected tolerance .ge
  | .withinRange => withinRange resolved expected tolerance
  | _ => unknownTypeMismatch .evaluatorInternal []

def evaluatePureOperator (operator : Operator) (resolved expected : PyValue)
    (tolerance : Option PyFloat) : Except PyError OperatorOutcome :=
  catchTypeError (pureDispatch operator resolved expected tolerance)
    (unknownTypeMismatch .evaluatorInternal [("observed", resolved), ("expected", expected)])

/-! ## Baseline operators -/

def baselineBooleanOutcome (satisfied : Bool) (baseline candidate : PyValue) :
    Except PyError OperatorOutcome :=
  booleanOutcome satisfied [("baseline", baseline), ("candidate", candidate)]

def equalsBaseline (baseline candidate : PyValue) : Except PyError OperatorOutcome := do
  if (← canon candidate).eq (← canon baseline) then
    baselineBooleanOutcome true baseline candidate
  else
    match ← collectionItems baseline, ← collectionItems candidate with
    | some baselineItems, some candidateItems =>
        let added := candidateItems.filter fun item => !item.elem baselineItems
        let removed := baselineItems.filter fun item => !item.elem candidateItems
        setOutcome false ("baseline", baselineItems) ("candidate", candidateItems)
          [("added", added), ("removed", removed)]
    | _, _ => baselineBooleanOutcome false baseline candidate

/-- The frame of the three set operators against the baseline: `detail` names the items of
`left` that are not among `right`, and the outcome is satisfied when there are none. -/
def onBaselineCollections (baseline candidate : PyValue) (detail : String)
    (offending : List PyValue → List PyValue → List PyValue) :
    Except PyError OperatorOutcome := do
  match ← collectionItems baseline, ← collectionItems candidate with
  | some baselineItems, some candidateItems =>
      let items := offending baselineItems candidateItems
      setOutcome items.isEmpty ("baseline", baselineItems) ("candidate", candidateItems)
        [(detail, items)]
  | _, _ => unknownTypeMismatch .authoring [("baseline", baseline), ("candidate", candidate)]

def baselineSupersetOf (baseline candidate : PyValue) : Except PyError OperatorOutcome :=
  onBaselineCollections baseline candidate "missing" fun baselineItems candidateItems =>
    baselineItems.filter fun item => !item.elem candidateItems

def noNewItems (baseline candidate : PyValue) : Except PyError OperatorOutcome :=
  onBaselineCollections baseline candidate "extra" fun baselineItems candidateItems =>
    candidateItems.filter fun item => !item.elem baselineItems

def noRemovedItems (baseline candidate : PyValue) : Except PyError OperatorOutcome :=
  onBaselineCollections baseline candidate "missing" fun baselineItems candidateItems =>
    baselineItems.filter fun item => !item.elem candidateItems

/-- The dispatch inside `evaluate_baseline_operator`. -/
def baselineDispatch (operator : Operator) (baseline candidate : PyValue) :
    Except PyError OperatorOutcome :=
  match operator with
  | .equalsBaseline | .unchanged => equalsBaseline baseline candidate
  | .notEqualsBaseline | .changed => do
      let satisfied := !(← canon candidate).eq (← canon baseline)
      baselineBooleanOutcome satisfied baseline candidate
  | .supersetOfBaseline => baselineSupersetOf baseline candidate
  | .noNewItems => noNewItems baseline candidate
  | .noRemovedItems => noRemovedItems baseline candidate
  | _ => unknownTypeMismatch .evaluatorInternal []

def evaluateBaselineOperator (operator : Operator) (baseline candidate : PyValue) :
    Except PyError OperatorOutcome :=
  catchTypeError (baselineDispatch operator baseline candidate)
    (unknownTypeMismatch .evaluatorInternal [("baseline", baseline), ("candidate", candidate)])

end SemanticCi.Operators
