import SemanticCi.Model.ReportPayload

/-! The JSON form of a repair plan (`cli/output/json_formatter.py`) and how it is restored
(`repair/serialization.py`). -/

namespace SemanticCi.Repair

open SemanticCi.Python SemanticCi.Framework SemanticCi.Compiler SemanticCi.Operators
  SemanticCi.Evaluator SemanticCi.Report

/-! ## Stored instructions -/

/-- A `RepairInstruction` with its texts, which need not be those of the emitter. -/
structure StoredInstruction where
  constraintId : String
  source : ConstraintSource
  kind : ConstraintKind
  target : String
  operator : Operator
  severity : Severity
  unknownPolicy : UnknownPolicy
  status : ResultStatus
  errorCode : Option String
  repairCode : String
  category : RepairCategory
  message : String
  observed : PyValue
  expected : PyValue
  added : List PyValue
  removed : List PyValue
  missing : List PyValue
  extra : List PyValue
  extraEvidence : Evidence
  unknownCause : Option UnknownCause

structure StoredPlan where
  result : VerdictResult
  instructions : List StoredInstruction

def RepairInstruction.stored (i : RepairInstruction) : StoredInstruction where
  constraintId := i.constraintId
  source := i.source
  kind := i.kind
  target := i.target.text
  operator := i.operator
  severity := i.severity
  unknownPolicy := i.unknownPolicy
  status := i.status
  errorCode := i.errorCode.map (·.value)
  repairCode := i.repairCode.value
  category := i.category
  message := i.message
  observed := i.observed
  expected := i.expected
  added := i.added
  removed := i.removed
  missing := i.missing
  extra := i.extra
  extraEvidence := i.extraEvidence
  unknownCause := i.unknownCause

def RepairPlan.stored (plan : RepairPlan) : StoredPlan where
  result := plan.result
  instructions := plan.instructions.map RepairInstruction.stored

/-! ## Serialization -/

/-- The entries of `_serialize_repair_instruction`. -/
def instructionEntries (i : StoredInstruction) : List (String × PyValue) :=
  [("constraint_id", .str i.constraintId),
    ("source", .str i.source.value),
    ("kind", .str (kindValue i.kind)),
    ("target", .str i.target),
    ("operator", .str i.operator.value),
    ("severity", .str (severityValue i.severity)),
    ("unknown_policy", .str (unknownPolicyValue i.unknownPolicy)),
    ("status", .str (resultStatusValue i.status)),
    ("error_code", optionalText i.errorCode),
    ("unknown_cause", optionalText (i.unknownCause.map causeValue)),
    ("repair_code", .str i.repairCode),
    ("category", .str i.category.value),
    ("message", .str i.message),
    ("observed", jsonCanonicalValue i.observed),
    ("expected", jsonCanonicalValue i.expected),
    ("added", .list (i.added.map jsonCanonicalValue)),
    ("removed", .list (i.removed.map jsonCanonicalValue)),
    ("missing", .list (i.missing.map jsonCanonicalValue)),
    ("extra", .list (i.extra.map jsonCanonicalValue)),
    ("extra_evidence", pairsToDict i.extraEvidence)]

/-- A mapping with these texts as its keys. -/
def textDict (entries : List (String × PyValue)) : PyValue :=
  .dict (entries.map fun entry => (.str entry.1, entry.2))

/-- `_serialize_repair_instruction`. -/
def serializeInstruction (i : StoredInstruction) : PyValue := textDict (instructionEntries i)

/-- `_serialize_repair_plan`. -/
def serializeRepairPlan (plan : StoredPlan) : PyValue :=
  textDict
    [("result", .str (verdictValue plan.result)),
      ("instructions", .list (plan.instructions.map serializeInstruction))]

/-! ## Restoring -/

/-- What restoring can raise. -/
inductive RestoreError where
  /-- A `ValueError`. -/
  | value (text : String)
  /-- A `TypeError`: keys of a mapping that do not compare. -/
  | type
deriving DecidableEq

/-- `str(value)`. -/
def pyText : PyValue → String
  | .scalar (.str s) => s
  | value => value.repr

/-- `payload.get(key)`. -/
def payloadGet? (payload : List (PyScalar × PyValue)) (key : String) : Option PyValue :=
  (payload.find? fun item => item.1 = .str key).map Prod.snd

/-- `_required`. -/
def required (payload : List (PyScalar × PyValue)) (key : String) :
    Except RestoreError PyValue :=
  match payloadGet? payload key with
  | some value => .ok value
  | none => .error (.value s!"missing required key: {key}")

/-- `_optional_str(payload.get(key))`. -/
def optionalStr : Option PyValue → Option String
  | none | some (.scalar .none) => none
  | some value => some (pyText value)

def spells (raw : PyValue) (text : String) : Bool :=
  match raw with
  | .scalar (.str s) => s = text
  | _ => false

/-- An enumeration called on a value. -/
def enumOf {α : Type} (name : String) (members : List α) (text : α → String) (raw : PyValue) :
    Except RestoreError α :=
  match members.find? fun member => spells raw (text member) with
  | some member => .ok member
  | none => .error (.value s!"{raw.repr} is not a valid {name}")

/-- `sorted(mapping.items())`. -/
def sortedItems {α : Type} (items : List (PyScalar × α)) :
    Except RestoreError (List (PyScalar × α)) :=
  match sortByKey items with
  | .ok sorted => .ok sorted
  | .error _ => .error .type

mutual

/-- `_restore_json`. -/
def restoreJson : PyValue → Except RestoreError PyValue
  | .seq _ items => do return .tuple (← restoreList items)
  | .dict items => do
      let sorted ← sortedItems (← restorePairs items)
      return dictOf (sorted.map fun item => (keyText item.1, item.2))
  | value => .ok value

def restoreList : List PyValue → Except RestoreError (List PyValue)
  | [] => .ok []
  | x :: xs => do
      let y ← restoreJson x
      let ys ← restoreList xs
      return y :: ys

def restorePairs : List (PyScalar × PyValue) → Except RestoreError (List (PyScalar × PyValue))
  | [] => .ok []
  | (k, v) :: rest => do
      let w ← restoreJson v
      let ws ← restorePairs rest
      return (k, w) :: ws

end

/-- `_tuple_field`. -/
def tupleField (payload : List (PyScalar × PyValue)) (key : String) :
    Except RestoreError (List PyValue) := do
  match ← required payload key with
  | .seq _ items => restoreList items
  | _ => .error (.value s!"{key} must be a list")

/-- `_extra_evidence`. -/
def restoreExtraEvidence (payload : List (PyScalar × PyValue)) : Except RestoreError Evidence := do
  match ← required payload "extra_evidence" with
  | .dict items =>
      (← sortedItems items).mapM fun item => do
        return (keyText item.1, ← restoreJson item.2)
  | _ => .error (.value "extra_evidence must be an object")

/-- `_restore_json(payload.get(key))`. -/
def restoreField (payload : List (PyScalar × PyValue)) (key : String) :
    Except RestoreError PyValue :=
  restoreJson ((payloadGet? payload key).getD .none)

/-- `_optional_unknown_cause`. -/
def optionalUnknownCause : Option PyValue → Except RestoreError (Option UnknownCause)
  | none | some (.scalar .none) => .ok none
  | some raw => do
      let cause ← enumOf "UnknownCause"
        [UnknownCause.authoring, .extraction, .openRuntime, .evaluatorInternal] causeValue raw
      return some cause

/-- `_deserialize_instruction`. -/
def deserializeInstruction : PyValue → Except RestoreError StoredInstruction
  | .dict payload => do
      return {
        constraintId := pyText (← required payload "constraint_id")
        source := ← enumOf "ConstraintSource" [.template, .user] ConstraintSource.value
          (← required payload "source")
        kind := ← enumOf "ConstraintKind" [.state, .delta, .repair] kindValue
          (← required payload "kind")
        target := pyText (← required payload "target")
        operator := ← enumOf "Operator"
          [.equals, .notEquals, .equalsBaseline, .notEqualsBaseline, .includesAll, .includesAny,
            .excludesAll, .subsetOf, .supersetOf, .supersetOfBaseline, .noNewItems,
            .noRemovedItems, .lessThan, .lessThanOrEqual, .greaterThan, .greaterThanOrEqual,
            .withinRange, .unchanged, .changed, .changedOnlyIn] Operator.value
          (← required payload "operator")
        severity := ← enumOf "Severity" [.hard, .soft, .info] severityValue
          (← required payload "severity")
        unknownPolicy := ← enumOf "UnknownPolicy" [.fail, .repair, .warn, .ignore]
          unknownPolicyValue (← required payload "unknown_policy")
        status := ← enumOf "ResultStatus" [.satisfied, .violated, .unknown, .skipped]
          resultStatusValue (← required payload "status")
        errorCode := optionalStr (payloadGet? payload "error_code")
        repairCode := pyText (← required payload "repair_code")
        category := ← enumOf "RepairCategory" [.fixRequired, .suggested, .info, .unresolved]
          RepairCategory.value (← required payload "category")
        message := pyText (← required payload "message")
        observed := ← restoreField payload "observed"
        expected := ← restoreField payload "expected"
        added := ← tupleField payload "added"
        removed := ← tupleField payload "removed"
        missing := ← tupleField payload "missing"
        extra := ← tupleField payload "extra"
        extraEvidence := ← restoreExtraEvidence payload
        unknownCause := ← optionalUnknownCause (payloadGet? payload "unknown_cause") }
  | _ => .error (.value "RepairInstruction payload must be a JSON object")

/-- `deserialize_repair_plan`. -/
def deserializeRepairPlan : PyValue → Except RestoreError StoredPlan
  | .dict payload => do
      let result ← enumOf "VerdictResult" [VerdictResult.pass, .repair, .fail] verdictValue
        (← required payload "result")
      match ← required payload "instructions" with
      | .seq .list items => return { result, instructions := ← items.mapM deserializeInstruction }
      | _ => .error (.value "RepairPlan.instructions must be a list")
  | _ => .error (.value "RepairPlan payload must be a JSON object")

end SemanticCi.Repair
