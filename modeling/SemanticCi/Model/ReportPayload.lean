import SemanticCi.Model.RepairPlan
import SemanticCi.Model.SecurityPolicy

/-! The payload of a report (`cli/output/json_formatter.py`): the texts and JSON values that a
renderer reads. -/

namespace SemanticCi.Report

open SemanticCi.Python SemanticCi.Framework SemanticCi.Compiler SemanticCi.Operators
  SemanticCi.Evaluator SemanticCi.Repair SemanticCi.Sensor

/-! ## JSON values -/

/-- A `dict` comprehension over pairs: of equal keys the first place and the last value stay. -/
def dictOf (pairs : List (String × PyValue)) : PyValue :=
  .dict ((OrderedDict.ofPairs pairs).entries.map fun entry => (.str entry.1, entry.2))

mutual

/-- `_json_canonical_value`. -/
def jsonCanonicalValue : PyValue → PyValue
  | .seq .canonicalMapping items => dictOf (jsonCanonicalItems items)
  | .seq _ items => .list (jsonCanonicalValues items)
  | .dict items => .dict (jsonCanonicalPairs items)
  | value => value

/-- The items of a `CanonicalMapping`, which are pairs under an atom. -/
def jsonCanonicalItems : List PyValue → List (String × PyValue)
  | [] => []
  | .seq _ [.scalar key, item] :: rest =>
    (keyText key, jsonCanonicalValue item) :: jsonCanonicalItems rest
  | _ :: rest => jsonCanonicalItems rest

def jsonCanonicalValues : List PyValue → List PyValue
  | [] => []
  | item :: rest => jsonCanonicalValue item :: jsonCanonicalValues rest

def jsonCanonicalPairs : List (PyScalar × PyValue) → List (PyScalar × PyValue)
  | [] => []
  | (key, item) :: rest => (key, jsonCanonicalValue item) :: jsonCanonicalPairs rest

end

/-- `_pairs_to_dict`. -/
def pairsToDict (pairs : Evidence) : PyValue :=
  dictOf (pairs.map fun pair => (pair.1, jsonCanonicalValue pair.2))

/-! ## Texts of the enumerations -/

def severityValue : Framework.Severity → String
  | .hard => "hard"
  | .soft => "soft"
  | .info => "info"

def unknownPolicyValue : UnknownPolicy → String
  | .fail => "fail"
  | .repair => "repair"
  | .warn => "warn"
  | .ignore => "ignore"

def resultStatusValue : ResultStatus → String
  | .satisfied => "satisfied"
  | .violated => "violated"
  | .unknown => "unknown"
  | .skipped => "skipped"

def verdictValue : VerdictResult → String
  | .pass => "pass"
  | .repair => "repair"
  | .fail => "fail"

def securitySeverityText : SecuritySeverity → String
  | .critical => "critical"
  | .high => "high"
  | .medium => "medium"
  | .low => "low"
  | .info => "info"

/-! ## Results and instructions -/

structure ResultPayload where
  constraintId : String
  source : String
  kind : String
  target : String
  operator : String
  severity : String
  unknownPolicy : String
  status : String
  errorCode : Option String
  unknownCause : Option String
  evidence : PyValue

/-- `_serialize_constraint_result`. -/
def serializeConstraintResult (result : ConstraintResult) : ResultPayload where
  constraintId := result.constraintId
  source := result.source.value
  kind := kindValue result.kind
  target := result.target.text
  operator := result.operator.value
  severity := severityValue result.severity
  unknownPolicy := unknownPolicyValue result.unknownPolicy
  status := resultStatusValue result.status
  errorCode := result.errorCode.map (·.value)
  unknownCause := result.unknownCause.map causeValue
  evidence := pairsToDict result.evidence

structure InstructionPayload where
  constraintId : String
  repairCode : String
  category : String
  message : String
  observed : PyValue
  extraEvidence : PyValue

/-- `_serialize_repair_instruction`. -/
def serializeRepairInstruction (instruction : RepairInstruction) : InstructionPayload where
  constraintId := instruction.constraintId
  repairCode := instruction.repairCode.value
  category := instruction.category.value
  message := instruction.message
  observed := jsonCanonicalValue instruction.observed
  extraEvidence := pairsToDict instruction.extraEvidence

/-! ## Security -/

/-- A dumped finding. The last four keys belong to some categories only. -/
structure FindingPayload where
  category : String
  sensorId : String
  canonicalId : String
  severity : String
  message : String
  ruleId : Option String := none
  advisoryId : Option String := none
  modulePath : Option String := none
  sourceSpan : Option Ssp.SourceSpan := none

structure SensorPayload where
  sensorId : String
  status : String
  added : List FindingPayload
  driftReason : Option String
  provenanceChanged : Bool

structure SecurityPayload where
  globalCountViolated : Bool
  sensors : List SensorPayload

section Security

variable {Digest Date : Type} {digest : List Ssp.Component → Digest} (hex : Digest → String)

/-- `f"{version}:{digest}"`. -/
def canonicalIdText (canonicalId : CanonicalId Digest) : String :=
  (ofLex canonicalId).1 ++ ":" ++ hex (ofLex canonicalId).2

/-- `_serialize_security_finding`. -/
def serializeSecurityFinding : SecurityFinding digest → FindingPayload
  | .sast finding =>
    { category := "sast"
      sensorId := finding.sensorId
      canonicalId := canonicalIdText hex finding.canonicalId
      severity := securitySeverityText finding.severity
      message := finding.message
      ruleId := some finding.ruleId
      modulePath := some finding.modulePath
      sourceSpan := finding.sourceSpan }
  | .sca finding =>
    { category := "sca"
      sensorId := finding.sensorId
      canonicalId := canonicalIdText hex finding.canonicalId
      severity := securitySeverityText finding.severity
      message := finding.message
      advisoryId := some finding.advisoryId }
  | .llm finding =>
    { category := "llm"
      sensorId := finding.sensorId
      canonicalId := canonicalIdText hex finding.canonicalId
      severity := securitySeverityText finding.severity
      message := finding.message
      modulePath := some finding.modulePath
      sourceSpan := finding.sourceSpan }

/-- The entry of one sensor. -/
def serializeSensor (sensor : SecuritySensorResult digest) : SensorPayload where
  sensorId := sensor.sensorId
  status := statusText sensor.status
  added := sensor.added.map (serializeSecurityFinding hex)
  driftReason := sensor.driftReason
  provenanceChanged := sensor.provenanceChanged

/-- `_serialize_security_detail`. -/
def serializeSecurityDetail (detail : SecuritySuiteResult digest Date) : SecurityPayload where
  globalCountViolated := detail.globalCountViolated
  sensors := detail.sensors.map (serializeSensor hex)

/-! ## The payload -/

/-- The versions of the interpreter and the package. -/
structure Engine where
  extractorPyver : String
  packageVersion : String

structure Payload where
  subcommand : String
  mode : Option String
  verdict : Option String
  security : Option SecurityPayload
  results : List ResultPayload
  repairPlan : Option (List InstructionPayload)
  engine : Engine

/-- `build_payload`. -/
def buildPayload (engine : Engine) (subcommand : String) (verdict : Option Verdict := none)
    (repairPlan : Option RepairPlan := none) (mode : Option String := none)
    (securityDetail : Option (SecuritySuiteResult digest Date) := none) : Payload where
  subcommand := subcommand
  mode := mode
  verdict := verdict.map (verdictValue ·.result)
  security := securityDetail.map (serializeSecurityDetail hex)
  results :=
    match verdict with
    | some verdict => verdict.results.map serializeConstraintResult
    | none => []
  repairPlan := repairPlan.map fun plan => plan.instructions.map serializeRepairInstruction
  engine := engine

end Security

end SemanticCi.Report
