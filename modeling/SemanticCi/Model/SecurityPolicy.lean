import SemanticCi.Model.SecurityDelta

/-! The `security:` namespace of a target (`framework/security_policy.py`) and its evaluation
over two sensor states (`suite/security.py`). -/

namespace SemanticCi.Sensor

open OrderedDict Ssp

/-! ## The policy -/

structure SeverityFilter where
  notIn : List SecuritySeverity := []

structure AddedFindingsPolicy where
  severity : Option SeverityFilter := none
  maxCount : Option ℕ := none

structure FindingsPolicy where
  added : Option AddedFindingsPolicy := none

structure RulesPolicy where
  denyAdded : List String := []

structure ScannerPolicy where
  requireSameRuleset : Bool := true
  requireSameSensorVersion : Bool := false
  requireSameAdvisoryDb : Bool := true

/-- A suppression ends with its last day. -/
structure Suppression (Digest Date : Type) where
  canonicalId : CanonicalId Digest
  identityComponents : List String
  expires : Date

structure SecurityPolicy (Digest Date : Type) where
  findings : Option FindingsPolicy := none
  rules : Option RulesPolicy := none
  scanner : Option ScannerPolicy := none
  suppressions : List (Suppression Digest Date) := []

section Policies

variable {Digest Date : Type}

/-- `_ALWAYS_DRIFT_FIELDS`. -/
def alwaysDriftFields : Finset ProvenanceField := {.adapterVersion, .identityAlgorithmVersion}

/-- `_drift_fields_for_scanner`. -/
def driftFieldsForScanner : Option ScannerPolicy → Finset ProvenanceField
  | none => defaultDriftFields
  | some scanner =>
    alwaysDriftFields ∪ (if scanner.requireSameRuleset then {.rulesetHash} else ∅) ∪
      (if scanner.requireSameSensorVersion then {.sensorVersion} else ∅) ∪
      (if scanner.requireSameAdvisoryDb then {.advisoryDbHash} else ∅)

/-- The drift fields of a policy. -/
def policyDriftFields (policy : Option (SecurityPolicy Digest Date)) : Finset ProvenanceField :=
  driftFieldsForScanner (policy.bind (·.scanner))

def policySuppressions (policy : Option (SecurityPolicy Digest Date)) :
    List (Suppression Digest Date) :=
  match policy with
  | none => []
  | some policy => policy.suppressions

/-- `_active_suppression_ids`. -/
def activeSuppressionIds [LE Date] [DecidableLE Date]
    (suppressions : List (Suppression Digest Date)) (asOf : Date) : List (CanonicalId Digest) :=
  (suppressions.filter fun suppression => asOf ≤ suppression.expires).map (·.canonicalId)

/-- `_effective_fail_severities`. -/
def effectiveFailSeverities (policy : Option (SecurityPolicy Digest Date)) :
    List SecuritySeverity :=
  match policy with
  | none => failSeverities
  | some policy =>
    match policy.findings.bind (·.added) with
    | none => failSeverities
    | some addedPolicy =>
      match addedPolicy.severity with
      | none => failSeverities
      | some severity => if severity.notIn ≠ [] then severity.notIn else failSeverities

/-- The denied rules of a policy. -/
def deniedRules (policy : Option (SecurityPolicy Digest Date)) : List String :=
  match policy.bind (·.rules) with
  | none => []
  | some rules => rules.denyAdded

/-- The bound on the added findings of all sensors. -/
def maxAddedCount (policy : Option (SecurityPolicy Digest Date)) : Option ℕ :=
  ((policy.bind (·.findings)).bind (·.added)).bind (·.maxCount)

/-- `_violates_global_count_policy`. -/
def violatesGlobalCountPolicy (policy : Option (SecurityPolicy Digest Date))
    (totalAddedCount : ℕ) : Bool :=
  match maxAddedCount policy with
  | none => false
  | some maxCount => maxCount < totalAddedCount

end Policies

/-! ## The evaluation -/

section Evaluation

variable {Digest Date : Type} (digest : List Component → Digest)

structure SecuritySensorResult where
  sensorId : String
  status : SecurityDeltaStatus
  added : List (SecurityFinding digest)
  removed : List (SecurityFinding digest)
  suppressed : List (SecurityFinding digest)
  driftReason : Option String
  provenanceChanged : Bool
  unchangedCount : ℕ

structure SecuritySuiteResult (Date : Type) where
  status : SecurityDeltaStatus
  asOf : Date
  sensors : List (SecuritySensorResult digest)
  globalCountViolated : Bool

variable {digest}

/-- `isinstance(finding, SASTSecurityFinding) and finding.rule_id in denied`. -/
def SecurityFinding.isDenied (denied : List String) : SecurityFinding digest → Bool
  | .sast finding => finding.ruleId ∈ denied
  | _ => false

/-- `_violates_finding_policy`. -/
def violatesFindingPolicy (policy : Option (SecurityPolicy Digest Date))
    (added : List (SecurityFinding digest)) : Bool :=
  if added.any fun finding => finding.severity ∈ effectiveFailSeverities policy then true
  else
    let denied := deniedRules policy
    denied ≠ [] ∧ added.any (·.isDenied denied)

/-- `_status_for_added`. -/
def statusForAdded (policy : Option (SecurityPolicy Digest Date))
    (added : List (SecurityFinding digest)) : SecurityDeltaStatus :=
  if violatesFindingPolicy policy added then .fail else .pass

variable [LinearOrder Digest]

/-- `_validate_suppressions`. -/
def validateSuppressions (digest : List Component → Digest)
    (suppressions : List (Suppression Digest Date)) : Except ModelError Unit :=
  suppressions.forM fun suppression => do
    let expected ← canonicalIdForIdentity digest suppression.identityComponents
    if suppression.canonicalId ≠ expected then throw .suppressionIdentity

/-- The body of the loop over the sensors. -/
def sensorResult (policy : Option (SecurityPolicy Digest Date))
    (activeSuppressionIds : List (CanonicalId Digest)) (sensorId : String)
    (perSensor : PerSensorDelta digest) : SecuritySensorResult digest :=
  if perSensor.status = .unknown then
    { sensorId := sensorId
      status := .unknown
      added := []
      removed := perSensor.removed
      suppressed := []
      driftReason := perSensor.errorMessage
      provenanceChanged := perSensor.provenanceChanged
      unchangedCount := perSensor.unchangedCount }
  else
    let suppressed := perSensor.added.filter fun finding =>
      finding.canonicalId ∈ activeSuppressionIds
    let added := perSensor.added.filter fun finding =>
      finding.canonicalId ∉ activeSuppressionIds
    { sensorId := sensorId
      status := statusForAdded policy added
      added := added
      removed := perSensor.removed
      suppressed := suppressed
      driftReason := perSensor.errorMessage
      provenanceChanged := perSensor.provenanceChanged
      unchangedCount := perSensor.unchangedCount }

/-- What the evaluation makes of a delta. -/
def evaluateDelta [LE Date] [DecidableLE Date] (policy : Option (SecurityPolicy Digest Date))
    (asOf : Date) (delta : SecurityDelta digest) : SecuritySuiteResult digest Date :=
  let active := activeSuppressionIds (policySuppressions policy) asOf
  let sensors := (delta.deltasBySensor.keys.insertionSort (· ≤ ·)).filterMap fun sensorId =>
    (delta.deltasBySensor.get? sensorId).map (sensorResult policy active sensorId)
  let totalAddedCount := (sensors.map (·.added.length)).sum
  let globalCountViolated := violatesGlobalCountPolicy policy totalAddedCount
  { status := aggregateStatus (sensors.map (·.status) ++ if globalCountViolated then [.fail] else [])
    asOf := asOf
    sensors := sensors
    globalCountViolated := globalCountViolated }

/-- `evaluate_security_detail`. -/
def evaluateSecurityDetail [LE Date] [DecidableLE Date]
    (policy : Option (SecurityPolicy Digest Date)) (baseline candidate : SensorState digest)
    (asOf : Date) : Except ModelError (SecuritySuiteResult digest Date) := do
  validateSuppressions digest (policySuppressions policy)
  let delta ← computeSecurityDelta baseline candidate (some (policyDriftFields policy))
  return evaluateDelta policy asOf delta

end Evaluation

end SemanticCi.Sensor
