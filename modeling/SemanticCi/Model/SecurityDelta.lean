import Mathlib.Data.Finset.Sort
import SemanticCi.Model.Sensor

/-! `sensor/delta.py`: the delta of two sensor states by canonical id. -/

namespace SemanticCi.Sensor

open OrderedDict Ssp

/-! ## Provenance drift -/

/-- The attributes of a `SensorProvenance`. -/
inductive ProvenanceField
  | sensorId
  | sensorVersion
  | adapterVersion
  | identityAlgorithmVersion
  | rulesetHash
  | advisoryDbHash
  | modelId
  | promptHash
  | nonReproducible
  | status
  | errorMessage
deriving DecidableEq, Repr

namespace ProvenanceField

def name : ProvenanceField → String
  | sensorId => "sensor_id"
  | sensorVersion => "sensor_version"
  | adapterVersion => "adapter_version"
  | identityAlgorithmVersion => "identity_algorithm_version"
  | rulesetHash => "ruleset_hash"
  | advisoryDbHash => "advisory_db_hash"
  | modelId => "model_id"
  | promptHash => "prompt_hash"
  | nonReproducible => "non_reproducible"
  | status => "status"
  | errorMessage => "error_message"

/-- `getattr(baseline, field) != getattr(candidate, field)`. -/
def differs (baseline candidate : SensorProvenance) : ProvenanceField → Bool
  | sensorId => baseline.sensorId ≠ candidate.sensorId
  | sensorVersion => baseline.sensorVersion ≠ candidate.sensorVersion
  | adapterVersion => baseline.adapterVersion ≠ candidate.adapterVersion
  | identityAlgorithmVersion =>
    baseline.identityAlgorithmVersion ≠ candidate.identityAlgorithmVersion
  | rulesetHash => baseline.rulesetHash ≠ candidate.rulesetHash
  | advisoryDbHash => baseline.advisoryDbHash ≠ candidate.advisoryDbHash
  | modelId => baseline.modelId ≠ candidate.modelId
  | promptHash => baseline.promptHash ≠ candidate.promptHash
  | nonReproducible => baseline.nonReproducible ≠ candidate.nonReproducible
  | status => baseline.status ≠ candidate.status
  | errorMessage => baseline.errorMessage ≠ candidate.errorMessage

end ProvenanceField

def defaultDriftFields : Finset ProvenanceField :=
  {.rulesetHash, .advisoryDbHash, .adapterVersion, .identityAlgorithmVersion}

local instance stringLeTrans : IsTrans String fun a b => a ≤ b := inferInstance

local instance stringLeAntisymm : Std.Antisymm fun a b : String => a ≤ b := inferInstance

/-- The names of the drift fields that changed, sorted. -/
def changedFields (baseline candidate : SensorProvenance) (driftFields : Finset ProvenanceField) :
    List String :=
  ((driftFields.filter fun field => field.differs baseline candidate).image
    ProvenanceField.name).sort (· ≤ ·)

/-- `_provenance_drift_reason`. -/
def provenanceDriftReason (baseline candidate : Option SensorProvenance)
    (driftFields : Finset ProvenanceField) : Option String :=
  match baseline, candidate with
  | some b, some c =>
    match changedFields b c driftFields with
    | [] => none
    | changed => some ("sensor provenance changed: " ++ ", ".intercalate changed)
  | _, _ => some "sensor exists on only one side"

/-! ## The engine -/

section Engine

variable {Digest : Type} {digest : List Component → Digest}

/-- `_findings_for_sensor`. -/
def findingsForSensor (state : StateData digest) (sensorId : String) :
    List (SecurityFinding digest) :=
  state.findings.filter fun finding => finding.sensorId = sensorId

/-- `_reject_llm_findings`. -/
def rejectLlmFindings (state : StateData digest) : Except ModelError Unit :=
  if state.findings.any (·.isLlm) then .error .llmFindings else .ok ()

/-- `advisory_sensor_ids`. -/
def advisorySensorIds (state : StateData digest) : List String :=
  (state.provenanceBySensor.entries.filter fun entry => entry.2.nonReproducible).map Prod.fst

variable [LinearOrder Digest]

/-- `{finding.canonical_id: finding for finding in findings}`. -/
def byCanonicalId (findings : List (SecurityFinding digest)) :
    OrderedDict (CanonicalId Digest) (SecurityFinding digest) :=
  ofPairs (findings.map fun finding => (finding.canonicalId, finding))

/-- The state without the sensors of `advisory_sensor_ids`. -/
def verdictData (state : StateData digest) : StateData digest where
  identityAlgorithmVersion := state.identityAlgorithmVersion
  provenanceBySensor := state.provenanceBySensor.filter fun entry =>
    entry.1 ∉ advisorySensorIds state
  findings := state.findings.filter fun finding => finding.sensorId ∉ advisorySensorIds state

/-- `_without_advisory_data`. -/
def withoutAdvisoryData (state : SensorState digest) : Except ModelError (SensorState digest) :=
  if advisorySensorIds state.toStateData = [] then .ok state
  else if state.findings.any fun finding =>
      finding.sensorId ∈ advisorySensorIds state.toStateData ∧ ¬ finding.isLlm then
    .error .mixedFindings
  else (verdictData state.toStateData).build

/-- `_per_sensor_delta`. -/
def perSensorDelta (sensorId : String) (baselineProvenance candidateProvenance :
    Option SensorProvenance) (baselineFindings candidateFindings : List (SecurityFinding digest))
    (driftFields : Finset ProvenanceField) : Except ModelError (PerSensorDelta digest) :=
  match provenanceDriftReason baselineProvenance candidateProvenance driftFields,
      baselineProvenance, candidateProvenance with
  | none, some baseline, some candidate =>
    if baseline.status ≠ .complete ∨ candidate.status ≠ .complete then
      PerSensorDelta.build
        { sensorId := sensorId
          status := .unknown
          unchangedCount := 0
          errorMessage := some (((candidate.errorMessage.filter (· ≠ "")).or
            (baseline.errorMessage.filter (· ≠ ""))).getD "sensor did not complete") }
    else
      let baselineById := byCanonicalId baselineFindings
      let candidateById := byCanonicalId candidateFindings
      let added := missingValues candidateById baselineById
      let removed := missingValues baselineById candidateById
      PerSensorDelta.build
        { sensorId := sensorId
          status := if added.any fun finding => finding.severity ≠ .info then .fail else .pass
          added := added
          removed := removed
          unchangedCount := (sortedCommonKeys baselineById candidateById).length }
  | reason, _, _ =>
    PerSensorDelta.build
      { sensorId := sensorId
        status := .unknown
        unchangedCount := 0
        provenanceChanged := true
        errorMessage := reason }

/-- The sensors of both states, sorted. -/
def sensorIds (baseline candidate : StateData digest) : List String :=
  ((baseline.provenanceBySensor.keys ++ candidate.provenanceBySensor.keys).dedup).insertionSort
    (· ≤ ·)

/-- The delta of one sensor of two states. -/
def sensorDelta (baseline candidate : StateData digest) (driftFields : Finset ProvenanceField)
    (sensorId : String) : Except ModelError (PerSensorDelta digest) :=
  perSensorDelta sensorId (baseline.provenanceBySensor.get? sensorId)
    (candidate.provenanceBySensor.get? sensorId) (findingsForSensor baseline sensorId)
    (findingsForSensor candidate sensorId) driftFields

/-- The part of `compute_security_delta` behind the two filters. -/
def verdictDelta (baseline candidate : StateData digest)
    (driftFields : Finset ProvenanceField) : Except ModelError (SecurityDelta digest) := do
  let deltas ← (sensorIds baseline candidate).mapM fun sensorId => do
    return (sensorId, ← sensorDelta baseline candidate driftFields sensorId)
  let deltasBySensor := ofPairs deltas
  SecurityDelta.build
    { deltasBySensor := deltasBySensor
      aggregateStatus := aggregateStatus (deltasBySensor.values.map (·.status)) }

/-- `compute_security_delta`. -/
def computeSecurityDelta (baseline candidate : SensorState digest)
    (driftFields : Option (Finset ProvenanceField)) : Except ModelError (SecurityDelta digest) := do
  rejectLlmFindings baseline.toStateData
  rejectLlmFindings candidate.toStateData
  let baseline ← withoutAdvisoryData baseline
  let candidate ← withoutAdvisoryData candidate
  verdictDelta baseline.toStateData candidate.toStateData (driftFields.getD defaultDriftFields)

end Engine

end SemanticCi.Sensor
