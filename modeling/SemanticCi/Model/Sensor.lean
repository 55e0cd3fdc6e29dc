import SemanticCi.Model.Ssp
import SemanticCi.Python.Value

/-! `sensor/models.py`: findings under canonical ids, the state of all sensors of one commit,
and the validators of states and deltas. -/

namespace SemanticCi.Sensor

open OrderedDict Python Ssp

/-! ## Literals -/

inductive IdentityAlgorithmVersion
  | v1
deriving DecidableEq, Repr

def IdentityAlgorithmVersion.text : IdentityAlgorithmVersion → String
  | .v1 => "v1"

inductive SensorRunStatus
  | complete
  | error
  | timeout
  | skipped
deriving DecidableEq, Repr

inductive LLMAnchorKind
  | presence
  | absence
deriving DecidableEq, Repr

def LLMAnchorKind.text : LLMAnchorKind → String
  | .presence => "presence"
  | .absence => "absence"

-- the literals and `FAIL_SEVERITIES` of `ssp/`, written again in the source
abbrev SecuritySeverity := Ssp.Severity

abbrev SecurityDeltaStatus := Ssp.SSPResult

def statusText : SecurityDeltaStatus → String
  | .pass => "pass"
  | .fail => "fail"
  | .unknown => "unknown"

/-! ## Errors -/

/-- What the validators and the delta engine raise. -/
inductive ModelError
  | emptyIdentity
  | provenanceKeys (mismatches : List (String × String))
  | versionMismatch
  | unsortedFindings
  | duplicateIds
  | unknownSensor (sensorId : String)
  | incompleteWithFindings
  | emptySensorId
  | provenanceChangedStatus
  | foreignFindings
  | unknownWithoutMessage
  | messageWithoutUnknown
  | passWithFailSeverity
  | failWithoutFailSeverity
  | deltaKeys (mismatches : List (String × String))
  | aggregateStatus (expected got : SecurityDeltaStatus)
  | llmFindings
  | mixedFindings
  | suppressionIdentity
deriving DecidableEq

def reprMismatches (mismatches : List (String × String)) : String :=
  (PyValue.list (mismatches.map fun m => .tuple [.str m.1, .str m.2])).repr

def ModelError.message : ModelError → String
  | .emptyIdentity => "identity_components must not be empty"
  | .provenanceKeys mismatches =>
    "provenance_by_sensor keys must match sensor_id: " ++ reprMismatches mismatches
  | .versionMismatch => "identity_algorithm_version must match all nested identities"
  | .unsortedFindings => "findings must be sorted by canonical_id"
  | .duplicateIds => "finding canonical_id values must be unique"
  | .unknownSensor sensorId => "finding references unknown sensor_id: " ++ sensorId
  | .incompleteWithFindings => "non-complete sensors must not include findings"
  | .emptySensorId => "String should have at least 1 character"
  | .provenanceChangedStatus => "provenance_changed requires status='unknown'"
  | .foreignFindings => "PerSensorDelta findings must match sensor_id"
  | .unknownWithoutMessage => "unknown PerSensorDelta requires error_message"
  | .messageWithoutUnknown => "non-unknown PerSensorDelta must not include error_message"
  | .passWithFailSeverity => "pass PerSensorDelta cannot include fail-severity added findings"
  | .failWithoutFailSeverity => "fail PerSensorDelta requires a fail-severity added finding"
  | .deltaKeys mismatches =>
    "deltas_by_sensor keys must match sensor_id: " ++ reprMismatches mismatches
  | .aggregateStatus expected got =>
    "aggregate_status must be " ++ (PyValue.str (statusText expected)).repr ++ ", got " ++
      (PyValue.str (statusText got)).repr
  | .llmFindings => "LLM findings are advisory-only and cannot enter verdict security delta"
  | .mixedFindings => "advisory-only sensors must not include verdict-bearing findings"
  | .suppressionIdentity => "suppression canonical_id does not match identity_components"

/-! ## Provenance -/

structure SensorProvenance where
  sensorId : String
  sensorVersion : String := ""
  adapterVersion : String := ""
  identityAlgorithmVersion : IdentityAlgorithmVersion := .v1
  rulesetHash : Option String := none
  advisoryDbHash : Option String := none
  modelId : Option String := none
  promptHash : Option String := none
  nonReproducible : Bool := false
  status : SensorRunStatus := .complete
  errorMessage : Option String := none
  sensorId_ne : sensorId ≠ ""
  complete_iff : status = .complete ↔ errorMessage = none

theorem completeWithoutError :
    SensorRunStatus.complete = .complete ↔ (none : Option String) = none := by simp

/-- Two provenances with the same data are one. -/
instance : DecidableEq SensorProvenance := fun a b =>
  decidable_of_iff
    (a.sensorId = b.sensorId ∧ a.sensorVersion = b.sensorVersion ∧
      a.adapterVersion = b.adapterVersion ∧
      a.identityAlgorithmVersion = b.identityAlgorithmVersion ∧
      a.rulesetHash = b.rulesetHash ∧ a.advisoryDbHash = b.advisoryDbHash ∧
      a.modelId = b.modelId ∧ a.promptHash = b.promptHash ∧
      a.nonReproducible = b.nonReproducible ∧ a.status = b.status ∧
      a.errorMessage = b.errorMessage)
    (by cases a; cases b; simp)

/-! ## Findings -/

/-- `f"{version}:{digest}"`. -/
abbrev CanonicalId (Digest : Type) := String ×ₗ Digest

section Findings

variable {Digest : Type} (digest : List Component → Digest)

/-- `canonical_id_for_identity`. -/
def canonicalIdForIdentity : List String → Except ModelError (CanonicalId Digest)
  | [] => .error .emptyIdentity
  | version :: rest => .ok (toLex (version, digest ((version :: rest).map Sum.inlₗ)))

structure SASTSecurityFinding where
  sensorId : String
  canonicalId : CanonicalId Digest
  identityComponents : List String
  severity : SecuritySeverity
  message : String := ""
  ruleId : String
  modulePath : String
  qualifiedName : String
  normalizedText : String
  ordinal : ℕ
  sourceSpan : Option SourceSpan := none
  sensorId_ne : sensorId ≠ ""
  ruleId_ne : ruleId ≠ ""
  modulePath_ne : modulePath ≠ ""
  modulePath_posix : posixPath modulePath = modulePath
  qualifiedName_ne : qualifiedName ≠ ""
  canonicalId_eq : canonicalIdForIdentity digest identityComponents = .ok canonicalId
  identity_eq : identityComponents = ["v1", "sast", sensorId, ruleId, modulePath, qualifiedName,
    normalizedText, toString ordinal]

structure SCASecurityFinding where
  sensorId : String
  canonicalId : CanonicalId Digest
  identityComponents : List String
  severity : SecuritySeverity
  message : String := ""
  packageName : String
  installedVersion : String
  advisoryId : String
  sensorId_ne : sensorId ≠ ""
  packageName_ne : packageName ≠ ""
  installedVersion_ne : installedVersion ≠ ""
  advisoryId_ne : advisoryId ≠ ""
  canonicalId_eq : canonicalIdForIdentity digest identityComponents = .ok canonicalId
  identity_eq : identityComponents = ["v1", "sca", sensorId, packageName, installedVersion,
    advisoryId]

structure LLMSecurityFinding where
  sensorId : String
  canonicalId : CanonicalId Digest
  identityComponents : List String
  severity : SecuritySeverity
  message : String := ""
  findingClass : String
  modulePath : String
  qualifiedName : String
  anchorKind : LLMAnchorKind
  expectedProperty : String := ""
  ordinal : ℕ
  sourceSpan : Option SourceSpan := none
  sensorId_ne : sensorId ≠ ""
  findingClass_ne : findingClass ≠ ""
  modulePath_ne : modulePath ≠ ""
  modulePath_posix : posixPath modulePath = modulePath
  qualifiedName_ne : qualifiedName ≠ ""
  canonicalId_eq : canonicalIdForIdentity digest identityComponents = .ok canonicalId
  identity_eq : identityComponents = ["v1", "llm", sensorId, findingClass, modulePath,
    qualifiedName, anchorKind.text, expectedProperty, toString ordinal]
  absence_iff : anchorKind = .absence ↔ expectedProperty ≠ ""

inductive SecurityFinding
  | sast (finding : SASTSecurityFinding digest)
  | sca (finding : SCASecurityFinding digest)
  | llm (finding : LLMSecurityFinding digest)

end Findings

namespace SecurityFinding

variable {Digest : Type} {digest : List Component → Digest}

def sensorId : SecurityFinding digest → String
  | sast f => f.sensorId
  | sca f => f.sensorId
  | llm f => f.sensorId

def canonicalId : SecurityFinding digest → CanonicalId Digest
  | sast f => f.canonicalId
  | sca f => f.canonicalId
  | llm f => f.canonicalId

def identityComponents : SecurityFinding digest → List String
  | sast f => f.identityComponents
  | sca f => f.identityComponents
  | llm f => f.identityComponents

def severity : SecurityFinding digest → SecuritySeverity
  | sast f => f.severity
  | sca f => f.severity
  | llm f => f.severity

/-- `isinstance(finding, LLMSecurityFinding)`. -/
def isLlm : SecurityFinding digest → Bool
  | llm _ => true
  | _ => false

end SecurityFinding

/-! ## States -/

section States

variable {Digest : Type} (digest : List Component → Digest)

/-- The arguments of a `SensorState`. -/
structure StateData where
  identityAlgorithmVersion : IdentityAlgorithmVersion := .v1
  provenanceBySensor : OrderedDict String SensorProvenance := OrderedDict.empty
  findings : List (SecurityFinding digest) := []

variable {digest}

/-- The keys that do not name their value. -/
def keyMismatches {V : Type} (name : V → String) (entries : List (String × V)) :
    List (String × String) :=
  (entries.filter fun entry => entry.1 ≠ name entry.2).map fun entry => (entry.1, name entry.2)

/-- The last loop of the validator. -/
def StateData.checkFinding (data : StateData digest) (finding : SecurityFinding digest) :
    Except ModelError Unit :=
  match data.provenanceBySensor.get? finding.sensorId with
  | none => .error (.unknownSensor finding.sensorId)
  | some provenance =>
    if provenance.status ≠ .complete then .error .incompleteWithFindings else .ok ()

variable [LinearOrder Digest]

/-- `_validate_state_invariants`. -/
def StateData.validate (data : StateData digest) : Except ModelError Unit :=
  let provenanceMismatches := keyMismatches (·.sensorId) data.provenanceBySensor.entries
  let allVersions :=
    data.provenanceBySensor.values.map (fun p => p.identityAlgorithmVersion.text) ++
      data.findings.map fun finding => finding.identityComponents.headD ""
  let findingIds : List (CanonicalId Digest) := data.findings.map (·.canonicalId)
  if provenanceMismatches ≠ [] then .error (.provenanceKeys provenanceMismatches)
  else if allVersions.any (· ≠ data.identityAlgorithmVersion.text) then .error .versionMismatch
  else if findingIds ≠ findingIds.insertionSort (· ≤ ·) then .error .unsortedFindings
  else if findingIds.length ≠ findingIds.dedup.length then .error .duplicateIds
  else data.findings.forM data.checkFinding

variable (digest)

/-- A state that its validator accepts. -/
structure SensorState extends StateData digest where
  valid : toStateData.validate = .ok ()

variable {digest}

/-- `SensorState(...)`. -/
def StateData.build (data : StateData digest) : Except ModelError (SensorState digest) :=
  match h : data.validate with
  | .ok () => .ok ⟨data, h⟩
  | .error e => .error e

end States

/-! ## Deltas -/

section Deltas

variable {Digest : Type} (digest : List Component → Digest)

structure PerSensorDelta where
  sensorId : String
  status : SecurityDeltaStatus
  added : List (SecurityFinding digest) := []
  removed : List (SecurityFinding digest) := []
  unchangedCount : ℕ
  provenanceChanged : Bool := false
  errorMessage : Option String := none

structure SecurityDelta where
  deltasBySensor : OrderedDict String (PerSensorDelta digest)
  aggregateStatus : SecurityDeltaStatus

variable {digest}

/-- `aggregate_status`. -/
def aggregateStatus (statuses : List SecurityDeltaStatus) : SecurityDeltaStatus :=
  if .unknown ∈ statuses then .unknown
  else if .fail ∈ statuses then .fail
  else .pass

/-- `PerSensorDelta(...)` with `_validate_delta_invariants`. -/
def PerSensorDelta.build (delta : PerSensorDelta digest) :
    Except ModelError (PerSensorDelta digest) :=
  if delta.sensorId = "" then .error .emptySensorId
  else if delta.provenanceChanged ∧ delta.status ≠ .unknown then .error .provenanceChangedStatus
  else if (delta.added ++ delta.removed).any fun finding =>
      finding.sensorId ≠ delta.sensorId then
    .error .foreignFindings
  else if delta.status = .unknown ∧ delta.errorMessage = none then .error .unknownWithoutMessage
  else if delta.status ≠ .unknown ∧ delta.errorMessage ≠ none then .error .messageWithoutUnknown
  else if delta.status = .pass ∧ delta.added.any fun finding =>
      finding.severity ∈ failSeverities then
    .error .passWithFailSeverity
  else if delta.status = .fail ∧ ¬ delta.added.any fun finding =>
      finding.severity ∈ failSeverities then
    .error .failWithoutFailSeverity
  else .ok delta

/-- `SecurityDelta(...)` with `_validate_delta_map`. -/
def SecurityDelta.build (delta : SecurityDelta digest) :
    Except ModelError (SecurityDelta digest) :=
  let mismatches := keyMismatches (·.sensorId) delta.deltasBySensor.entries
  let expected := Sensor.aggregateStatus (delta.deltasBySensor.values.map (·.status))
  if mismatches ≠ [] then .error (.deltaKeys mismatches)
  else if delta.aggregateStatus ≠ expected then
    .error (.aggregateStatus expected delta.aggregateStatus)
  else .ok delta

end Deltas

end SemanticCi.Sensor
