import SemanticCi.Model.SecurityDelta

/-! The adapters that turn the output of one scan into a sensor state
(`sensor/adapters/semgrep_adapter.py`, `sensor/adapters/pip_audit_adapter.py`). -/

namespace SemanticCi.Sensor

open OrderedDict Ssp

/-- The hashes of a scan that its provenance keeps. -/
structure SensorSpec where
  rulesetHash : Option String := none
  advisoryDbHash : Option String := none

def semgrepSensorAdapterVersion : String := "sensor-semgrep-adapter-1"

def pipAuditSensorAdapterVersion : String := "sensor-pip-audit-adapter-1"

section Adapters

variable {Digest : Type} (digest : List Component → Digest)

/-- The provenance of one scan. -/
def provenanceFromOutput (adapterVersion defaultError : String) (output : SensorOutput Digest)
    (sensorSpec : SensorSpec) : SensorProvenance :=
  match output.status with
  | .error =>
    { sensorId := output.sensorId
      sensorVersion := output.sensorVersion
      adapterVersion := adapterVersion
      identityAlgorithmVersion := .v1
      rulesetHash := sensorSpec.rulesetHash
      advisoryDbHash := sensorSpec.advisoryDbHash
      status := .error
      errorMessage := some ((output.errorMessage.filter (· ≠ "")).getD defaultError)
      sensorId_ne := output.sensorId_ne
      complete_iff := by simp }
  | .complete =>
    { sensorId := output.sensorId
      sensorVersion := output.sensorVersion
      adapterVersion := adapterVersion
      identityAlgorithmVersion := .v1
      rulesetHash := sensorSpec.rulesetHash
      advisoryDbHash := sensorSpec.advisoryDbHash
      status := .complete
      errorMessage := none
      sensorId_ne := output.sensorId_ne
      complete_iff := by simp }

/-- `_provenance_from_semgrep`. -/
def provenanceFromSemgrep (output : SensorOutput Digest) (sensorSpec : SensorSpec) :
    SensorProvenance :=
  provenanceFromOutput semgrepSensorAdapterVersion "semgrep sensor error" output sensorSpec

/-- `_provenance_from_pip_audit`. -/
def provenanceFromPipAudit (output : SensorOutput Digest) (sensorSpec : SensorSpec) :
    SensorProvenance :=
  provenanceFromOutput pipAuditSensorAdapterVersion "pip-audit sensor error" output sensorSpec

/-- `_finding_from_sast`. The path of a finding has no backslash left to replace. -/
def findingFromSast (sensorId : String) (sensorId_ne : sensorId ≠ "")
    (finding : SASTFinding Digest) : SASTSecurityFinding digest :=
  let ordinal := finding.ordinal.getD 0
  let identityComponents := ["v1", "sast", sensorId, finding.ruleId,
    posixPath finding.modulePath, finding.qualifiedName, finding.normalizedText, toString ordinal]
  { sensorId := sensorId
    canonicalId := toLex ("v1", digest (identityComponents.map Sum.inlₗ))
    identityComponents := identityComponents
    severity := finding.severity
    message := finding.message
    ruleId := finding.ruleId
    modulePath := finding.modulePath
    qualifiedName := finding.qualifiedName
    normalizedText := finding.normalizedText
    ordinal := ordinal
    sourceSpan := finding.sourceSpan
    sensorId_ne := sensorId_ne
    ruleId_ne := finding.ruleId_ne
    modulePath_ne := finding.modulePath_ne
    modulePath_posix := finding.modulePath_posix
    qualifiedName_ne := finding.qualifiedName_ne
    canonicalId_eq := rfl
    identity_eq := by simp only [identityComponents, finding.modulePath_posix] }

/-- `_finding_from_sca`. -/
def findingFromSca (sensorId : String) (sensorId_ne : sensorId ≠ "")
    (finding : SCAFinding Digest) : SCASecurityFinding digest :=
  let identityComponents := ["v1", "sca", sensorId, finding.packageName,
    finding.installedVersion, finding.advisoryId]
  { sensorId := sensorId
    canonicalId := toLex ("v1", digest (identityComponents.map Sum.inlₗ))
    identityComponents := identityComponents
    severity := finding.severity
    message := finding.message
    packageName := finding.packageName
    installedVersion := finding.installedVersion
    advisoryId := finding.advisoryId
    sensorId_ne := sensorId_ne
    packageName_ne := finding.packageName_ne
    installedVersion_ne := finding.installedVersion_ne
    advisoryId_ne := finding.advisoryId_ne
    canonicalId_eq := rfl
    identity_eq := rfl }

variable [LinearOrder Digest]

/-- `sorted(..., key=lambda finding: finding.canonical_id)`. -/
def sortByCanonicalId (findings : List (SecurityFinding digest)) : List (SecurityFinding digest) :=
  findings.insertionSort fun a b => a.canonicalId ≤ b.canonicalId

/-- `_dedup_by_canonical_id`. -/
def dedupByCanonicalId (findings : List (SecurityFinding digest)) :
    List (SecurityFinding digest) :=
  sortByCanonicalId digest (indexBy (·.canonicalId) findings).values

/-- The state of one sensor under its provenance. -/
def singleSensorState (sensorId : String) (provenance : SensorProvenance)
    (findings : List (SecurityFinding digest)) : StateData digest where
  provenanceBySensor := ofPairs [(sensorId, provenance)]
  findings := findings

/-- `sensor_state_from_semgrep_scan`. -/
def sensorStateFromSemgrepScan (output : SensorOutput Digest) (sensorSpec : SensorSpec) :
    Except ModelError (SensorState digest) :=
  let provenance := provenanceFromSemgrep output sensorSpec
  let findings :=
    if provenance.status ≠ .complete then []
    else
      let sastFindings := output.findings.filterMap Finding.sast?
      let assigned := assignSastOrdinals digest sastFindings
      sortByCanonicalId digest (assigned.map fun finding =>
        .sast (findingFromSast digest output.sensorId output.sensorId_ne finding))
  (singleSensorState digest output.sensorId provenance findings).build

/-- `sensor_state_from_pip_audit_scan`. -/
def sensorStateFromPipAuditScan (output : SensorOutput Digest) (sensorSpec : SensorSpec) :
    Except ModelError (SensorState digest) :=
  let provenance := provenanceFromPipAudit output sensorSpec
  let findings :=
    if provenance.status ≠ .complete then []
    else
      dedupByCanonicalId digest ((output.findings.filterMap Finding.sca?).map fun finding =>
        .sca (findingFromSca digest output.sensorId output.sensorId_ne finding))
  (singleSensorState digest output.sensorId provenance findings).build

end Adapters

end SemanticCi.Sensor
