import SemanticCi.Model.ReportPayload

/-! The advisory ensemble (`sensor/adapters/llm/protocol.py`, `aggregate.py`): the runs of
several LLM scouts become one state of the sensor `llm-ensemble`. -/

namespace SemanticCi.Sensor

open OrderedDict Python Ssp Report

def llmEnsembleSensorId : String := "llm-ensemble"

def llmEnsembleAdapterVersion : String := "llm-ensemble-aggregator-1"

/-- The `ValueError`s of the aggregation, and the validators it runs. -/
inductive AggregateError
  | value (message : String)
  | validation (field : String)
  | state (error : ModelError)

/-! ## Provenance of a scout -/

/-- The provenance of an LLM scout, which is never reproducible. -/
structure LLMSensorProvenance where
  sensorId : String
  sensorVersion : String := ""
  adapterVersion : String := ""
  identityAlgorithmVersion : IdentityAlgorithmVersion := .v1
  rulesetHash : Option String := none
  advisoryDbHash : Option String := none
  modelId : String
  promptHash : String
  status : SensorRunStatus := .complete
  errorMessage : Option String := none
  sensorId_ne : sensorId ≠ ""
  modelId_ne : modelId ≠ ""
  promptHash_ne : promptHash ≠ ""
  complete_iff : status = .complete ↔ errorMessage = none

def LLMSensorProvenance.toProvenance (p : LLMSensorProvenance) : SensorProvenance where
  sensorId := p.sensorId
  sensorVersion := p.sensorVersion
  adapterVersion := p.adapterVersion
  identityAlgorithmVersion := p.identityAlgorithmVersion
  rulesetHash := p.rulesetHash
  advisoryDbHash := p.advisoryDbHash
  modelId := some p.modelId
  promptHash := some p.promptHash
  nonReproducible := true
  status := p.status
  errorMessage := p.errorMessage
  sensorId_ne := p.sensorId_ne
  complete_iff := p.complete_iff

/-- `LLMSensorProvenance.model_validate(provenance.model_dump())`. -/
def LLMSensorProvenance.modelValidate (p : SensorProvenance) :
    Except AggregateError LLMSensorProvenance :=
  if hmodel : p.modelId.getD "" = "" then .error (.validation "model_id")
  else if hprompt : p.promptHash.getD "" = "" then .error (.validation "prompt_hash")
  else if p.nonReproducible then
    .ok
      { sensorId := p.sensorId
        sensorVersion := p.sensorVersion
        adapterVersion := p.adapterVersion
        identityAlgorithmVersion := p.identityAlgorithmVersion
        rulesetHash := p.rulesetHash
        advisoryDbHash := p.advisoryDbHash
        modelId := p.modelId.getD ""
        promptHash := p.promptHash.getD ""
        status := p.status
        errorMessage := p.errorMessage
        sensorId_ne := p.sensorId_ne
        modelId_ne := hmodel
        promptHash_ne := hprompt
        complete_iff := p.complete_iff }
  else .error (.validation "non_reproducible")

def SensorRunStatus.text : SensorRunStatus → String
  | .complete => "complete"
  | .error => "error"
  | .timeout => "timeout"
  | .skipped => "skipped"

section Aggregate

variable {Digest : Type} (digest : List Component → Digest)

/-! ## Projection -/

/-- A scout's finding before it has a canonical id. -/
structure RawLLMFinding where
  findingClass : String
  modulePath : String
  qualifiedName : String
  anchorKind : LLMAnchorKind
  expectedProperty : String := ""
  ordinal : ℕ
  severity : SecuritySeverity
  message : String := ""
  sourceSpan : Option SourceSpan := none
  findingClass_ne : findingClass ≠ ""
  modulePath_ne : modulePath ≠ ""
  modulePath_posix : posixPath modulePath = modulePath
  qualifiedName_ne : qualifiedName ≠ ""
  absence_iff : anchorKind = .absence ↔ expectedProperty ≠ ""

def projectToCanonical (finding : RawLLMFinding) (sensorId : String) (sensorId_ne : sensorId ≠ "") :
    LLMSecurityFinding digest :=
  let identityComponents := ["v1", "llm", sensorId, finding.findingClass, finding.modulePath,
    finding.qualifiedName, finding.anchorKind.text, finding.expectedProperty,
    toString finding.ordinal]
  { sensorId := sensorId
    canonicalId := toLex ("v1", digest (identityComponents.map Sum.inlₗ))
    identityComponents := identityComponents
    severity := finding.severity
    message := finding.message
    findingClass := finding.findingClass
    modulePath := finding.modulePath
    qualifiedName := finding.qualifiedName
    anchorKind := finding.anchorKind
    expectedProperty := finding.expectedProperty
    ordinal := finding.ordinal
    sourceSpan := finding.sourceSpan
    sensorId_ne := sensorId_ne
    findingClass_ne := finding.findingClass_ne
    modulePath_ne := finding.modulePath_ne
    modulePath_posix := finding.modulePath_posix
    qualifiedName_ne := finding.qualifiedName_ne
    canonicalId_eq := rfl
    identity_eq := rfl
    absence_iff := finding.absence_iff }

/-! ## Members -/

/-- `_Member`: one provenance of one state, with the findings of its sensor. -/
structure Member where
  provenance : LLMSensorProvenance
  findings : List (LLMSecurityFinding digest)

variable {digest}

def SecurityFinding.llm? : SecurityFinding digest → Option (LLMSecurityFinding digest)
  | .llm finding => some finding
  | _ => none

section Sorted

variable [LinearOrder Digest]

/-- `_validate_member_states`. -/
def validateMemberStates (states : List (SensorState digest)) : Except AggregateError Unit :=
  states.forM fun state =>
    let provenances := state.provenanceBySensor.values
    if provenances.isEmpty || provenances.any (fun item => !item.nonReproducible) then
      .error (.value "aggregate_advisory_states only accepts LLM advisory provenance")
    else .ok ()

/-- One turn of the inner loop of `_members`. -/
def memberOf (state : SensorState digest) (provenance : SensorProvenance) :
    Except AggregateError (Member digest) := do
  let member ← LLMSensorProvenance.modelValidate provenance
  let own := state.findings.filter fun finding => finding.sensorId = member.sensorId
  if own.any fun finding => !finding.isLlm then
    .error (.value "aggregate_advisory_states only accepts LLM advisory findings")
  else return ⟨member, own.filterMap SecurityFinding.llm?⟩

/-- `_members`. -/
def membersOf (states : List (SensorState digest)) : Except AggregateError (List (Member digest)) := do
  validateMemberStates states
  let groups ← states.mapM fun state => state.provenanceBySensor.values.mapM (memberOf state)
  if groups.flatten.isEmpty then
    .error (.value "aggregate_advisory_states requires LLM advisory provenance")
  else return groups.flatten

end Sorted

/-! ## Order of the members -/

-- `hex` prints the digest of a canonical id, `hashJson` is the SHA-256 of the JSON text with
-- sorted keys and no blanks
variable (hex : Digest → String) (hashJson : JsonValue → String)

/-- `finding.model_dump(mode="json")`. -/
def LLMSecurityFinding.dump (f : LLMSecurityFinding digest) : JsonMapping :=
  [("sensor_id", .str f.sensorId),
    ("canonical_id", .str (canonicalIdText hex f.canonicalId)),
    ("identity_components", .strings f.identityComponents),
    ("severity", .str (securitySeverityText f.severity)),
    ("message", .str f.message),
    ("category", .str "llm"),
    ("finding_class", .str f.findingClass),
    ("module_path", .str f.modulePath),
    ("qualified_name", .str f.qualifiedName),
    ("anchor_kind", .str f.anchorKind.text),
    ("expected_property", .str f.expectedProperty),
    ("ordinal", .int f.ordinal),
    ("source_span", .ofOption (fun span => .object
      [("start_line", .int span.startLine), ("end_line", .int span.endLine),
        ("start_col", .int span.startCol), ("end_col", .int span.endCol)]) f.sourceSpan)]

def findingsDigest (findings : List (LLMSecurityFinding digest)) : String :=
  hashJson (.array (findings.map fun finding => .object (finding.dump hex)))

abbrev MemberKey := String ×ₗ String ×ₗ String ×ₗ String ×ₗ String ×ₗ String

def memberSortKey (member : Member digest) : MemberKey :=
  let provenance := member.provenance
  toLex (provenance.sensorId, toLex (provenance.modelId, toLex (provenance.promptHash,
    toLex (provenance.adapterVersion, toLex (provenance.sensorVersion,
      findingsDigest hex hashJson member.findings)))))

/-! ## Provenance of the ensemble -/

def memberModelIds (members : List (Member digest)) : List String :=
  (members.map (·.provenance.modelId)).insertionSort (· ≤ ·)

def ensemblePromptHash (members : List (Member digest)) : String :=
  let pairs : List (String ×ₗ String) :=
    (members.map fun member =>
      toLex (member.provenance.modelId, member.provenance.promptHash)).insertionSort (· ≤ ·)
  "sha256:" ++ hashJson (.array (pairs.map fun pair => .strings [(ofLex pair).1, (ofLex pair).2]))

def allFailedErrorMessage (members : List (Member digest)) : String :=
  "all LLM ensemble members non-complete: " ++ "; ".intercalate (members.map fun member =>
    let provenance := member.provenance
    provenance.sensorId ++ "/" ++ provenance.modelId ++ " " ++ provenance.status.text ++ ": " ++
      provenance.errorMessage.getD "None")

/-- `_ensemble_provenance`. -/
def ensembleProvenance (members : List (Member digest)) (hasComplete : Bool) :
    LLMSensorProvenance where
  sensorId := llmEnsembleSensorId
  sensorVersion := "llm-ensemble"
  adapterVersion := llmEnsembleAdapterVersion
  identityAlgorithmVersion := .v1
  modelId := "ensemble:" ++ ",".intercalate (memberModelIds members)
  promptHash := ensemblePromptHash hashJson members
  status := if hasComplete then .complete else .error
  errorMessage := if hasComplete then none else some (allFailedErrorMessage members)
  sensorId_ne := by decide
  modelId_ne := by simp
  promptHash_ne := by simp [ensemblePromptHash]
  complete_iff := by cases hasComplete <;> simp

/-! ## Findings of the ensemble -/

abbrev AnchorKey := String ×ₗ String ×ₗ String ×ₗ String ×ₗ String ×ₗ ℕ

def anchorKey (finding : LLMSecurityFinding digest) : AnchorKey :=
  toLex (finding.findingClass, toLex (finding.modulePath, toLex (finding.qualifiedName,
    toLex (finding.anchorKind.text, toLex (finding.expectedProperty, finding.ordinal)))))

/-- `_SEVERITY_RANK`. -/
def severityRank : SecuritySeverity → ℕ
  | .info => 0
  | .low => 1
  | .medium => 2
  | .high => 3
  | .critical => 4

/-- `max(findings, key=...)`: the first finding of the highest severity. -/
def maxSeverityFinding (first : LLMSecurityFinding digest)
    (rest : List (LLMSecurityFinding digest)) : LLMSecurityFinding digest :=
  rest.foldl (fun best finding =>
    if severityRank best.severity < severityRank finding.severity then finding else best) first

def firstSourceSpan (findings : List (LLMSecurityFinding digest)) : Option SourceSpan :=
  findings.findSome? (·.sourceSpan)

/-- `_project_group` on `_group_from_findings`. No group is empty. -/
def projectGroup : List (LLMSecurityFinding digest) → Option (LLMSecurityFinding digest)
  | [] => none
  | first :: rest =>
      let representative := maxSeverityFinding first rest
      some (projectToCanonical digest
        { findingClass := first.findingClass
          modulePath := first.modulePath
          qualifiedName := first.qualifiedName
          anchorKind := first.anchorKind
          expectedProperty := first.expectedProperty
          ordinal := first.ordinal
          severity := representative.severity
          message := representative.message
          sourceSpan := firstSourceSpan (first :: rest)
          findingClass_ne := first.findingClass_ne
          modulePath_ne := first.modulePath_ne
          modulePath_posix := first.modulePath_posix
          qualifiedName_ne := first.qualifiedName_ne
          absence_iff := first.absence_iff }
        llmEnsembleSensorId (by decide))

variable [LinearOrder Digest]

def sortLLMFindings (findings : List (LLMSecurityFinding digest)) :
    List (LLMSecurityFinding digest) :=
  findings.insertionSort fun a b => a.canonicalId ≤ b.canonicalId

/-- `_aggregate_findings`. -/
def aggregateFindings (members : List (Member digest)) : List (LLMSecurityFinding digest) :=
  let groups := groupBy anchorKey (members.flatMap fun member => sortLLMFindings member.findings)
  let aggregated := (groups.entries.insertionSort fun a b => a.1 ≤ b.1).filterMap fun group =>
    projectGroup group.2
  sortLLMFindings aggregated

/-! ## Aggregation -/

variable (digest) in
structure LLMEnsembleAggregation where
  state : SensorState digest
  members : List LLMSensorProvenance

def sortMembers (members : List (Member digest)) : List (Member digest) :=
  members.insertionSort fun a b => memberSortKey hex hashJson a ≤ memberSortKey hex hashJson b

/-- The body of `aggregate_advisory_states` on the sorted members. -/
def aggregateMembers (members : List (Member digest)) :
    Except AggregateError (LLMEnsembleAggregation digest) :=
  let completeMembers := members.filter fun member => member.provenance.status = .complete
  let provenance := ensembleProvenance hashJson members (!completeMembers.isEmpty)
  let findings := if provenance.status = .complete then aggregateFindings completeMembers else []
  let data : StateData digest :=
    { provenanceBySensor := ofPairs [(llmEnsembleSensorId, provenance.toProvenance)]
      findings := findings.map .llm }
  match data.build with
  | .ok state => .ok ⟨state, members.map (·.provenance)⟩
  | .error e => .error (.state e)

def aggregateAdvisoryStates (states : List (SensorState digest)) :
    Except AggregateError (LLMEnsembleAggregation digest) := do
  if states.isEmpty then
    .error (.value "aggregate_advisory_states requires at least one SensorState")
  else
    let members ← membersOf states
    aggregateMembers hashJson (sortMembers hex hashJson members)

end Aggregate

end SemanticCi.Sensor
