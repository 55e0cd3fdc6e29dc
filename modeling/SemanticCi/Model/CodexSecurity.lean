import SemanticCi.Library.Numbering
import SemanticCi.Model.LLMAggregate
import SemanticCi.Python.Loads

/-! The Codex Security scout (`sensor/adapters/llm/codex_security.py`): a recorded payload
becomes the state of one advisory sensor. -/

namespace SemanticCi.Sensor

open OrderedDict Python Ssp Report

def codexSecuritySensorId : String := "codex-security"

def codexSecuritySensorAdapterVersion : String := "sensor-codex-security-adapter-1"

/-- What reading a payload can raise. -/
inductive CodexError
  | value (message : String)
  /-- A `ValidationError`, with the field of one of its errors or the text of a validator. -/
  | validation (field : String)
  | state (error : ModelError)

/-! ## Fields of a finding -/

/-- The `int` that pydantic makes of a loaded value, if it takes the value for one. -/
abbrev LaxInt := LoadedValue → Option ℤ

/-- A text of at least one character. -/
def nonEmptyText (fields : LoadedObject) (key : String) :
    Except CodexError { text : String // text ≠ "" } :=
  match fields.get? key with
  | some (.str text) => if h : text ≠ "" then .ok ⟨text, h⟩ else .error (.validation key)
  | _ => .error (.validation key)

/-- A text that may be left out. -/
def defaultText (fields : LoadedObject) (key : String) : Except CodexError String :=
  match fields.get? key with
  | none => .ok ""
  | some (.str text) => .ok text
  | _ => .error (.validation key)

theorem posixPath_posixPath (text : String) : posixPath (posixPath text) = posixPath text := by
  have hslash (c : Char) : (if (if c = '\\' then '/' else c) = '\\' then '/' else
      if c = '\\' then '/' else c) = if c = '\\' then '/' else c := by
    by_cases hc : c = '\\' <;> simp [hc]
  simp [posixPath, hslash, Function.comp_def]

theorem posixPath_ne {text : String} (h : text ≠ "") : posixPath text ≠ "" := by
  simpa [posixPath] using h

/-- `module_path` behind `_normalize_module_path`. -/
def modulePathField (fields : LoadedObject) :
    Except CodexError { text : String // text ≠ "" ∧ posixPath text = text } := do
  let text ← nonEmptyText fields "module_path"
  return ⟨posixPath text, posixPath_ne text.2, posixPath_posixPath text⟩

/-- A member of a `Literal`, under its text. -/
def literalField {α : Type} (text : α → String) (members : List α) (fields : LoadedObject)
    (key : String) : Except CodexError α :=
  match fields.get? key with
  | some (.str value) =>
    match members.find? fun member => text member = value with
    | some member => .ok member
    | none => .error (.validation key)
  | _ => .error (.validation key)

def anchorKinds : List LLMAnchorKind := [.presence, .absence]

def severities : List SecuritySeverity := [.critical, .high, .medium, .low, .info]

/-- An `int` from a lower bound on. -/
def intField (laxInt : LaxInt) (least : ℤ) (fields : LoadedObject) (key : String) :
    Except CodexError { i : ℤ // least ≤ i } :=
  match (fields.get? key).bind laxInt with
  | some i => if h : least ≤ i then .ok ⟨i, h⟩ else .error (.validation key)
  | none => .error (.validation key)

/-- `extra="forbid"`. -/
def forbidExtra (known : List String) (fields : LoadedObject) : Except CodexError Unit :=
  match fields.find? fun field => field.1 ∉ known with
  | some field => .error (.validation field.1)
  | none => .ok ()

def sourceSpanKeys : List String := ["start_line", "end_line", "start_col", "end_col"]

/-- `SourceSpan.model_validate`. -/
def sourceSpanOf (laxInt : LaxInt) (fields : LoadedObject) : Except CodexError SourceSpan := do
  forbidExtra sourceSpanKeys fields
  let startLine ← intField laxInt 1 fields "start_line"
  let endLine ← intField laxInt 1 fields "end_line"
  let startCol ← intField laxInt 0 fields "start_col"
  let endCol ← intField laxInt 0 fields "end_col"
  return {
    startLine := startLine.1.toNat
    startCol := startCol.1.toNat
    endLine := endLine.1.toNat
    endCol := endCol.1.toNat
    startLine_pos := by have := startLine.2; omega
    endLine_pos := by have := endLine.2; omega }

def sourceSpanField (laxInt : LaxInt) (fields : LoadedObject) :
    Except CodexError (Option SourceSpan) :=
  match fields.get? "source_span" with
  | none => .ok none
  | some .null => .ok none
  | some (.object span) => (sourceSpanOf laxInt span).map some
  | _ => .error (.validation "source_span")

def rawFindingKeys : List String :=
  ["finding_class", "module_path", "qualified_name", "anchor_kind", "expected_property", "ordinal",
    "severity", "message", "source_span"]

/-- `_anchor_kind_matches_expected_property`. -/
def anchorMismatch : LLMAnchorKind → String
  | .absence => "absence LLM findings require expected_property"
  | .presence => "presence LLM findings must not include expected_property"

/-- `RawLLMFinding.model_validate`. -/
def RawLLMFinding.modelValidate (laxInt : LaxInt) (fields : LoadedObject) :
    Except CodexError RawLLMFinding := do
  forbidExtra rawFindingKeys fields
  let findingClass ← nonEmptyText fields "finding_class"
  let modulePath ← modulePathField fields
  let qualifiedName ← nonEmptyText fields "qualified_name"
  let anchorKind ← literalField LLMAnchorKind.text anchorKinds fields "anchor_kind"
  let expectedProperty ← defaultText fields "expected_property"
  let ordinal ← intField laxInt 0 fields "ordinal"
  let severity ← literalField securitySeverityText severities fields "severity"
  let message ← defaultText fields "message"
  let sourceSpan ← sourceSpanField laxInt fields
  if h : anchorKind = .absence ↔ expectedProperty ≠ "" then
    return {
      findingClass := findingClass.1
      modulePath := modulePath.1
      qualifiedName := qualifiedName.1
      anchorKind
      expectedProperty
      ordinal := ordinal.1.toNat
      severity
      message
      sourceSpan
      findingClass_ne := findingClass.2
      modulePath_ne := modulePath.2.1
      modulePath_posix := modulePath.2.2
      qualifiedName_ne := qualifiedName.2
      absence_iff := h }
  else .error (.validation (anchorMismatch anchorKind))

/-! ## Groups -/

/-- The fields in which findings of one group agree. -/
structure FindingGroup where
  findingClass : String
  modulePath : String
  qualifiedName : String
  anchorKind : String
  expectedProperty : String
deriving DecidableEq

/-- `{group!r}`. -/
def FindingGroup.repr (group : FindingGroup) : String :=
  (PyValue.tuple [.str group.findingClass, .str group.modulePath, .str group.qualifiedName,
    .str group.anchorKind, .str group.expectedProperty]).repr

/-- One turn of the loop of `_group_from_mapping`. -/
def groupText (fields : LoadedObject) (index : ℕ) (key : String) : Except CodexError String :=
  match fields.get? key with
  | some (.str value) => .ok (if key = "module_path" then posixPath value else value)
  | none =>
    if key = "expected_property" then .ok ""
    else .error (.value (missing key))
  | _ => .error (.value (missing key))
where
  missing (key : String) : String :=
    "Codex Security finding #" ++ toString index ++ " requires string " ++ (PyValue.str key).repr

/-- `_group_from_mapping`. -/
def groupFromMapping (fields : LoadedObject) (index : ℕ) : Except CodexError FindingGroup := do
  return {
    findingClass := ← groupText fields index "finding_class"
    modulePath := ← groupText fields index "module_path"
    qualifiedName := ← groupText fields index "qualified_name"
    anchorKind := ← groupText fields index "anchor_kind"
    expectedProperty := ← groupText fields index "expected_property" }

/-- `_group_from_raw`. -/
def groupFromRaw (raw : RawLLMFinding) : FindingGroup where
  findingClass := raw.findingClass
  modulePath := raw.modulePath
  qualifiedName := raw.qualifiedName
  anchorKind := raw.anchorKind.text
  expectedProperty := raw.expectedProperty

/-! ## Ordinals -/

/-- `next_ordinal_by_group` and `seen_ordinals_by_group`. -/
structure OrdinalBooks where
  next : OrderedDict FindingGroup ℕ := OrderedDict.empty
  seen : OrderedDict FindingGroup (Finset ℕ) := OrderedDict.empty

namespace OrdinalBooks

/-- `next_ordinal_by_group.get(group, 0)`. -/
def nextOf (books : OrdinalBooks) (group : FindingGroup) : ℕ := (books.next.get? group).getD 0

/-- `seen_ordinals_by_group.get(group, set())`. -/
def seenOf (books : OrdinalBooks) (group : FindingGroup) : Finset ℕ :=
  (books.seen.get? group).getD ∅

/-- `seen_ordinals_by_group.setdefault(group, set()).add(ordinal)`. -/
def add (books : OrdinalBooks) (group : FindingGroup) (ordinal : ℕ) : OrdinalBooks where
  next := books.next
  seen := books.seen.assign group (insert ordinal (books.seenOf group))

end OrdinalBooks

/-- `"ordinal" in item`. -/
def hasOrdinal (fields : LoadedObject) : Bool := (fields.get? "ordinal").isSome

/-- `_reserve_explicit_ordinals`. -/
def reserveExplicitOrdinals (laxInt : LaxInt) :
    List LoadedValue → OrdinalBooks → Except CodexError OrdinalBooks
  | [], books => .ok books
  | .object fields :: rest, books => do
    if hasOrdinal fields then
      let raw ← RawLLMFinding.modelValidate laxInt fields
      let group := groupFromRaw raw
      if raw.ordinal ∈ books.seenOf group then
        .error (.value ("duplicate Codex Security ordinal " ++ toString raw.ordinal ++
          " in finding group " ++ group.repr))
      else reserveExplicitOrdinals laxInt rest (books.add group raw.ordinal)
    else reserveExplicitOrdinals laxInt rest books
  | _ :: rest, books => reserveExplicitOrdinals laxInt rest books

/-- What one turn of the loop of `_raw_findings` does to a finding without an ordinal. -/
def fillOrdinal (fields : LoadedObject) (index : ℕ) (books : OrdinalBooks) :
    Except CodexError (LoadedObject × OrdinalBooks) := do
  let group ← groupFromMapping fields index
  let ordinal := Numbering.nextFree (books.nextOf group) (books.seenOf group)
  return (fields ++ [("ordinal", .int ordinal)],
    { books with next := books.next.assign group (ordinal + 1) })

/-- One turn of the loop of `_raw_findings`. -/
def rawFinding (laxInt : LaxInt) (fields : LoadedObject) (index : ℕ) (books : OrdinalBooks) :
    Except CodexError (RawLLMFinding × OrdinalBooks) := do
  if hasOrdinal fields then
    let raw ← RawLLMFinding.modelValidate laxInt fields
    if raw.ordinal ∉ books.seenOf (groupFromRaw raw) then
      .error (.value ("internal Codex Security ordinal reservation failed for " ++
        toString raw.ordinal))
    else return (raw, books)
  else
    let (filled, books) ← fillOrdinal fields index books
    let raw ← RawLLMFinding.modelValidate laxInt filled
    return (raw, books.add (groupFromRaw raw) raw.ordinal)

/-- The loop of `_raw_findings`. -/
def rawFindingsFrom (laxInt : LaxInt) :
    List LoadedValue → ℕ → OrdinalBooks → Except CodexError (List RawLLMFinding)
  | [], _, _ => .ok []
  | .object fields :: rest, index, books => do
    let (raw, books) ← rawFinding laxInt fields index books
    return raw :: (← rawFindingsFrom laxInt rest (index + 1) books)
  | _ :: _, index, _ =>
    .error (.value ("Codex Security finding #" ++ toString index ++ " must be a JSON object"))

/-- `_raw_findings`. -/
def rawFindings (laxInt : LaxInt) (findingsPayload : List LoadedValue) :
    Except CodexError (List RawLLMFinding) := do
  let books ← reserveExplicitOrdinals laxInt findingsPayload {}
  rawFindingsFrom laxInt findingsPayload 0 books

/-! ## Payloads -/

/-- `_required_string`. -/
def requiredString (payload : LoadedObject) (key : String) : Except CodexError String :=
  match payload.get? key with
  | some (.str value) => .ok value
  | _ => .error (.value ("Codex Security payload requires string " ++ (PyValue.str key).repr))

/-- `_required_string(..., non_empty=True)`. -/
def requiredNonEmptyString (payload : LoadedObject) (key : String) :
    Except CodexError { text : String // text ≠ "" } := do
  let value ← requiredString payload key
  if h : value ≠ "" then .ok ⟨value, h⟩
  else .error (.value ("Codex Security payload requires non-empty " ++ (PyValue.str key).repr))

/-- `_RUN_STATUSES`. -/
def runStatuses : List SensorRunStatus := [.complete, .error, .timeout, .skipped]

/-- `_status`. -/
def payloadStatus (payload : LoadedObject) : Except CodexError SensorRunStatus := do
  let value ← requiredString payload "status"
  match runStatuses.find? fun status => status.text = value with
  | some status => .ok status
  | none => .error (.value ("unsupported Codex Security status: " ++ (PyValue.str value).repr))

/-- `_error_message`. -/
def payloadErrorMessage (payload : LoadedObject) : Except CodexError (Option String) :=
  match payload.get? "error_message" with
  | none => .ok none
  | some .null => .ok none
  | some (.str value) => .ok (some value)
  | _ => .error (.value "Codex Security payload error_message must be a string or null")

/-- `_findings_payload`. -/
def findingsPayload (payload : LoadedObject) : Except CodexError (List LoadedValue) :=
  match payload.get? "findings" with
  | some (.array findings) => .ok findings
  | _ => .error (.value "Codex Security payload requires list 'findings'")

/-- `_ParsedCodexSecurityPayload`. -/
structure ParsedCodexSecurityPayload where
  rawFindings : List RawLLMFinding
  provenance : LLMSensorProvenance

/-- The provenance of `_parse_payload`. -/
def payloadProvenance (sensorVersion : String) (modelId promptHash : { text : String // text ≠ "" })
    (status : SensorRunStatus) (errorMessage : Option String) :
    Except CodexError LLMSensorProvenance :=
  if h : status = .complete ↔ errorMessage = none then
    .ok
      { sensorId := codexSecuritySensorId
        sensorVersion
        adapterVersion := codexSecuritySensorAdapterVersion
        identityAlgorithmVersion := .v1
        modelId := modelId.1
        promptHash := promptHash.1
        status
        errorMessage
        sensorId_ne := by decide
        modelId_ne := modelId.2
        promptHash_ne := promptHash.2
        complete_iff := h }
  else .error (.validation "complete sensor provenance must not include error_message")

/-- `_parse_payload`. -/
def parsePayload (laxInt : LaxInt) :
    LoadedValue → Except CodexError ParsedCodexSecurityPayload
  | .object payload => do
    let sensorVersion ← requiredString payload "sensor_version"
    let modelId ← requiredNonEmptyString payload "model_id"
    let promptHash ← requiredNonEmptyString payload "prompt_hash"
    let status ← payloadStatus payload
    let errorMessage ← payloadErrorMessage payload
    let findings ← findingsPayload payload
    if status ≠ .complete ∧ errorMessage.getD "" = "" then
      .error (.value "non-complete Codex Security payload requires error_message")
    else
      let provenance ← payloadProvenance sensorVersion modelId promptHash status errorMessage
      if status ≠ .complete then return { rawFindings := [], provenance }
      else return { rawFindings := ← rawFindings laxInt findings, provenance }
  | _ => .error (.value "Codex Security payload must be a JSON object")

section State

variable {Digest : Type} (digest : List Component → Digest) [LinearOrder Digest]

/-- `CodexSecurityAdapter.project_to_canonical`. -/
def codexSecurityFinding (finding : RawLLMFinding) : LLMSecurityFinding digest :=
  projectToCanonical digest finding codexSecuritySensorId (by decide)

/-- The arguments of the state in `_sensor_state_from_adapter`. -/
def adapterStateData (parsed : ParsedCodexSecurityPayload) : StateData digest where
  provenanceBySensor := ofPairs [(parsed.provenance.sensorId, parsed.provenance.toProvenance)]
  findings :=
    if parsed.provenance.status ≠ .complete then []
    else (sortLLMFindings (parsed.rawFindings.map (codexSecurityFinding digest))).map .llm

/-- `sensor_state_from_codex_security_json`. -/
def sensorStateFromCodexSecurityJson (laxInt : LaxInt) (payload : LoadedValue) :
    Except CodexError (SensorState digest) := do
  let parsed ← parsePayload laxInt payload
  match (adapterStateData digest parsed).build with
  | .ok state => .ok state
  | .error e => .error (.state e)

end State

end SemanticCi.Sensor
