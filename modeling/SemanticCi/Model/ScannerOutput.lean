import SemanticCi.Library.KeyedSort
import SemanticCi.Model.QualifiedName
import SemanticCi.Model.SensorAdapters
import SemanticCi.Python.Loads

/-! How the output of the scanners is read (`ssp/adapters/pip_audit.py` and
`ssp/adapters/semgrep.py`). -/

namespace SemanticCi.Scanner

open SemanticCi.Python Ssp LoadedValue

variable {Digest : Type}

/-- What reading one record can raise. -/
inductive ReadError where
  /-- A `ValidationError` for these empty fields. -/
  | validation (fields : List String)
  /-- An `OverflowError`. -/
  | overflow
  /-- Another `ValueError`. -/
  | value (text : String)

/-- `PipAuditScanResult` and `SemgrepScanResult`. -/
structure ScanResult (Digest : Type) where
  output : SensorOutput Digest
  sensorSpec : Sensor.SensorSpec

/-- `str(record.get(key, ""))`. -/
def textField (record : LoadedObject) (key : String) : String :=
  ((record.get? key).map LoadedValue.text).getD ""

/-! ## pip-audit -/

/-- `_package_items`. -/
def packageItems (payload : LoadedValue) : List LoadedObject :=
  let packages :=
    match payload with
    | .object fields =>
        ((["dependencies", "packages", "results"].filterMap (LoadedObject.get? fields)).find?
          truthy).getD (.array [])
    | payload => payload
  match packages with
  | .array items => objects items
  | _ => []

section Score

/-- The first score of several readings. -/
def firstScore : List (Except ReadError (Option PyFloat)) → Except ReadError (Option PyFloat)
  | [] => .ok none
  | reading :: readings => do
      match ← reading with
      | some score => .ok (some score)
      | none => firstScore readings

/-- `float(number)`. -/
def floatOfNumber (number : PyNum) : Except ReadError (Option PyFloat) :=
  match number.toFloat with
  | .ok score => .ok (some score)
  | .error _ => .error .overflow

mutual

/-- `_cvss_score`. -/
def cvssScore : LoadedValue → Except ReadError (Option PyFloat)
  | .object items =>
      let scores := cvssScoreEntries items
      firstScore (["cvss_score", "cvss", "score", "value"].map fun key =>
        ((scores.find? fun entry => entry.1 = key).map Prod.snd).getD (.ok none))
  | .array items => firstScore (cvssScoreItems items)
  | .bool b => floatOfNumber (.int (if b then 1 else 0))
  | .int i => floatOfNumber (.int i)
  | .float f => floatOfNumber (.float f)
  | .str text => .ok (floatOfText text)
  | .null => .ok none

def cvssScoreItems : List LoadedValue → List (Except ReadError (Option PyFloat))
  | [] => []
  | item :: items => cvssScore item :: cvssScoreItems items

def cvssScoreEntries : LoadedObject → List (String × Except ReadError (Option PyFloat))
  | [] => []
  | (key, value) :: items => (key, cvssScore value) :: cvssScoreEntries items

end

/-- `_cvss_score_from_severity_metadata`. -/
def cvssScoreFromSeverityMetadata : Option LoadedValue → Except ReadError (Option PyFloat)
  | some (.object fields) => cvssScore (.object fields)
  | some (.array items) => firstScore ((objects items).map fun fields => cvssScore (.object fields))
  | _ => .ok none

/-- `_severity_from_cvss`. -/
def severityFromCvss (score : PyFloat) : Severity :=
  let atLeast (bound : ℤ) : Bool := PyNum.le (.int bound) (.float score)
  if atLeast 9 then .critical
  else if atLeast 7 then .high
  else if atLeast 4 then .medium
  else if PyNum.lt (.int 0) (.float score) then .low
  else .medium

/-- `_named_severity`. -/
def namedSeverity : Option LoadedValue → Option Severity
  | some (.str value) =>
      let normalized := String.ofList ((strip value).toList.map Char.toLower)
      if normalized = "critical" then some .critical
      else if normalized = "high" then some .high
      else if normalized = "medium" then some .medium
      else if normalized = "low" then some .low
      else if normalized = "info" then some .info
      else none
  | _ => none

/-- `_severity_for_vuln`. -/
def severityForVuln (vuln : LoadedObject) : Except ReadError Severity := do
  let score ← firstScore
    [cvssScore (.object vuln), cvssScoreFromSeverityMetadata (vuln.get? "severity")]
  match score with
  | some score => .ok (severityFromCvss score)
  | none => .ok ((namedSeverity (vuln.get? "severity")).getD .medium)

end Score

/-- `_message_for_vuln`. -/
def messageForVuln (vuln : LoadedObject) : String :=
  let fixVersions :=
    match vuln.get? "fix_versions" with
    | some (.array versions) =>
        let versions := ", ".intercalate (versions.map LoadedValue.text)
        if versions ≠ "" then "fix versions: " ++ versions else ""
    | _ => ""
  match vuln.get? "description" with
  | some (.str description) => if description ≠ "" then description else fixVersions
  | _ => fixVersions

/-- `SCAFinding(...)`. -/
def buildSca (packageName installedVersion advisoryId : String) (severity : Severity)
    (message : String) : Except ReadError (SCAFinding Digest) :=
  if h : packageName ≠ "" ∧ installedVersion ≠ "" ∧ advisoryId ≠ "" then
    .ok { packageName, installedVersion, advisoryId, severity, message,
          packageName_ne := h.1, installedVersion_ne := h.2.1, advisoryId_ne := h.2.2 }
  else
    .error (.validation (([("package_name", packageName), ("installed_version", installedVersion),
      ("advisory_id", advisoryId)].filter fun field => field.2 = "").map Prod.fst))

/-- `_finding_from_vuln`. -/
def findingFromVuln (packageName installedVersion : String) (vuln : LoadedObject) :
    Except ReadError (SCAFinding Digest) := do
  let severity ← severityForVuln vuln
  buildSca packageName installedVersion (textField vuln "id") severity (messageForVuln vuln)

/-- The records of `vulns` that are read. -/
def vulnItems (package : LoadedObject) : List LoadedObject :=
  match package.get? "vulns" with
  | some (.array vulns) => objects vulns
  | _ => []

/-- `_findings_from_package`. -/
def findingsFromPackage (package : LoadedObject) : Except ReadError (List (SCAFinding Digest)) :=
  (vulnItems package).mapM
    (findingFromVuln (textField package "name") (textField package "version"))

def scaSortKey (finding : SCAFinding Digest) : String ×ₗ String ×ₗ String ×ₗ String :=
  toLex (finding.packageName, toLex (finding.installedVersion,
    toLex (finding.advisoryId, finding.message)))

/-- A result with the error status. -/
def errorResult (sensorId : String) (sensorId_ne : sensorId ≠ "") (version message : String)
    (sensorSpec : Sensor.SensorSpec) : ScanResult Digest where
  output :=
    { sensorId := sensorId
      sensorVersion := version
      status := .error
      errorMessage := some message
      sensorId_ne := sensorId_ne
      error_findings := fun _ => rfl }
  sensorSpec := sensorSpec

/-- A result with the findings of a complete scan. -/
def completeResult (sensorId : String) (sensorId_ne : sensorId ≠ "") (version : String)
    (findings : List (Finding Digest)) (sensorSpec : Sensor.SensorSpec) : ScanResult Digest where
  output :=
    { sensorId := sensorId
      sensorVersion := version
      findings := findings
      sensorId_ne := sensorId_ne
      error_findings := fun h => by cases h }
  sensorSpec := sensorSpec

/-- `PipAuditAdapter.from_json`. A `TypeError`, a `ValidationError` and a `ValueError` are caught,
an `OverflowError` is not. -/
def pipAuditFromJson (describe : ReadError → String) (version : String)
    (advisoryDbHash : Option String) (payload : LoadedValue) :
    Except ReadError (ScanResult Digest) :=
  let sensorSpec : Sensor.SensorSpec := { advisoryDbHash := advisoryDbHash }
  match (packageItems payload).mapM findingsFromPackage with
  | .ok findings =>
      .ok (completeResult "pip-audit" (by decide) version
        ((KeyedSort.sortBy scaSortKey findings.flatten).map .sca) sensorSpec)
  | .error .overflow => .error .overflow
  | .error error =>
      .ok (errorResult "pip-audit" (by decide) version
        ("invalid pip-audit JSON payload: " ++ describe error) sensorSpec)

/-! ## Semgrep -/

/-- What a run of the Semgrep adapter sees of the files. -/
structure ScanFiles where
  SourcePath : Type
  /-- `_source_paths`, for the target directory and the root of the run. -/
  sourcePaths : String → SourcePath × String
  /-- No path is written as an empty text. -/
  modulePath_ne : ∀ pathText, (sourcePaths pathText).2 ≠ ""
  /-- `_expected_python_paths`. -/
  expectedPaths : Finset String
  /-- `_source_text_for_span`. -/
  sourceText : SourcePath → SourceSpan → Except ReadError String
  /-- `qualified_name_for_line`. -/
  qualifiedName : SourcePath → ℕ → Except ReadError String
  normalizeText : String → String

/-- The files of a run in which every source has a module name and, if it parses, a tree. -/
def ScanFiles.parsed (files : ScanFiles) (moduleName : files.SourcePath → String)
    (tree : files.SourcePath → Option Ast.Node) : ScanFiles :=
  { files with
    qualifiedName := fun path line =>
      .ok (QualifiedName.qualifiedNameForLine (moduleName path) (tree path) line) }

section Semgrep

variable (files : ScanFiles)

/-- `_positive_int` and `_non_negative_int`. A bool is an integer. -/
def intFrom (least default : ℕ) : Option LoadedValue → ℕ
  | some (.int i) => if (least : ℤ) ≤ i then i.toNat else default
  | some (.bool b) => if least ≤ b.toNat then b.toNat else default
  | _ => default

theorem le_intFrom {least default : ℕ} (h : least ≤ default) (value : Option LoadedValue) :
    least ≤ intFrom least default value := by
  rw [intFrom.eq_def]
  split
  · split <;> omega
  · split <;> assumption
  · exact h

/-- `_location`. -/
def location : Option LoadedValue → ℕ × ℕ
  | some (.object fields) =>
      (intFrom 1 1 (LoadedObject.get? fields "line"), intFrom 0 0 (LoadedObject.get? fields "col"))
  | _ => (1, 0)

theorem one_le_location (value : Option LoadedValue) : 1 ≤ (location value).1 := by
  rw [location.eq_def]
  split
  · exact le_intFrom le_rfl _
  · exact Nat.le_refl 1

/-- The span of a result. -/
def resultSpan (result : LoadedObject) : SourceSpan where
  startLine := (location (result.get? "start")).1
  startCol := (location (result.get? "start")).2
  endLine := (location (result.get? "end")).1
  endCol := (location (result.get? "end")).2
  startLine_pos := one_le_location _
  endLine_pos := one_le_location _

/-- The `extra` object of a result. -/
def resultExtra (result : LoadedObject) : LoadedObject :=
  match result.get? "extra" with
  | some (.object extra) => extra
  | _ => []

/-- `_SEVERITY_MAP.get(severity.upper(), "info")`. -/
def semgrepSeverity (severity : String) : Severity :=
  let upper := String.ofList (severity.toList.map fun c => if c = 'ı' then 'I' else c.toUpper)
  if upper = "ERROR" then .critical
  else if upper = "WARNING" then .medium
  else .info

/-- `_matched_source`. -/
def matchedSource (extra : LoadedObject) (sourcePath : files.SourcePath) (span : SourceSpan) :
    Except ReadError String :=
  match extra.get? "lines" with
  | some (.str lines) => if lines ≠ "" then .ok lines else files.sourceText sourcePath span
  | _ => files.sourceText sourcePath span

theorem posixPath_idem (value : String) : posixPath (posixPath value) = posixPath value := by
  simp only [posixPath, String.toList_ofList, List.map_map]
  congr 1
  apply List.map_congr_left
  intro c _
  by_cases h : c = '\\' <;> simp [h]

/-- `SASTFinding(...)` with no ordinal. -/
def buildSast (ruleId modulePath qualifiedName normalizedText : String) (severity : Severity)
    (message : String) (span : SourceSpan) : Except ReadError (SASTFinding Digest) :=
  if h : ruleId ≠ "" ∧ posixPath modulePath ≠ "" ∧ qualifiedName ≠ "" then
    .ok { ruleId, modulePath := posixPath modulePath, qualifiedName, normalizedText, severity,
          message, sourceSpan := some span, ruleId_ne := h.1, modulePath_ne := h.2.1,
          qualifiedName_ne := h.2.2, modulePath_posix := posixPath_idem modulePath }
  else
    .error (.validation (([("rule_id", ruleId), ("module_path", modulePath),
      ("qualified_name", qualifiedName)].filter fun field => field.2 = "").map Prod.fst))

/-- `_finding_from_result`. -/
def findingFromResult (result : LoadedObject) : Except ReadError (SASTFinding Digest) := do
  let (sourcePath, modulePath) := files.sourcePaths (textField result "path")
  let extra := resultExtra result
  let span := resultSpan result
  let matched ← matchedSource files extra sourcePath span
  let qualifiedName ← files.qualifiedName sourcePath span.startLine
  buildSast (textField result "check_id") modulePath qualifiedName (files.normalizeText matched)
    (semgrepSeverity (((extra.get? "severity").map LoadedValue.text).getD "INFO"))
    (textField extra "message") span

/-- `_result_items`. -/
def resultItems (payload : LoadedObject) : List LoadedObject :=
  match payload.get? "results" with
  | some (.array results) => objects results
  | _ => []

/-- `_error_message`. -/
def errorMessage : LoadedValue → String
  | .object error =>
      ((["message", "type"].filterMap (LoadedObject.get? error)).find? truthy).elim
        (LoadedValue.object error).text LoadedValue.text
  | error => error.text

/-- `_reported_errors`. -/
def reportedErrors (payload : LoadedObject) : List String :=
  match payload.get? "errors" with
  | some (.array errors) => (errors.filter truthy).map errorMessage
  | _ => []

/-- `_semgrep_version`. -/
def semgrepVersion (payload : LoadedObject) : String :=
  match (payload.get? "version").filter truthy with
  | some version => version.text
  | none =>
      match payload.get? "semgrep_version" with
      | none | some .null => ""
      | some version => version.text

/-- `_reported_scanned_paths`. -/
def reportedScannedPaths (payload : LoadedObject) : Option (List String) :=
  match payload.get? "paths" with
  | some (.object paths) =>
      match LoadedObject.get? paths "scanned" with
      | some (.array scanned) => some (scanned.map LoadedValue.text)
      | _ => none
  | _ => none

local instance pathTextLeTrans : IsTrans String fun a b => a ≤ b := inferInstance

local instance pathTextLeAntisymm : Std.Antisymm fun a b : String => a ≤ b := inferInstance

/-- `_scanned_path_coverage_error`. -/
def scannedPathCoverageError (payload : LoadedObject) : Option String :=
  if files.expectedPaths = ∅ then none
  else
    match reportedScannedPaths payload with
    | none => some "semgrep did not report scanned paths"
    | some scanned =>
        let reported := (scanned.map fun pathText => (files.sourcePaths pathText).2).toFinset
        let missing := (files.expectedPaths \ reported).sort (· ≤ ·)
        if missing ≠ [] then
          some ("semgrep did not scan expected target files: " ++ ", ".intercalate missing)
        else none

def sastSortKey (finding : SASTFinding Digest) :
    String ×ₗ (ℕ ×ₗ ℕ ×ₗ ℕ ×ₗ ℕ) ×ₗ String ×ₗ String :=
  toLex (finding.modulePath,
    toLex ((finding.sourceSpan.map SourceSpan.sortKey).getD (toLex (0, toLex (0, toLex (0, 0)))),
      toLex (finding.ruleId, finding.message)))

/-- `SemgrepAdapter.from_json`. Nothing is caught. -/
def semgrepFromJson (rulesetHash : Option String) (payload : LoadedObject) :
    Except ReadError (ScanResult Digest) :=
  let sensorSpec : Sensor.SensorSpec := { rulesetHash := rulesetHash }
  let error (message : String) : Except ReadError (ScanResult Digest) :=
    .ok (errorResult "semgrep" (by decide) "" message sensorSpec)
  if reportedErrors payload ≠ [] then
    error ("semgrep reported errors: " ++ "; ".intercalate (reportedErrors payload))
  else
    match scannedPathCoverageError files payload with
    | some message => error message
    | none => do
        let findings ← (resultItems payload).mapM (findingFromResult files)
        .ok (completeResult "semgrep" (by decide) (semgrepVersion payload)
          ((KeyedSort.sortBy sastSortKey findings).map .sast) sensorSpec)

end Semgrep

end SemanticCi.Scanner
