import SemanticCi.Model.ReportPayload
import SemanticCi.Python.Path

/-! The SARIF report (`cli/output_sarif.py`) and the locations in evidence
(`cli/output_locations.py`). The final `json.dumps` of the document is left out. -/

namespace SemanticCi.Report

open SemanticCi.Python OrderedDict

/-! ## Locations -/

/-- A file with the value of its line, an `int` in the sense of `isinstance`. -/
abbrev FileLine := String × Option PyScalar

/-- `isinstance(line_value, int)`. -/
def lineValue : Option PyValue → Option PyScalar
  | some (.scalar (.int line)) => some (.int line)
  | some (.scalar (.bool line)) => some (.bool line)
  | _ => none

/-- The answer for a `dict`, whose values come with their own answers. -/
def findInDict (entries : List (PyScalar × PyValue × Option FileLine)) : Option FileLine :=
  match entries.lookup (.str "file") with
  | some (.scalar (.str file), _) =>
    some (file, lineValue ((entries.lookup (.str "line")).map Prod.fst))
  | _ => entries.findSome? fun entry => entry.2.2

/-- `_pair_list_mapping`, over the text keys and values of the pairs. -/
def pairListMapping {α : Type} (items : List (Option (Option String × α))) :
    Option (List (PyScalar × α)) := do
  if items = [] then none
  else
    let pairs : List (String × α) ← items.mapM fun item => do
      let (key, value) ← item
      return (← key, value)
    return (ofPairs pairs).entries.map fun entry => (.str entry.1, entry.2)

mutual

/-- `find_file_line`. -/
def findFileLine : PyValue → Option FileLine
  | .dict entries => findInDict (findInPairs entries)
  | .seq .list items =>
    ((pairListMapping (pairItems items)).bind findInDict).or (findInItems items)
  | _ => none

def findInPairs : List (PyScalar × PyValue) → List (PyScalar × PyValue × Option FileLine)
  | [] => []
  | (key, value) :: rest => (key, value, findFileLine value) :: findInPairs rest

def findInItems : List PyValue → Option FileLine
  | [] => none
  | item :: rest => (findFileLine item).or (findInItems rest)

/-- The items that are pairs, each with its text key and the answer for its value. -/
def pairItems : List PyValue → List (Option (Option String × PyValue × Option FileLine))
  | [] => []
  | .seq _ [.scalar (.str key), value] :: rest =>
    some (some key, value, findFileLine value) :: pairItems rest
  | .seq _ [_, value] :: rest => some (none, value, findFileLine value) :: pairItems rest
  | _ :: rest => none :: pairItems rest

end

/-- The pieces of a text between slashes. -/
def slashPieces (text : String) : List String :=
  (text.toList.splitOn '/').map String.ofList

/-- What follows the directory of a temporary tree. -/
def temporarySuffix : List String → Option (List String)
  | [] => none
  | part :: rest =>
    if ("semantic-ci-baseline-".toList.isPrefixOf part.toList ∨
        "semantic-ci-candidate-".toList.isPrefixOf part.toList) ∧ rest ≠ [] then some rest
    else temporarySuffix rest

/-- `Path(file_path).relative_to(Path.cwd()).as_posix()` of a path below `/`. A path whose root
is `//` is below no working directory. -/
def relativeTo (cwd : PurePath) (filePath : String) : Option String :=
  let parts := (slashPieces filePath).filter fun piece => piece ≠ "" ∧ piece ≠ "."
  if filePath.toList.take 2 = ['/', '/'] ∧ filePath.toList.take 3 ≠ ['/', '/', '/'] then none
  else if List.isPrefixOf cwd parts then some (PurePath.text (parts.drop cwd.length))
  else none

/-- `normalize_annotation_path`. -/
def normalizeAnnotationPath (cwd : PurePath) (filePath : String) : String :=
  let normalized := Ssp.posixPath filePath
  match temporarySuffix ((slashPieces normalized).filter (· ≠ "")) with
  | some suffix => "/".intercalate suffix
  | none =>
    if filePath.toList.head? = some '/' then (relativeTo cwd filePath).getD normalized
    else normalized

/-! ## The document -/

inductive SarifLevel
  | none
  | note
  | warning
  | error
deriving DecidableEq

structure SarifRegion where
  startLine : PyScalar
  endLine : Option ℕ := none
  startColumn : Option ℕ := none
  endColumn : Option ℕ := none

structure SarifLocation where
  uri : String
  region : Option SarifRegion

structure CodeProperties where
  status : String
  errorCode : Option String
  unknownCause : Option String
  target : String
  operator : String

structure SecurityProperties where
  category : String
  sensorId : Option String
  severity : String
  canonicalId : Option String

structure SarifResult (Properties : Type) where
  ruleId : String
  level : SarifLevel
  message : String
  properties : Properties
  location : Option SarifLocation := none

inductive RuleProperties
  | code (source kind target operator severity unknownPolicy : String)
      (repairCode : Option String)
  | security (properties : SecurityProperties)

/-- A rule; its name and short description repeat the id. -/
structure SarifRule where
  id : String
  fullDescription : String
  properties : RuleProperties

structure Invocation where
  subcommand : String
  verdict : Option String
  mode : Option String
  engine : Engine

structure SarifDocument where
  rules : List SarifRule
  invocation : Invocation
  codeResults : List (SarifResult CodeProperties)
  securityResults : List (SarifResult SecurityProperties)

/-- The ids of the rules that the results name, in the order of `results`. -/
def SarifDocument.ruleIds (document : SarifDocument) : List String :=
  document.codeResults.map (·.ruleId) ++ document.securityResults.map (·.ruleId)

/-- What the renderer could raise. -/
inductive SarifError
  | keyError (key : String)
deriving DecidableEq

/-! ## Code results -/

/-- `_instructions_by_id`. -/
def instructionsById (payload : Payload) : OrderedDict String InstructionPayload :=
  ofPairs ((payload.repairPlan.getD []).map fun item => (item.constraintId, item))

/-- The text of a result, with and without an instruction. -/
def resultMessage (result : ResultPayload) : Option InstructionPayload → String
  | some instruction => instruction.message
  | none => "Constraint " ++ result.constraintId ++ " evaluated as " ++ result.status ++ "."

/-- `_rules_for_results`. -/
def rulesForResults (instructions : OrderedDict String InstructionPayload) (seen : List String) :
    List ResultPayload → List SarifRule
  | [] => []
  | result :: rest =>
    let ruleId := result.constraintId
    if ruleId ∈ seen then rulesForResults instructions seen rest
    else
      let instruction := instructions.get? ruleId
      { id := ruleId
        fullDescription := resultMessage result instruction
        properties := .code result.source result.kind result.target result.operator
          result.severity result.unknownPolicy (instruction.map (·.repairCode)) } ::
        rulesForResults instructions (ruleId :: seen) rest

/-- `_dedupe_rules`. -/
def dedupeRules (rules : List SarifRule) : List SarifRule := (indexBy (·.id) rules).values

/-- `_level`. -/
def level (result : ResultPayload) (instruction : Option InstructionPayload) : SarifLevel :=
  if result.status = "satisfied" then .none
  else if result.status = "skipped" then .note
  else
    let category := instruction.map (·.category)
    if category = some "fix_required" then .error
    else if category = some "suggested" then .warning
    else .note

/-- `_location`. -/
def location (cwd : PurePath) (result : ResultPayload) (instruction : Option InstructionPayload) :
    Option SarifLocation :=
  let evidenceSources := result.evidence :: match instruction with
    | some instruction =>
      [instruction.extraEvidence, .dict [(.str "observed", instruction.observed)]]
    | none => []
  (evidenceSources.findSome? findFileLine).map fun found =>
    { uri := normalizeAnnotationPath cwd found.1
      region := found.2.map fun line => { startLine := line } }

/-- `_sarif_result`. -/
def sarifResult (cwd : PurePath) (result : ResultPayload)
    (instruction : Option InstructionPayload) : SarifResult CodeProperties where
  ruleId := result.constraintId
  level := level result instruction
  message := resultMessage result instruction
  properties :=
    { status := result.status
      errorCode := result.errorCode
      unknownCause := result.unknownCause
      target := result.target
      operator := result.operator }
  location := location cwd result instruction

/-! ## Security results -/

/-- `finding[key]` of a key that some categories lack. -/
def getKey {α : Type} (key : String) : Option α → Except SarifError α
  | some value => .ok value
  | none => .error (.keyError key)

/-- `_security_rule_id`. -/
def securityRuleId (finding : FindingPayload) : Except SarifError String := do
  if finding.category = "sast" then return "security/" ++ (← getKey "rule_id" finding.ruleId)
  else return "security/" ++ (← getKey "advisory_id" finding.advisoryId)

/-- `_security_level`. -/
def securityLevel (severity : String) : SarifLevel :=
  if severity ∈ ["critical", "high"] then .error
  else if severity = "medium" then .warning
  else .note

/-- `_security_location`. -/
def securityLocation (cwd : PurePath) (finding : FindingPayload) :
    Except SarifError (Option SarifLocation) :=
  if finding.category ≠ "sast" then .ok none
  else
    match finding.sourceSpan with
    | none => .ok none
    | some span => do
      let modulePath ← getKey "module_path" finding.modulePath
      return some {
        uri := normalizeAnnotationPath cwd modulePath
        region := some {
          startLine := .int span.startLine
          endLine := some span.endLine
          startColumn := some (max 1 span.startCol)
          endColumn := some (max 1 span.endCol) } }

/-- `_security_finding_result`. -/
def securityFindingResult (cwd : PurePath) (finding : FindingPayload) :
    Except SarifError (SarifResult SecurityProperties) := do
  let ruleId ← securityRuleId finding
  let found ← securityLocation cwd finding
  return {
    ruleId := ruleId
    level := securityLevel finding.severity
    message :=
      if finding.message ≠ "" then finding.message
      else "Security finding " ++ finding.canonicalId ++ " was added."
    properties :=
      { category := finding.category
        sensorId := some finding.sensorId
        severity := finding.severity
        canonicalId := some finding.canonicalId }
    location := found }

/-- `_security_unknown_result`. -/
def securityUnknownResult (sensor : SensorPayload) (reason : String) :
    SarifResult SecurityProperties where
  ruleId :=
    if sensor.provenanceChanged then "security/provenance-drift" else "security/sensor-unknown"
  level := .note
  message := reason
  properties :=
    { category := "sensor"
      sensorId := some sensor.sensorId
      severity := "info"
      canonicalId := none }

/-- `_security_policy_result`. -/
def securityPolicyResult (ruleId message : String) (sensorId : Option String) :
    SarifResult SecurityProperties where
  ruleId := ruleId
  level := .error
  message := message
  properties :=
    { category := "policy"
      sensorId := sensorId
      severity := "critical"
      canonicalId := none }

/-- `_has_visible_failure`. -/
def hasVisibleFailure {Properties : Type} (results : List (SarifResult Properties)) : Bool :=
  results.any fun result => result.level ∈ [.error, .warning]

/-- `if sensor["status"] == "unknown" and drift_reason`. -/
def unknownResults (sensor : SensorPayload) : List (SarifResult SecurityProperties) :=
  match sensor.driftReason with
  | some reason =>
    if sensor.status = "unknown" ∧ reason ≠ "" then [securityUnknownResult sensor reason] else []
  | none => []

/-- The body of the loop over the sensors. -/
def sensorSarifResults (cwd : PurePath) (sensor : SensorPayload) :
    Except SarifError (List (SarifResult SecurityProperties)) := do
  let sensorResults ←
    (sensor.added.insertionSort fun a b => a.canonicalId ≤ b.canonicalId).mapM
      (securityFindingResult cwd)
  let policyResults :=
    if sensor.status = "fail" ∧ ¬ hasVisibleFailure sensorResults then
      [securityPolicyResult "security/policy-violation"
        ("Security policy failed for sensor " ++ sensor.sensorId ++ ".") (some sensor.sensorId)]
    else []
  return unknownResults sensor ++ sensorResults ++ policyResults

/-- `_security_sarif_results`. -/
def securitySarifResults (cwd : PurePath) :
    Option SecurityPayload → Except SarifError (List (SarifResult SecurityProperties))
  | none => .ok []
  | some security => do
    let results ← (security.sensors.insertionSort fun a b => a.sensorId ≤ b.sensorId).mapM
      (sensorSarifResults cwd)
    return results.flatten ++
      if security.globalCountViolated then
        [securityPolicyResult "security/policy-global-count"
          "Security policy findings.added.max_count was exceeded." none]
      else []

/-- `_security_rules_for_results`. -/
def securityRulesForResults (results : List (SarifResult SecurityProperties)) : List SarifRule :=
  results.map fun result =>
    { id := result.ruleId
      fullDescription := result.message
      properties := .security result.properties }

/-! ## The report -/

/-- `format_sarif`. -/
def formatSarif (cwd : PurePath) (payload : Payload) : Except SarifError SarifDocument := do
  let instructions := instructionsById payload
  let codeResults := payload.results.map fun result =>
    sarifResult cwd result (instructions.get? result.constraintId)
  let securityResults ← securitySarifResults cwd payload.security
  return {
    rules := dedupeRules (rulesForResults instructions [] payload.results ++
      securityRulesForResults securityResults)
    invocation :=
      { subcommand := payload.subcommand
        verdict := payload.verdict
        mode := payload.mode
        engine := payload.engine }
    codeResults := codeResults
    securityResults := securityResults }

end SemanticCi.Report
