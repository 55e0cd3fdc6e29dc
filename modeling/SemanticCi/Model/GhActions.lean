import SemanticCi.Library.Escapes
import SemanticCi.Model.Sarif

/-! The workflow commands of GitHub Actions (`cli/output_gh_actions.py`). -/

namespace SemanticCi.Report

open SemanticCi.Python

/-- The `dict` that `_serialize_repair_instruction` gives of an instruction. -/
structure InstructionRecord extends InstructionPayload where
  source : String
  kind : String
  target : String
  operator : String
  severity : String
  unknownPolicy : String
  status : String
  errorCode : Option String
  unknownCause : Option String
  expected : PyValue
  added : List PyValue
  removed : List PyValue
  missing : List PyValue
  extra : List PyValue

/-- The keys in the order of the `dict`. -/
def InstructionRecord.dict (instruction : InstructionRecord) : PyValue :=
  .dict
    [(.str "constraint_id", .str instruction.constraintId),
      (.str "source", .str instruction.source),
      (.str "kind", .str instruction.kind),
      (.str "target", .str instruction.target),
      (.str "operator", .str instruction.operator),
      (.str "severity", .str instruction.severity),
      (.str "unknown_policy", .str instruction.unknownPolicy),
      (.str "status", .str instruction.status),
      (.str "error_code", optionalText instruction.errorCode),
      (.str "unknown_cause", optionalText instruction.unknownCause),
      (.str "repair_code", .str instruction.repairCode),
      (.str "category", .str instruction.category),
      (.str "message", .str instruction.message),
      (.str "observed", instruction.observed),
      (.str "expected", instruction.expected),
      (.str "added", .list instruction.added),
      (.str "removed", .list instruction.removed),
      (.str "missing", .list instruction.missing),
      (.str "extra", .list instruction.extra),
      (.str "extra_evidence", instruction.extraEvidence)]

/-- `text.replace(old, new)`. -/
def replace (text old new : String) : String :=
  String.ofList (Escapes.replaceAll old.toList new.toList text.toList)

/-- `_escape_message`. -/
def escapeMessage (value : String) : String :=
  replace (replace (replace value "%" "%25") "\r" "%0D") "\n" "%0A"

/-- `_escape_property`. -/
def escapeProperty (value : String) : String :=
  replace (replace (escapeMessage value) ":" "%3A") "," "%2C"

/-- `_command_name`. -/
def commandName (instruction : InstructionRecord) : String :=
  if instruction.category = "fix_required" then "error"
  else if instruction.category = "suggested" then "warning"
  else "notice"

/-- `_properties`. -/
def properties (cwd : PurePath) (instruction : InstructionRecord) : List (String × String) :=
  match findFileLine instruction.dict with
  | none => []
  | some (filePath, none) => [("file", normalizeAnnotationPath cwd filePath)]
  | some (filePath, some line) =>
    [("file", normalizeAnnotationPath cwd filePath), ("line", keyText line)]

/-- The message of `_workflow_command`. -/
def commandMessage (instruction : InstructionRecord) : String :=
  instruction.repairCode ++ " " ++ instruction.constraintId ++ ": " ++ instruction.message

/-- `_workflow_command`. -/
def workflowCommand (cwd : PurePath) (instruction : InstructionRecord) : String :=
  let command := commandName instruction
  let found := properties cwd instruction
  let message := commandMessage instruction
  if found ≠ [] then
    let rendered := ",".intercalate (found.map fun item => item.1 ++ "=" ++ escapeProperty item.2)
    "::" ++ command ++ " " ++ rendered ++ "::" ++ escapeMessage message
  else "::" ++ command ++ "::" ++ escapeMessage message

/-- `format_gh_actions`, of the instructions of a plan if there is one. -/
def formatGhActions (cwd : PurePath) (repairPlan : Option (List InstructionRecord)) : String :=
  let lines := (repairPlan.getD []).map (workflowCommand cwd)
  String.join (lines.map fun line => line ++ "\n")

end SemanticCi.Report
