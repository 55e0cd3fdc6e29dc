import Mathlib.Data.Prod.Lex
import Mathlib.Data.String.Basic
import Mathlib.Data.Sum.Order
import SemanticCi.Library.OrderedDict

/-! The Semantic Security Protocol: the findings of one sensor, their fingerprints and the
delta of two scans. -/

namespace SemanticCi.Ssp

open OrderedDict

/-! ## Findings -/

inductive Severity
  | critical
  | high
  | medium
  | low
  | info
deriving DecidableEq, Repr

inductive SensorStatus
  | complete
  | error
deriving DecidableEq, Repr

inductive SSPResult
  | pass
  | fail
  | unknown
deriving DecidableEq, Repr

structure SourceSpan where
  startLine : ℕ
  startCol : ℕ
  endLine : ℕ
  endCol : ℕ
  startLine_pos : 1 ≤ startLine
  endLine_pos : 1 ≤ endLine
deriving DecidableEq

def SourceSpan.sortKey (span : SourceSpan) : ℕ ×ₗ ℕ ×ₗ ℕ ×ₗ ℕ :=
  toLex (span.startLine, toLex (span.startCol, toLex (span.endLine, span.endCol)))

/-- `value.replace("\\", "/")`. -/
def posixPath (value : String) : String :=
  String.ofList (value.toList.map fun c => if c = '\\' then '/' else c)

/-- An item of a digested array. -/
abbrev Component := String ⊕ₗ ℕ

/-- A finding of a static analysis. The validators leave no empty name and no backslash. -/
structure SASTFinding (Digest : Type) where
  ruleId : String
  modulePath : String
  qualifiedName : String
  normalizedText : String
  ordinal : Option ℕ := none
  fingerprint : Option Digest := none
  severity : Severity
  message : String := ""
  sourceSpan : Option SourceSpan := none
  ruleId_ne : ruleId ≠ ""
  modulePath_ne : modulePath ≠ ""
  modulePath_posix : posixPath modulePath = modulePath
  qualifiedName_ne : qualifiedName ≠ ""
deriving DecidableEq

structure SCAFinding (Digest : Type) where
  packageName : String
  installedVersion : String
  advisoryId : String
  fingerprint : Option Digest := none
  severity : Severity
  message : String := ""
  packageName_ne : packageName ≠ ""
  installedVersion_ne : installedVersion ≠ ""
  advisoryId_ne : advisoryId ≠ ""
deriving DecidableEq

inductive Finding (Digest : Type)
  | sast (finding : SASTFinding Digest)
  | sca (finding : SCAFinding Digest)
deriving DecidableEq

namespace Finding

variable {Digest : Type}

def fingerprint : Finding Digest → Option Digest
  | sast f => f.fingerprint
  | sca f => f.fingerprint

def severity : Finding Digest → Severity
  | sast f => f.severity
  | sca f => f.severity

def sast? : Finding Digest → Option (SASTFinding Digest)
  | sast f => some f
  | sca _ => none

def sca? : Finding Digest → Option (SCAFinding Digest)
  | sast _ => none
  | sca f => some f

end Finding

structure SensorOutput (Digest : Type) where
  sensorId : String
  sensorVersion : String := ""
  status : SensorStatus := .complete
  findings : List (Finding Digest) := []
  errorMessage : Option String := none
  sensorId_ne : sensorId ≠ ""
  error_findings : status = .error → findings = []

structure SSPDelta (Digest : Type) where
  sensorId : String
  status : SSPResult
  added : List (Finding Digest) := []
  removed : List (Finding Digest) := []
  unchangedCount : ℕ
  errorMessage : Option String := none
deriving DecidableEq

/-! ## Fingerprints -/

section Digests

-- `_digest_array`: the first 16 hex digits of the SHA-256 of a dumped array.
variable {Digest : Type} (digest : List Component → Digest)

def sastFingerprint (ruleId modulePath qualifiedName normalizedText : String) (ordinal : ℕ) :
    Digest :=
  digest [Sum.inlₗ ruleId, Sum.inlₗ modulePath, Sum.inlₗ qualifiedName, Sum.inlₗ normalizedText,
    Sum.inrₗ ordinal]

def scaFingerprint (packageName installedVersion advisoryId : String) : Digest :=
  digest [Sum.inlₗ packageName, Sum.inlₗ installedVersion, Sum.inlₗ advisoryId]

/-! ## Ordinals -/

/-- The 4-tuple whose findings the ordinal tells apart. -/
structure SastGroup where
  ruleId : String
  modulePath : String
  qualifiedName : String
  normalizedText : String
deriving DecidableEq

/-- `_sast_group_key`. -/
def sastGroupKey (finding : SASTFinding Digest) : SastGroup :=
  ⟨finding.ruleId, finding.modulePath, finding.qualifiedName, finding.normalizedText⟩

/-- The last component of a dedup key. A finding without a span repeats no other. -/
inductive SpanKey
  | span (key : ℕ ×ₗ ℕ ×ₗ ℕ ×ₗ ℕ)
  | spanless (originalIndex : ℕ)
deriving DecidableEq

def spanKey (finding : SASTFinding Digest) (originalIndex : ℕ) : SpanKey :=
  match finding.sourceSpan with
  | some span => .span span.sortKey
  | none => .spanless originalIndex

/-- `_sast_dedup_key`. -/
def sastDedupKey (finding : SASTFinding Digest) (originalIndex : ℕ) : SastGroup × SpanKey :=
  (sastGroupKey finding, spanKey finding originalIndex)

/-- `_span_sort_key`. -/
def spanSortKey (finding : SASTFinding Digest) (originalIndex : ℕ) :
    (ℕ ×ₗ ℕ ×ₗ ℕ ×ₗ ℕ) ×ₗ ℕ :=
  match finding.sourceSpan with
  | none => toLex (toLex (0, toLex (0, toLex (0, 0))), originalIndex)
  | some span => toLex (span.sortKey, originalIndex)

/-- `enumerate`. -/
def enumerate {α : Type*} (items : List α) : List (ℕ × α) :=
  items.zipIdx.map Prod.swap

/-- The `unique` findings: the first one of every dedup key. -/
def uniqueFindings (findings : List (SASTFinding Digest)) : List (ℕ × SASTFinding Digest) :=
  (indexBy (fun item : ℕ × SASTFinding Digest => sastDedupKey item.2 item.1)
    (enumerate findings)).values

def sortGroup (group : List (ℕ × SASTFinding Digest)) : List (ℕ × SASTFinding Digest) :=
  group.insertionSort fun a b => spanSortKey a.2 a.1 ≤ spanSortKey b.2 b.1

/-- `finding.model_copy(update={"ordinal": ..., "fingerprint": ...})`. -/
def withOrdinal (finding : SASTFinding Digest) (ordinal : ℕ) : SASTFinding Digest :=
  { finding with
    ordinal := some ordinal
    fingerprint := some (sastFingerprint digest finding.ruleId finding.modulePath
      finding.qualifiedName finding.normalizedText ordinal) }

def assignGroup (group : List (ℕ × SASTFinding Digest)) : List (ℕ × SASTFinding Digest) :=
  (enumerate (sortGroup group)).map fun item => (item.2.1, withOrdinal digest item.2.2 item.1)

/-- `assign_sast_ordinals`. -/
def assignSastOrdinals (findings : List (SASTFinding Digest)) : List (SASTFinding Digest) :=
  let grouped := groupBy (fun item : ℕ × SASTFinding Digest => sastGroupKey item.2)
    (uniqueFindings findings)
  let assigned := grouped.values.flatMap (assignGroup digest)
  (assigned.insertionSort fun a b => a.1 ≤ b.1).map Prod.snd

/-! ## The delta of two outputs -/

/-- What `compute_delta` raises. -/
inductive SspError
  | sensorIdMismatch (baseline candidate : String)
  | noFingerprint
deriving DecidableEq, Repr

/-- The SCA branch of `_with_fingerprint`. -/
def withFingerprint (finding : SCAFinding Digest) : SCAFinding Digest :=
  { finding with
    fingerprint := some (scaFingerprint digest finding.packageName finding.installedVersion
      finding.advisoryId) }

/-- A finding under its fingerprint. -/
def requireFingerprint (finding : Finding Digest) : Except SspError (Digest × Finding Digest) :=
  match finding.fingerprint with
  | some fingerprint => .ok (fingerprint, finding)
  | none => .error .noFingerprint

variable [LinearOrder Digest]

/-- `_findings_by_fingerprint`. -/
def findingsByFingerprint (findings : List (Finding Digest)) :
    Except SspError (OrderedDict Digest (Digest × Finding Digest)) := do
  let keyed ← findings.mapM requireFingerprint
  return indexBy Prod.fst keyed

/-- `_dedup_fingerprinted`. -/
def dedupFingerprinted (findings : List (Finding Digest)) :
    Except SspError (List (Finding Digest)) := do
  let byFp ← findingsByFingerprint findings
  return byFp.sortedValues.map Prod.snd

/-- `_fingerprinted_findings`. -/
def fingerprintedFindings (findings : List (Finding Digest)) :
    Except SspError (List (Finding Digest)) :=
  let sastFindings := findings.filterMap Finding.sast?
  let scaFindings := findings.filterMap Finding.sca?
  dedupFingerprinted ((assignSastOrdinals digest sastFindings).map .sast ++
    scaFindings.map fun finding => .sca (withFingerprint digest finding))

/-- `_FAIL_SEVERITIES`. -/
def failSeverities : List Severity := [.critical, .high, .medium, .low]

/-- `verdict_for_delta`. -/
def verdictForDelta (delta : SSPDelta Digest) : SSPResult :=
  if delta.status = .unknown then .unknown
  else if delta.added.any fun finding => finding.severity ∈ failSeverities then .fail
  else .pass

/-- `compute_delta`. -/
def computeDelta (baseline candidate : SensorOutput Digest) : Except SspError (SSPDelta Digest) :=
  if baseline.sensorId ≠ candidate.sensorId then
    .error (.sensorIdMismatch baseline.sensorId candidate.sensorId)
  else if baseline.status = .error ∨ candidate.status = .error then
    .ok { sensorId := candidate.sensorId
          status := .unknown
          unchangedCount := 0
          errorMessage := (candidate.errorMessage.filter (· ≠ "")).or baseline.errorMessage }
  else do
    let baselineByFp ← findingsByFingerprint (← fingerprintedFindings digest baseline.findings)
    let candidateByFp ← findingsByFingerprint (← fingerprintedFindings digest candidate.findings)
    let delta : SSPDelta Digest :=
      { sensorId := candidate.sensorId
        status := .pass
        added := (missingValues candidateByFp baselineByFp).map Prod.snd
        removed := (missingValues baselineByFp candidateByFp).map Prod.snd
        unchangedCount := (sortedCommonKeys baselineByFp candidateByFp).length }
    return { delta with status := verdictForDelta delta }

end Digests

end SemanticCi.Ssp
