import SemanticCi.Library.ExceptRules
import SemanticCi.Model.ScannerOutput

/-! When the output of a scanner is read fail-closed: as a complete scan only if no record of it
is left out, and as an error otherwise. -/

namespace SemanticCi.Scanner

open SemanticCi.Python Ssp LoadedValue ExceptRules

/-! ## The shape of a payload -/

/-- The value under the first key that is not empty, or else under the first key that is there. -/
def packageCollection : LoadedValue → Option LoadedValue
  | .object fields =>
      let found := ["dependencies", "packages", "results"].filterMap (LoadedObject.get? fields)
      (found.find? truthy).or found.head?
  | payload => some payload

/-- The vulnerabilities of a package whose `vulns` field, if present, is a list of objects. -/
inductive VulnsOf (package : LoadedObject) : List LoadedObject → Prop where
  | absent (h : package.get? "vulns" = none) : VulnsOf package []
  | present {vulns} (h : package.get? "vulns" = some (.array (vulns.map .object))) :
      VulnsOf package vulns

/-- A payload of package objects, each with its vulnerabilities. -/
structure Conforms (payload : LoadedValue) (packages : List (LoadedObject × List LoadedObject)) :
    Prop where
  collection : packageCollection payload =
    some (.array (packages.map fun package => .object package.1))
  vulns : ∀ package ∈ packages, VulnsOf package.1 package.2

/-- The pairs of a package and one of its vulnerabilities. -/
def pairs (packages : List (LoadedObject × List LoadedObject)) :
    List (LoadedObject × LoadedObject) :=
  packages.flatMap fun package => package.2.map (package.1, ·)

/-- The pairs that are read. -/
def kept (payload : LoadedValue) : List (LoadedObject × LoadedObject) :=
  pairs ((packageItems payload).map fun package => (package, vulnItems package))

theorem objects_map_object (records : List LoadedObject) :
    objects (records.map .object) = records := by
  rw [objects, List.filterMap_map]
  exact List.filterMap_some

theorem VulnsOf.vulnItems_eq {package : LoadedObject} {vulns : List LoadedObject}
    (h : VulnsOf package vulns) : vulnItems package = vulns := by
  cases h with
  | absent h => simp [vulnItems, h]
  | present h => simp [vulnItems, h, objects_map_object]

theorem Conforms.packageItems_eq {payload : LoadedValue}
    {packages : List (LoadedObject × List LoadedObject)} (h : Conforms payload packages) :
    packageItems payload = packages.map Prod.fst := by
  have hmap : packages.map (fun package => LoadedValue.object package.1) =
      (packages.map Prod.fst).map .object := by
    rw [List.map_map]
    rfl
  have hcollection := h.collection
  rw [hmap] at hcollection
  cases payload with
  | object fields =>
      rw [packageCollection] at hcollection
      simp only [packageItems] at hcollection ⊢
      cases hfind : (["dependencies", "packages", "results"].filterMap
          (LoadedObject.get? fields)).find? truthy with
      | some value =>
          rw [hfind, Option.some_or, Option.some_inj] at hcollection
          rw [Option.getD_some, hcollection]
          exact objects_map_object _
      | none =>
          -- An empty collection behind no other one.
          rw [hfind, Option.none_or] at hcollection
          have hempty := List.find?_eq_none.mp hfind _ (List.mem_of_head? hcollection)
          have hnil : packages = [] := by simpa [truthy] using hempty
          rw [hnil]
          rfl
  | array items =>
      cases hcollection
      exact objects_map_object _
  | _ => cases hcollection

theorem Conforms.kept_eq {payload : LoadedValue}
    {packages : List (LoadedObject × List LoadedObject)} (h : Conforms payload packages) :
    kept payload = pairs packages := by
  rw [kept, h.packageItems_eq, pairs, pairs, List.map_map, List.flatMap_map]
  apply List.flatMap_congr
  intro package hpackage
  simp only [Function.comp_apply, (h.vulns package hpackage).vulnItems_eq]

/-! ## The score of a record -/

/-- What the search for a score looks at. -/
inductive Candidate where
  | number (value : PyNum)
  | text (value : String)

mutual

def candidates : LoadedValue → List Candidate
  | .object items =>
      let entries := candidateEntries items
      ["cvss_score", "cvss", "score", "value"].flatMap fun key =>
        ((entries.find? fun entry => entry.1 = key).map Prod.snd).getD []
  | .array items => candidateItems items
  | .bool b => [.number (.int (if b then 1 else 0))]
  | .int i => [.number (.int i)]
  | .float f => [.number (.float f)]
  | .str text => [.text text]
  | .null => []

def candidateItems : List LoadedValue → List Candidate
  | [] => []
  | item :: items => candidates item ++ candidateItems items

def candidateEntries : LoadedObject → List (String × List Candidate)
  | [] => []
  | (key, value) :: items => (key, candidates value) :: candidateEntries items

end

def metadataCandidates : Option LoadedValue → List Candidate
  | some (.object fields) => candidates (.object fields)
  | some (.array items) => (objects items).flatMap fun fields => candidates (.object fields)
  | _ => []

/-- The candidates of a vulnerability, and behind them those of its `severity` field. -/
def vulnCandidates (vuln : LoadedObject) : List Candidate :=
  candidates (.object vuln) ++ metadataCandidates (vuln.get? "severity")

/-- The first number that the search finds is an integer that is no float. -/
def TooLarge (vuln : LoadedObject) : Prop :=
  ∃ front i back, vulnCandidates vuln = front ++ .number (.int i) :: back ∧
    (∀ candidate ∈ front, ∃ text, candidate = .text text ∧ floatOfText text = none) ∧
    (PyNum.int i).toFloat = .error .overflowError

/-- The first score among candidates. -/
def readFirst : List Candidate → Except ReadError (Option PyFloat)
  | [] => .ok none
  | .number value :: _ => floatOfNumber value
  | .text text :: rest => if (floatOfText text).isSome then .ok (floatOfText text) else readFirst rest

theorem firstScore_singleton (reading : Except ReadError (Option PyFloat)) :
    firstScore [reading] = reading := by
  cases reading with
  | error _ => rfl
  | ok score => cases score <;> rfl

theorem firstScore_cons (reading : Except ReadError (Option PyFloat))
    (readings : List (Except ReadError (Option PyFloat))) :
    firstScore (reading :: readings) = firstScore [reading, firstScore readings] := by
  rw [firstScore, firstScore, firstScore_singleton]

theorem readFirst_append (front back : List Candidate) :
    readFirst (front ++ back) = firstScore [readFirst front, readFirst back] := by
  induction front with
  | nil => exact (firstScore_singleton _).symm
  | cons candidate front ih =>
      cases candidate with
      | number value =>
          rw [List.cons_append, readFirst, readFirst, floatOfNumber]
          split <;> rfl
      | text text =>
          rw [List.cons_append, readFirst, readFirst]
          cases floatOfText text with
          | none => exact ih
          | some score => rfl

theorem firstScore_map_readFirst {α : Type} (xs : List α) (f : α → List Candidate) :
    firstScore (xs.map fun x => readFirst (f x)) = readFirst (xs.flatMap f) := by
  induction xs with
  | nil => rfl
  | cons x xs ih =>
      rw [List.map_cons, firstScore_cons, List.flatMap_cons, readFirst_append, ih]

mutual

theorem cvssScore_eq : ∀ value : LoadedValue, cvssScore value = readFirst (candidates value)
  | .object items => by
      rw [cvssScore, candidates]
      simp only [cvssScoreEntries_eq items]
      rw [← firstScore_map_readFirst]
      congr 2
      funext key
      rw [List.find?_map]
      simp only [Function.comp_def, Prod.map_fst, id_eq]
      cases (candidateEntries items).find? fun entry => entry.1 = key <;> rfl
  | .array items => by rw [cvssScore, candidates, firstScore_cvssScoreItems items]
  | .bool _ | .int _ | .float _ => by rw [cvssScore, candidates, readFirst]
  | .str text => by
      rw [cvssScore, candidates, readFirst, readFirst]
      cases floatOfText text <;> rfl
  | .null => by rw [cvssScore, candidates, readFirst]

theorem firstScore_cvssScoreItems : ∀ items : List LoadedValue,
    firstScore (cvssScoreItems items) = readFirst (candidateItems items)
  | [] => by rw [cvssScoreItems, candidateItems, firstScore, readFirst]
  | item :: items => by
      rw [cvssScoreItems, candidateItems, firstScore_cons, readFirst_append, cvssScore_eq item,
        firstScore_cvssScoreItems items]

theorem cvssScoreEntries_eq : ∀ items : LoadedObject,
    cvssScoreEntries items = (candidateEntries items).map (Prod.map id readFirst)
  | [] => by rw [cvssScoreEntries, candidateEntries, List.map_nil]
  | (key, value) :: items => by
      rw [cvssScoreEntries, candidateEntries, cvssScore_eq value, cvssScoreEntries_eq items]
      rfl

end

theorem cvssScoreFromSeverityMetadata_eq (value : Option LoadedValue) :
    cvssScoreFromSeverityMetadata value = readFirst (metadataCandidates value) := by
  cases value with
  | none => rfl
  | some value =>
      cases value with
      | object fields => exact cvssScore_eq _
      | array items =>
          rw [cvssScoreFromSeverityMetadata, metadataCandidates, ← firstScore_map_readFirst]
          simp only [cvssScore_eq]
      | _ => rfl

theorem floatOfNumber_eq_error_iff {value : PyNum} {error : ReadError} :
    floatOfNumber value = .error error ↔ error = .overflow ∧
      ∃ i, value = .int i ∧ (PyNum.int i).toFloat = .error .overflowError := by
  rw [floatOfNumber]
  cases value with
  | float f => simp [PyNum.toFloat]
  | int i =>
      have hcases : (∃ score, (PyNum.int i).toFloat = .ok score) ∨
          (PyNum.int i).toFloat = .error .overflowError := by
        rw [PyNum.toFloat]
        split
        · exact Or.inl ⟨_, rfl⟩
        · exact Or.inr rfl
      rcases hcases with ⟨score, h⟩ | h
      · simp [h]
      · simp [h, eq_comm]

theorem readFirst_eq_error_iff {found : List Candidate} {error : ReadError} :
    readFirst found = .error error ↔ error = .overflow ∧
      ∃ front i back, found = front ++ .number (.int i) :: back ∧
        (∀ candidate ∈ front, ∃ text, candidate = .text text ∧ floatOfText text = none) ∧
        (PyNum.int i).toFloat = .error .overflowError := by
  induction found with
  | nil => simp [readFirst]
  | cons candidate found ih =>
      cases candidate with
      | number value =>
          rw [readFirst, floatOfNumber_eq_error_iff]
          apply and_congr_right'
          constructor
          · rintro ⟨i, rfl, h⟩
            exact ⟨[], i, found, rfl, by simp, h⟩
          · rintro ⟨front, i, back, hsplit, hfront, h⟩
            cases front with
            | nil =>
                cases hsplit
                exact ⟨i, rfl, h⟩
            | cons head front =>
                cases hsplit
                obtain ⟨text, htext, -⟩ := hfront _ List.mem_cons_self
                cases htext
      | text text =>
          rw [readFirst]
          cases htext : floatOfText text with
          | some score =>
              constructor
              · intro h
                cases h
              · rintro ⟨-, front, i, back, hsplit, hfront, -⟩
                cases front with
                | nil => cases hsplit
                | cons head front =>
                    cases hsplit
                    obtain ⟨other, hother, hnone⟩ := hfront _ List.mem_cons_self
                    cases hother
                    rw [htext] at hnone
                    cases hnone
          | none =>
              refine (ih.trans (and_congr_right' ?_))
              constructor
              · rintro ⟨front, i, back, rfl, hfront, h⟩
                refine ⟨.text text :: front, i, back, rfl, ?_, h⟩
                simpa [htext] using hfront
              · rintro ⟨front, i, back, hsplit, hfront, h⟩
                cases front with
                | nil => cases hsplit
                | cons head front =>
                    cases hsplit
                    exact ⟨front, i, back, rfl, fun c hc => hfront c (List.mem_cons_of_mem _ hc), h⟩

theorem severityForVuln_eq_error_iff {vuln : LoadedObject} {error : ReadError} :
    severityForVuln vuln = .error error ↔ error = .overflow ∧ TooLarge vuln := by
  rw [TooLarge, ← readFirst_eq_error_iff, vulnCandidates, readFirst_append, ← cvssScore_eq,
    ← cvssScoreFromSeverityMetadata_eq, severityForVuln]
  cases firstScore [cvssScore (.object vuln), cvssScoreFromSeverityMetadata (vuln.get? "severity")]
  with
  | error _ => simp
  | ok score => cases score <;> simp

/-! ## The records of a payload -/

/-- A pair that names no package, no version or no advisory. -/
def Incomplete (pair : LoadedObject × LoadedObject) : Prop :=
  textField pair.1 "name" = "" ∨ textField pair.1 "version" = "" ∨ textField pair.2 "id" = ""

section Records

variable {Digest : Type}

/-- The finding of one pair. -/
def readPair (pair : LoadedObject × LoadedObject) : Except ReadError (SCAFinding Digest) :=
  findingFromVuln (textField pair.1 "name") (textField pair.1 "version") pair.2

/-- What a finding takes over from its pair. -/
structure FindingOf (pair : LoadedObject × LoadedObject) (finding : SCAFinding Digest) : Prop where
  packageName_eq : finding.packageName = textField pair.1 "name"
  installedVersion_eq : finding.installedVersion = textField pair.1 "version"
  advisoryId_eq : finding.advisoryId = textField pair.2 "id"
  severity_eq : severityForVuln pair.2 = .ok finding.severity
  message_eq : finding.message = messageForVuln pair.2

theorem readPair_eq_ok {pair : LoadedObject × LoadedObject} {finding : SCAFinding Digest}
    (h : readPair pair = .ok finding) :
    ¬ TooLarge pair.2 ∧ ¬ Incomplete pair ∧ FindingOf pair finding := by
  rw [readPair, findingFromVuln, bind_eq_ok_iff] at h
  obtain ⟨severity, hseverity, h⟩ := h
  have hlarge : ¬ TooLarge pair.2 := by
    intro hlarge
    rw [severityForVuln_eq_error_iff.mpr ⟨rfl, hlarge⟩] at hseverity
    cases hseverity
  rw [buildSca] at h
  split at h
  · next hne =>
      cases h
      refine ⟨hlarge, ?_, rfl, rfl, rfl, hseverity, rfl⟩
      simpa [Incomplete] using hne
  · cases h

theorem readPair_eq_overflow {pair : LoadedObject × LoadedObject}
    (h : @readPair Digest pair = .error .overflow) : TooLarge pair.2 := by
  rw [readPair, findingFromVuln, bind_eq_error_iff] at h
  rcases h with h | ⟨severity, -, h⟩
  · exact (severityForVuln_eq_error_iff.mp h).2
  · rw [buildSca] at h
    split at h <;> cases h

theorem readPair_eq_error {pair : LoadedObject × LoadedObject} {error : ReadError}
    (h : @readPair Digest pair = .error error) (herror : error ≠ .overflow) :
    ¬ TooLarge pair.2 ∧ Incomplete pair := by
  rw [readPair, findingFromVuln, bind_eq_error_iff] at h
  rcases h with h | ⟨severity, hseverity, h⟩
  · exact absurd (severityForVuln_eq_error_iff.mp h).1 herror
  · refine ⟨fun hlarge => ?_, ?_⟩
    · rw [severityForVuln_eq_error_iff.mpr ⟨rfl, hlarge⟩] at hseverity
      cases hseverity
    · rw [buildSca] at h
      split at h
      · cases h
      · next hne => simpa [Incomplete, or_iff_not_imp_left] using hne

/-- The packages of a payload are read one after the other, as one list of pairs. -/
theorem mapM_findingsFromPackage (packages : List LoadedObject) :
    (packages.mapM findingsFromPackage).map List.flatten =
      (pairs (packages.map fun package => (package, vulnItems package))).mapM
        (@readPair Digest) := by
  induction packages with
  | nil => rfl
  | cons package packages ih =>
      have hpackage : ((vulnItems package).map (package, ·)).mapM (@readPair Digest) =
          findingsFromPackage package := by
        rw [List.mapM_map]
        rfl
      have hpairs : pairs ((package :: packages).map fun package => (package, vulnItems package)) =
          (vulnItems package).map (package, ·) ++
            pairs (packages.map fun package => (package, vulnItems package)) := rfl
      rw [hpairs, List.mapM_append, hpackage, ← ih, List.mapM_cons]
      cases findingsFromPackage package with
      | error _ => rfl
      | ok findings => cases packages.mapM findingsFromPackage <;> rfl

/-- A complete scan holds one finding for each pair of a payload with the right shape, and any
other result is an error without findings. -/
def FailClosed (describe : ReadError → String) (version : String) (advisoryDbHash : Option String)
    (payload : LoadedValue) : Prop :=
  ∃ result : ScanResult Digest,
    pipAuditFromJson describe version advisoryDbHash payload = .ok result ∧
      ((result.output.status = .complete ∧ ∃ packages, Conforms payload packages ∧
          ∃ order findings, order.Perm (pairs packages) ∧ List.Forall₂ FindingOf order findings ∧
            result.output.findings = findings.map .sca) ∨
        (result.output.status = .error ∧ result.output.findings = []))

/-- No score that is too large is met, and a payload without the right shape has a pair that
cannot be a finding. -/
structure Handled (payload : LoadedValue) : Prop where
  scores : ∀ front pair back, kept payload = front ++ pair :: back → TooLarge pair.2 →
    ∃ earlier ∈ front, Incomplete earlier
  shape : (∃ packages, Conforms payload packages) ∨ ∃ pair ∈ kept payload, Incomplete pair

/-- Of two elements at which one list is split, one stands in front of the other. -/
theorem mem_front_of_split {α : Type} {front back front' back' : List α} {x y : α}
    (h : front ++ x :: back = front' ++ y :: back') : x ∈ front' ∨ x = y ∨ y ∈ front := by
  rcases List.append_eq_append_iff.mp h with ⟨middle, rfl, hmiddle⟩ | ⟨middle, rfl, hmiddle⟩
  · cases middle with
    | nil => exact .inr (.inl (List.cons.inj hmiddle).1)
    | cons other middle =>
      obtain ⟨rfl, -⟩ := List.cons.inj hmiddle
      exact .inl (List.mem_append_right _ List.mem_cons_self)
  · cases middle with
    | nil => exact .inr (.inl (List.cons.inj hmiddle).1.symm)
    | cons other middle =>
      obtain ⟨rfl, -⟩ := List.cons.inj hmiddle
      exact .inr (.inr (List.mem_append_right _ List.mem_cons_self))

variable (describe : ReadError → String) (version : String) (advisoryDbHash : Option String)

theorem failClosed_pipAudit_iff (payload : LoadedValue) :
    @FailClosed Digest describe version advisoryDbHash payload ↔ Handled payload := by
  have hread := @mapM_findingsFromPackage Digest (packageItems payload)
  rw [← kept] at hread
  rw [FailClosed, pipAuditFromJson]
  cases hresult : (packageItems payload).mapM (@findingsFromPackage Digest) with
  | ok findings =>
      rw [hresult] at hread
      have hpairs := mapM_eq_ok_iff.mp hread.symm
      have hfine : ∀ pair ∈ kept payload, ¬ TooLarge pair.2 ∧ ¬ Incomplete pair := by
        intro pair hpair
        obtain ⟨finding, -, hfinding⟩ := exists_of_mem_forall₂ hpairs.flip hpair
        exact ⟨(readPair_eq_ok hfinding).1, (readPair_eq_ok hfinding).2.1⟩
      constructor
      · rintro ⟨result, hok, ⟨-, packages, hconforms, -⟩ | ⟨herror, -⟩⟩
        · refine ⟨fun front pair back hsplit hlarge => ?_, Or.inl ⟨packages, hconforms⟩⟩
          exact absurd hlarge (hfine pair (by simp [hsplit])).1
        · cases hok
          cases herror
      · rintro ⟨-, ⟨packages, hconforms⟩ | ⟨pair, hpair, hincomplete⟩⟩
        · have hfindings : List.Forall₂ FindingOf (kept payload) findings.flatten :=
            hpairs.imp fun _ _ h => (readPair_eq_ok h).2.2
          obtain ⟨order, hof, horder⟩ := List.perm_comp_forall₂
            (KeyedSort.sortBy_perm scaSortKey findings.flatten) hfindings.flip
          rw [hconforms.kept_eq] at horder
          exact ⟨_, rfl, Or.inl ⟨rfl, packages, hconforms, order, _, horder, hof.flip, rfl⟩⟩
        · exact absurd hincomplete (hfine pair hpair).2
  | error error =>
      rw [hresult] at hread
      obtain ⟨front, pair, back, hsplit, hfront, hpair⟩ := mapM_eq_error_iff.mp hread.symm
      have hfine : ∀ earlier ∈ front, ¬ TooLarge earlier.2 ∧ ¬ Incomplete earlier := by
        intro earlier hearlier
        obtain ⟨finding, hfinding⟩ := hfront earlier hearlier
        exact ⟨(readPair_eq_ok hfinding).1, (readPair_eq_ok hfinding).2.1⟩
      by_cases herror : error = .overflow
      · subst herror
        constructor
        · rintro ⟨result, hok, -⟩
          cases hok
        · rintro ⟨hscores, -⟩
          obtain ⟨earlier, hearlier, hincomplete⟩ :=
            hscores front pair back hsplit (readPair_eq_overflow hpair)
          exact absurd hincomplete (hfine earlier hearlier).2
      · obtain ⟨hlarge, hincomplete⟩ := readPair_eq_error hpair herror
        have hmem : pair ∈ kept payload := by simp [hsplit]
        refine ⟨fun _ => ⟨fun front' pair' back' hsplit' hlarge' => ?_,
          Or.inr ⟨pair, hmem, hincomplete⟩⟩, fun _ => ?_⟩
        · -- A pair with a score that is too large lies behind the incomplete one.
          rcases mem_front_of_split (hsplit.symm.trans hsplit') with hbefore | rfl | hbehind
          · exact ⟨pair, hbefore, hincomplete⟩
          · exact absurd hlarge' hlarge
          · exact absurd hlarge' (hfine pair' hbehind).1
        · cases error with
          | overflow => exact absurd rfl herror
          | _ => exact ⟨_, rfl, Or.inr ⟨rfl, rfl⟩⟩

end Records

/-! ## Semgrep results -/

section Results

variable {Digest : Type} (files : ScanFiles)

/-- What a finding takes over from its result. -/
structure SastOf (result : LoadedObject) (finding : SASTFinding Digest) : Prop where
  ruleId_eq : finding.ruleId = textField result "check_id"
  modulePath_eq : finding.modulePath = posixPath (files.sourcePaths (textField result "path")).2
  span_eq : finding.sourceSpan = some (resultSpan result)
  message_eq : finding.message = textField (resultExtra result) "message"

/-- A result with a rule, whose source can be read and lies in a named scope. -/
structure Convertible (result : LoadedObject) : Prop where
  rule_ne : textField result "check_id" ≠ ""
  source : ∃ text, matchedSource files (resultExtra result)
    (files.sourcePaths (textField result "path")).1 (resultSpan result) = .ok text
  scope : ∃ name, name ≠ "" ∧ files.qualifiedName
    (files.sourcePaths (textField result "path")).1 (resultSpan result).startLine = .ok name

theorem posixPath_ne {value : String} (h : value ≠ "") : posixPath value ≠ "" := by
  intro hempty
  apply h
  have hlist := congrArg String.toList hempty
  rw [posixPath, String.toList_ofList] at hlist
  exact String.toList_eq_nil_iff.mp (List.map_eq_nil_iff.mp hlist)

theorem findingFromResult_eq_ok {result : LoadedObject} {finding : SASTFinding Digest}
    (h : findingFromResult files result = .ok finding) :
    Convertible files result ∧ SastOf files result finding := by
  rw [findingFromResult] at h
  simp only [bind_eq_ok_iff] at h
  obtain ⟨text, htext, name, hname, h⟩ := h
  rw [buildSast] at h
  split at h
  · next hne =>
      cases h
      exact ⟨⟨hne.1, ⟨text, htext⟩, name, hne.2.2, hname⟩, rfl, rfl, rfl, rfl⟩
  · cases h

theorem exists_findingFromResult {result : LoadedObject} (h : Convertible files result) :
    ∃ finding : SASTFinding Digest, findingFromResult files result = .ok finding := by
  obtain ⟨text, htext⟩ := h.source
  obtain ⟨name, hne, hname⟩ := h.scope
  have hpath := posixPath_ne (files.modulePath_ne (textField result "path"))
  rw [findingFromResult]
  simp only [htext, hname, ok_bind, buildSast]
  rw [dif_pos ⟨h.rule_ne, hpath, hne⟩]
  exact ⟨_, rfl⟩

/-- The reading of the results list, as for the packages of the other scanner. -/
def FailClosedResults (rulesetHash : Option String) (report : LoadedObject) : Prop :=
  ∃ result : ScanResult Digest, semgrepFromJson files rulesetHash report = .ok result ∧
    ((result.output.status = .complete ∧ ∃ results : List LoadedObject,
        report.get? "results" = some (.array (results.map .object)) ∧
        ∃ order findings, order.Perm results ∧ List.Forall₂ (SastOf files) order findings ∧
          result.output.findings = findings.map .sast) ∨
      (result.output.status = .error ∧ result.output.findings = []))

theorem failClosed_semgrep_iff (rulesetHash : Option String) (report : LoadedObject)
    (herrors : reportedErrors report = []) (hcoverage : scannedPathCoverageError files report = none) :
    @FailClosedResults Digest files rulesetHash report ↔ ∃ results : List LoadedObject,
      report.get? "results" = some (.array (results.map .object)) ∧
        ∀ result ∈ results, Convertible files result := by
  have hrun : @semgrepFromJson Digest files rulesetHash report =
      (resultItems report).mapM (findingFromResult files) >>= fun findings =>
        .ok (completeResult "semgrep" (by decide) (semgrepVersion report)
          ((KeyedSort.sortBy sastSortKey findings).map .sast) { rulesetHash := rulesetHash }) := by
    rw [semgrepFromJson, hcoverage]
    simp [herrors]
  have hitems {results : List LoadedObject}
      (h : report.get? "results" = some (.array (results.map .object))) :
      resultItems report = results := by
    rw [resultItems, h]
    exact objects_map_object results
  rw [FailClosedResults, hrun]
  constructor
  · rintro ⟨result, hok, h⟩
    obtain ⟨findings, hfindings, hok⟩ := bind_eq_ok_iff.mp hok
    cases hok
    rcases h with ⟨-, results, hresults, -⟩ | ⟨herror, -⟩
    · refine ⟨results, hresults, fun result hresult => ?_⟩
      rw [hitems hresults] at hfindings
      obtain ⟨finding, -, hfinding⟩ :=
        exists_of_mem_forall₂ (mapM_eq_ok_iff.mp hfindings).flip hresult
      exact (findingFromResult_eq_ok files hfinding).1
    · cases herror
  · rintro ⟨results, hresults, hconvertible⟩
    obtain ⟨findings, hfindings⟩ := exists_mapM fun result hresult =>
      @exists_findingFromResult Digest files result (hconvertible result hresult)
    have hof : List.Forall₂ (SastOf files) results findings :=
      (mapM_eq_ok_iff.mp hfindings).imp fun _ _ h => (findingFromResult_eq_ok files h).2
    obtain ⟨order, hsorted, horder⟩ := List.perm_comp_forall₂
      (KeyedSort.sortBy_perm sastSortKey findings) hof.flip
    rw [hitems hresults, hfindings]
    exact ⟨_, rfl, Or.inl ⟨rfl, results, hresults, order, _, horder, hsorted.flip, rfl⟩⟩

end Results

/-- The two readers are fail-closed on exactly these payloads. -/
theorem failClosed_iff {Digest : Type} (describe : ReadError → String) (version : String)
    (advisoryDbHash rulesetHash : Option String) (payload : LoadedValue) (files : ScanFiles)
    (report : LoadedObject) (herrors : reportedErrors report = [])
    (hcoverage : scannedPathCoverageError files report = none) :
    (@FailClosed Digest describe version advisoryDbHash payload ↔ Handled payload) ∧
      (@FailClosedResults Digest files rulesetHash report ↔ ∃ results : List LoadedObject,
        report.get? "results" = some (.array (results.map .object)) ∧
          ∀ result ∈ results, Convertible files result) :=
  ⟨failClosed_pipAudit_iff describe version advisoryDbHash payload,
    failClosed_semgrep_iff files rulesetHash report herrors hcoverage⟩

theorem qualifiedNameForLine_ne {moduleName : String} (h : moduleName ≠ "")
    (tree : Option Ast.Node) (line : ℕ) :
    QualifiedName.qualifiedNameForLine moduleName tree line ≠ "" := by
  rw [QualifiedName.qualifiedNameForLine.eq_def]
  split
  · exact h
  · split
    · exact h
    · next hscope =>
        rw [String.intercalate_cons_of_ne_nil hscope]
        simp [h]

/-- In files that are parsed every line lies in a named scope. -/
theorem convertible_parsed_iff {files : ScanFiles} {moduleName : files.SourcePath → String}
    (hname : ∀ path, moduleName path ≠ "") (tree : files.SourcePath → Option Ast.Node)
    (result : LoadedObject) :
    Convertible (files.parsed moduleName tree) result ↔ textField result "check_id" ≠ "" ∧
      ∃ text, matchedSource files (resultExtra result)
        (files.sourcePaths (textField result "path")).1 (resultSpan result) = .ok text := by
  constructor
  · intro h
    exact ⟨h.rule_ne, h.source⟩
  · intro h
    exact ⟨h.1, h.2, _, qualifiedNameForLine_ne (hname _) _ _, rfl⟩

/-! ### A vulnerable package and a call of `eval` -/

def jinjaVuln : LoadedObject :=
  [("id", .str "PYSEC-2014-8"), ("fix_versions", .array [.str "2.7.2"]), ("severity", .str "high")]

def jinjaPackage : LoadedObject :=
  [("name", .str "jinja2"), ("version", .str "2.4.1"), ("vulns", .array [.object jinjaVuln])]

def jinjaPayload : LoadedValue :=
  .object [("dependencies", .array [.object jinjaPackage])]

theorem jinjaPayload_handled : Handled jinjaPayload where
  scores := by
    have hkept : kept jinjaPayload = [(jinjaPackage, jinjaVuln)] := rfl
    rw [hkept]
    intro front pair back hsplit hlarge
    have hpair : pair = (jinjaPackage, jinjaVuln) := by
      have hmem : pair ∈ front ++ pair :: back := by simp
      rw [← hsplit] at hmem
      exact List.mem_singleton.mp hmem
    subst hpair
    have hraised := severityForVuln_eq_error_iff.mpr ⟨rfl, hlarge⟩
    have hread : severityForVuln jinjaVuln = .ok .high := rfl
    cases hread.symm.trans hraised
  shape := Or.inl ⟨[(jinjaPackage, [jinjaVuln])], rfl, by
    intro package hpackage
    obtain rfl := List.mem_singleton.mp hpackage
    exact .present rfl⟩

/-- The line `eval(x)` of a function. -/
def evalResult : LoadedObject :=
  [("check_id", .str "python.eval"), ("path", .str "app.py"),
    ("start", .object [("line", .int 2), ("col", .int 5)]),
    ("end", .object [("line", .int 2), ("col", .int 12)]),
    ("extra", .object [("message", .str "eval of user input"), ("severity", .str "ERROR"),
      ("lines", .str "    eval(x)")])]

def evalReport : LoadedObject :=
  [("version", .str "1.50.0"), ("results", .array [.object evalResult]), ("errors", .array []),
    ("paths", .object [("scanned", .array [.str "app.py"])])]

def handlerTree : Ast.Node :=
  .module [.functionDef ⟨1, 0, 2⟩ false "handler" (.other "arguments" [] none []) [] [] none []]

/-- A run over one file that has to be scanned. -/
def appFiles : ScanFiles :=
  ScanFiles.parsed
    { SourcePath := String
      sourcePaths := fun pathText => (pathText, if pathText = "" then "." else pathText)
      modulePath_ne := fun pathText => by by_cases h : pathText = "" <;> simp [h]
      expectedPaths := {"app.py"}
      sourceText := fun _ _ => .ok ""
      qualifiedName := fun _ _ => .ok "<module>"
      normalizeText := id }
    (fun _ => "app") (fun _ => some handlerTree)

theorem failClosed_iff_appFiles :
    reportedErrors evalReport = [] ∧ scannedPathCoverageError appFiles evalReport = none ∧
      kept jinjaPayload = [(jinjaPackage, jinjaVuln)] ∧
      @FailClosed ℕ (fun _ => "") "2.9" none jinjaPayload ∧
      @FailClosedResults ℕ appFiles none evalReport := by
  have hcoverage : scannedPathCoverageError appFiles evalReport = none := by decide +kernel
  have hiff := @failClosed_iff ℕ (fun _ => "") "2.9" none none jinjaPayload appFiles evalReport
    rfl hcoverage
  refine ⟨rfl, hcoverage, rfl, hiff.1.mpr jinjaPayload_handled,
    hiff.2.mpr ⟨[evalResult], rfl, ?_⟩⟩
  intro result hresult
  obtain rfl := List.mem_singleton.mp hresult
  exact (convertible_parsed_iff (by simp) _ _).mpr ⟨by decide +kernel, "    eval(x)", rfl⟩

/-- A package whose vulnerabilities are no list. -/
def unreadPayload : LoadedValue :=
  .object [("dependencies", .array [.object [("name", .str "jinja2"), ("version", .str "2.4.1"),
    ("vulns", .object [("id", .str "PYSEC-2014-8")])]])]

/-- The vulnerability is left out and the scan counts as complete. -/
theorem not_failClosed :
    (∃ result : ScanResult ℕ, pipAuditFromJson (fun _ => "") "2.9" none unreadPayload = .ok result ∧
      result.output.status = .complete ∧ result.output.findings = []) ∧
    ¬ @FailClosed ℕ (fun _ => "") "2.9" none unreadPayload := by
  refine ⟨⟨_, rfl, rfl, rfl⟩, ?_⟩
  rintro ⟨result, hok, ⟨-, packages, hconforms, -⟩ | ⟨herror, -⟩⟩
  · have hcollection := hconforms.collection
    cases packages with
    | nil => cases hcollection
    | cons package packages =>
        obtain ⟨fields, vulns⟩ := package
        have hvulns : VulnsOf fields vulns := hconforms.vulns _ List.mem_cons_self
        have hitems := LoadedValue.array.inj (Option.some.inj hcollection)
        obtain rfl := LoadedValue.object.inj (List.cons.inj hitems).1
        cases hvulns with
        | absent h => cases h
        | present h => cases h
  · cases hok
    cases herror

end SemanticCi.Scanner
