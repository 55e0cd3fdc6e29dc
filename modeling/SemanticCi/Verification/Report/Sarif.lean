import SemanticCi.Model.Sarif
import SemanticCi.Verification.Evaluator.ShortCircuit
import SemanticCi.Verification.Repair.Plan
import SemanticCi.Verification.Sensor.Policy

/-! The SARIF report of a verdict and a security detail: its levels say how the two gates
stand, and every result has its rule. -/

namespace SemanticCi.Report

open SemanticCi.Python SemanticCi.Compiler SemanticCi.Evaluator SemanticCi.Operators
  SemanticCi.Repair SemanticCi.Sensor ExceptRules OrderedDict

/-! ## Rules -/

theorem mem_rulesForResults {instructions : OrderedDict String InstructionPayload}
    {results : List ResultPayload} {seen : List String} {ruleId : String} :
    ruleId ∈ (rulesForResults instructions seen results).map (·.id) ↔
      ruleId ∈ results.map (·.constraintId) ∧ ruleId ∉ seen := by
  induction results generalizing seen with
  | nil => simp [rulesForResults]
  | cons result rest ih =>
    simp only [rulesForResults]
    by_cases hseen : result.constraintId ∈ seen
    · rw [if_pos hseen, ih, List.map_cons, List.mem_cons]
      constructor
      · exact fun h => ⟨Or.inr h.1, h.2⟩
      · rintro ⟨rfl | hrest, hnot⟩
        · exact absurd hseen hnot
        · exact ⟨hrest, hnot⟩
    · rw [if_neg hseen, List.map_cons, List.map_cons, List.mem_cons, List.mem_cons, ih,
        List.mem_cons]
      by_cases hid : ruleId = result.constraintId
      · simp [hid, hseen]
      · simp [hid]

/-- The ids of the given rules have one rule each. -/
theorem countP_dedupeRules {rules : List SarifRule} {ruleId : String}
    (h : ruleId ∈ rules.map (·.id)) : (dedupeRules rules).countP (·.id = ruleId) = 1 := by
  have hmem : ruleId ∈ (dedupeRules rules).map (·.id) := by
    rw [dedupeRules, ← keys_indexBy, mem_keys_indexBy]
    exact List.mem_map.mp h
  have hcount := List.count_eq_one_of_mem (nodup_values_indexBy (·.id) rules) hmem
  rw [List.count, List.countP_map] at hcount
  rw [← hcount]
  exact List.countP_congr fun rule _ => by simp

/-! ## Levels of code results -/

theorem category_of_satisfied {r : ConstraintResult} (h : r.status = .satisfied) :
    category r = none := by
  simp [category, h]

theorem contribution_of_skipped {r : ConstraintResult} (h : r.status = .skipped) :
    contribution r = .pass := by
  simp [contribution, h]

/-- Beside the instruction of its category a result has the level that it contributes. -/
theorem level_iff {r : ConstraintResult} {instruction : Option InstructionPayload}
    (h : instruction.map (·.category) = (category r).map (·.value)) :
    (level (serializeConstraintResult r) instruction = .error ↔ contribution r = .fail) ∧
      (level (serializeConstraintResult r) instruction = .warning ↔
        contribution r = .repair) := by
  have hstatus : (serializeConstraintResult r).status = resultStatusValue r.status := rfl
  simp only [level, hstatus, h]
  cases hs : r.status with
  | satisfied =>
    simp [← demand_category, category_of_satisfied hs, demand, resultStatusValue]
  | skipped => simp [contribution_of_skipped hs, resultStatusValue]
  | violated | unknown =>
    simp only [← category_fixRequired_iff, ← category_suggested_iff]
    rcases category r with _ | (_ | _ | _ | _) <;> simp [resultStatusValue, RepairCategory.value]

section Code

variable {verdict : Verdict} {plan : RepairPlan} {payload : Payload}

theorem instruction_ids (hplan : PlanSpec verdict plan) :
    plan.instructions.map (·.constraintId) =
      (verdict.results.filter fun r => Actionable r).map (·.constraintId) :=
  map_eq_of_forall₂ (fun _ _ hfor => hfor.constraintId) hplan.instructions

/-- Under distinct ids a result finds the instruction of its category. -/
theorem category_get?_instructionsById (hplan : PlanSpec verdict plan)
    (hids : (verdict.results.map (·.constraintId)).Nodup)
    (hpayload : payload.repairPlan = some (plan.instructions.map serializeRepairInstruction))
    {r : ConstraintResult} (hr : r ∈ verdict.results) :
    ((instructionsById payload).get? r.constraintId).map (·.category) =
      (category r).map (·.value) := by
  have hentries : (instructionsById payload).entries =
      plan.instructions.map fun i => (i.constraintId, serializeRepairInstruction i) := by
    rw [instructionsById, hpayload, Option.getD_some, List.map_map]
    refine entries_ofPairs ?_
    rw [List.map_map]
    change (plan.instructions.map (·.constraintId)).Nodup
    rw [instruction_ids hplan]
    exact hids.sublist (List.filter_sublist.map _)
  by_cases hactionable : Actionable r
  · have hmem : r ∈ verdict.results.filter fun r => Actionable r :=
      List.mem_filter.mpr ⟨hr, decide_eq_true hactionable⟩
    obtain ⟨i, hi, hfor⟩ := exists_of_mem_forall₂ hplan.instructions.flip hmem
    have hget : (instructionsById payload).get? r.constraintId =
        some (serializeRepairInstruction i) := by
      rw [← mem_entries_iff, hentries, ← hfor.constraintId]
      exact List.mem_map.mpr ⟨i, hi, rfl⟩
    rw [hget, hfor.category]
    rfl
  · have hcategory : category r = none := by
      rw [← category_isSome_iff] at hactionable
      simpa using hactionable
    cases hget : (instructionsById payload).get? r.constraintId with
    | none => rw [hcategory]; rfl
    | some value =>
      rw [← mem_entries_iff, hentries] at hget
      obtain ⟨i, hi, heq⟩ := List.mem_map.mp hget
      obtain ⟨r', hr', hfor⟩ := exists_of_mem_forall₂ hplan.instructions hi
      obtain ⟨hmem, hactionable'⟩ := List.mem_filter.mp hr'
      have hid : r'.constraintId = r.constraintId :=
        hfor.constraintId.symm.trans (congrArg Prod.fst heq)
      rw [List.inj_on_of_nodup_map hids hmem hr hid] at hactionable'
      exact absurd (of_decide_eq_true hactionable') hactionable

/-- The code results of a payload. -/
def codeResults (cwd : PurePath) (payload : Payload) : List (SarifResult CodeProperties) :=
  payload.results.map fun result =>
    sarifResult cwd result ((instructionsById payload).get? result.constraintId)

theorem codeResults_levels (cwd : PurePath) (hplan : PlanSpec verdict plan)
    (hids : (verdict.results.map (·.constraintId)).Nodup)
    (hresults : payload.results = verdict.results.map serializeConstraintResult)
    (hpayload : payload.repairPlan = some (plan.instructions.map serializeRepairInstruction)) :
    ((∃ result ∈ codeResults cwd payload, result.level = .error) ↔
      ∃ r ∈ verdict.results, contribution r = .fail) ∧
    ((∃ result ∈ codeResults cwd payload, result.level = .warning) ↔
      ∃ r ∈ verdict.results, contribution r = .repair) := by
  have hlevel : ∀ r ∈ verdict.results, _ := fun r hr =>
    level_iff (category_get?_instructionsById hplan hids hpayload hr)
  have hexists : ∀ p : SarifLevel → Prop,
      (∃ result ∈ codeResults cwd payload, p result.level) ↔ ∃ r ∈ verdict.results,
        p (level (serializeConstraintResult r)
          ((instructionsById payload).get? r.constraintId)) := by
    intro p
    rw [codeResults, hresults, List.map_map]
    simp only [List.mem_map, exists_exists_and_eq_and]
    rfl
  rw [hexists (· = .error), hexists (· = .warning)]
  exact ⟨exists_congr fun r => and_congr_right fun hr => (hlevel r hr).1,
    exists_congr fun r => and_congr_right fun hr => (hlevel r hr).2⟩

end Code

/-! ## Security results -/

section Security

variable {Digest Date : Type} {digest : List Ssp.Component → Digest} (hex : Digest → String)

theorem securityLocation_ok (cwd : PurePath) (finding : SecurityFinding digest) :
    ∃ found, securityLocation cwd (serializeSecurityFinding hex finding) = .ok found := by
  cases finding with
  | sast f =>
    cases hspan : f.sourceSpan with
    | none => exact ⟨none, by simp [securityLocation, serializeSecurityFinding, hspan]⟩
    | some span =>
      simp only [securityLocation, serializeSecurityFinding, hspan, ne_eq, not_true_eq_false,
        if_false, getKey, ok_bind, pure_eq_ok, Except.ok.injEq, exists_eq']
  | sca f => exact ⟨none, rfl⟩
  | llm f => exact ⟨none, rfl⟩

/-- Findings of a verdict have the key that their rule id is made of. -/
theorem securityFindingResult_ok (cwd : PurePath) {finding : SecurityFinding digest}
    (h : finding.isLlm = false) :
    ∃ result, securityFindingResult cwd (serializeSecurityFinding hex finding) = .ok result := by
  obtain ⟨found, hfound⟩ := securityLocation_ok hex cwd finding
  have hruleId : ∃ ruleId,
      securityRuleId (serializeSecurityFinding hex finding) = .ok ruleId := by
    cases finding with
    | sast f => exact ⟨_, rfl⟩
    | sca f => exact ⟨_, rfl⟩
    | llm f => cases h
  obtain ⟨ruleId, hruleId⟩ := hruleId
  exact ⟨_, by rw [securityFindingResult, hruleId, ok_bind, hfound]; rfl⟩

/-- What the results of one sensor show. -/
structure SensorShown (sensor : SecuritySensorResult digest)
    (results : List (SarifResult SecurityProperties)) : Prop where
  unknown : sensor.status = .unknown →
    ∃ result ∈ results, result.properties.sensorId = some sensor.sensorId
  fail : sensor.status = .fail →
    ∃ result ∈ results, result.level = .error ∨ result.level = .warning

/-- A sensor that an evaluation can produce: no LLM finding was added, and an unknown status
has its reason. -/
structure Producible (sensor : SecuritySensorResult digest) : Prop where
  added : ∀ finding ∈ sensor.added, finding.isLlm = false
  reason : sensor.status = .unknown → ∃ reason, sensor.driftReason = some reason ∧ reason ≠ ""

theorem sensorSarifResults_shown (cwd : PurePath) {sensor : SecuritySensorResult digest}
    (h : Producible sensor) : ∃ results,
      sensorSarifResults cwd (serializeSensor hex sensor) = .ok results ∧
        SensorShown sensor results := by
  have hfindings : ∀ finding ∈ (serializeSensor hex sensor).added.insertionSort
      (fun a b => a.canonicalId ≤ b.canonicalId),
      ∃ result, securityFindingResult cwd finding = .ok result := by
    intro finding hfinding
    obtain ⟨f, hf, rfl⟩ := List.mem_map.mp ((List.mem_insertionSort _).mp hfinding)
    exact securityFindingResult_ok hex cwd (h.added f hf)
  obtain ⟨sensorResults, hok⟩ := exists_mapM hfindings
  refine ⟨_, by rw [sensorSarifResults, hok]; rfl, ?_, ?_⟩
  · intro hunknown
    obtain ⟨reason, hreason, hne⟩ := h.reason hunknown
    refine ⟨securityUnknownResult (serializeSensor hex sensor) reason, ?_, rfl⟩
    have hstatus : (serializeSensor hex sensor).status = "unknown" :=
      congrArg statusText hunknown
    have hdrift : (serializeSensor hex sensor).driftReason = some reason := hreason
    simp [unknownResults, hdrift, hstatus, hne]
  · intro hfail
    have hstatus : (serializeSensor hex sensor).status = "fail" := congrArg statusText hfail
    by_cases hvisible : hasVisibleFailure sensorResults
    · obtain ⟨result, hresult, hlevel⟩ := List.any_eq_true.mp hvisible
      exact ⟨result, by simp [hresult], by simpa using hlevel⟩
    · exact ⟨_, List.mem_append_right _ (by simp [hstatus, hvisible]; rfl), Or.inl rfl⟩

/-- A detail that an evaluation can produce. -/
structure ProducibleDetail (detail : SecuritySuiteResult digest Date) : Prop where
  sensors : ∀ sensor ∈ detail.sensors, Producible sensor
  fail : detail.status = .fail →
    detail.globalCountViolated = true ∨ ∃ sensor ∈ detail.sensors, sensor.status = .fail

/-- What the security results show of a detail. -/
structure DetailShown (detail : SecuritySuiteResult digest Date)
    (results : List (SarifResult SecurityProperties)) : Prop where
  unknown : ∀ sensor ∈ detail.sensors, sensor.status = .unknown →
    ∃ result ∈ results, result.properties.sensorId = some sensor.sensorId
  fail : detail.status = .fail →
    ∃ result ∈ results, result.level = .error ∨ result.level = .warning

theorem securitySarifResults_shown (cwd : PurePath) {detail : SecuritySuiteResult digest Date}
    (h : ProducibleDetail detail) : ∃ results,
      securitySarifResults cwd (some (serializeSecurityDetail hex detail)) = .ok results ∧
        DetailShown detail results := by
  have hsensors : ∀ sensor ∈ (serializeSecurityDetail hex detail).sensors.insertionSort
      (fun a b => a.sensorId ≤ b.sensorId),
      ∃ results, sensorSarifResults cwd sensor = .ok results := by
    intro payload hpayload
    obtain ⟨sensor, hsensor, rfl⟩ := List.mem_map.mp ((List.mem_insertionSort _).mp hpayload)
    obtain ⟨results, hok, -⟩ := sensorSarifResults_shown hex cwd (h.sensors sensor hsensor)
    exact ⟨results, hok⟩
  obtain ⟨groups, hok⟩ := exists_mapM hsensors
  -- the results of one sensor are among those of all
  have hgroup : ∀ sensor ∈ detail.sensors, ∃ results ∈ groups, SensorShown sensor results := by
    intro sensor hsensor
    have hmem : serializeSensor hex sensor ∈ (serializeSecurityDetail hex
        detail).sensors.insertionSort (fun a b => a.sensorId ≤ b.sensorId) :=
      (List.mem_insertionSort _).mpr (List.mem_map.mpr ⟨sensor, hsensor, rfl⟩)
    obtain ⟨results, hresults, hok'⟩ :=
      exists_of_mem_forall₂ (mapM_eq_ok_iff.mp hok).flip hmem
    obtain ⟨results', hok'', hshown⟩ := sensorSarifResults_shown hex cwd (h.sensors sensor hsensor)
    obtain rfl : results' = results := Except.ok.inj (hok''.symm.trans hok')
    exact ⟨_, hresults, hshown⟩
  refine ⟨_, by simp only [securitySarifResults, hok, ok_bind]; rfl, ?_, ?_⟩
  · intro sensor hsensor hunknown
    obtain ⟨results, hresults, hshown⟩ := hgroup sensor hsensor
    obtain ⟨result, hresult, hid⟩ := hshown.unknown hunknown
    exact ⟨result, List.mem_append_left _ (List.mem_flatten.mpr ⟨_, hresults, hresult⟩), hid⟩
  · intro hfail
    rcases h.fail hfail with hcount | ⟨sensor, hsensor, hstatus⟩
    · have hglobal : (serializeSecurityDetail hex detail).globalCountViolated = true := hcount
      exact ⟨_, List.mem_append_right _ (by simp [hglobal]; rfl), Or.inl rfl⟩
    · obtain ⟨results, hresults, hshown⟩ := hgroup sensor hsensor
      obtain ⟨result, hresult, hlevel⟩ := hshown.fail hstatus
      exact ⟨result, List.mem_append_left _ (List.mem_flatten.mpr ⟨_, hresults, hresult⟩), hlevel⟩

/-! ## What an evaluation produces -/

omit hex

theorem driftReason_ne_empty {baseline candidate : Option SensorProvenance}
    {driftFields : Finset ProvenanceField} {reason : String}
    (h : provenanceDriftReason baseline candidate driftFields = some reason) : reason ≠ "" := by
  unfold provenanceDriftReason at h
  split at h
  · split at h
    · cases h
    · obtain rfl := Option.some.inj h
      intro hempty
      have hlength := congrArg String.length hempty
      simp [String.length_append] at hlength
  · obtain rfl := Option.some.inj h
    decide

/-- A message is only passed on when it says something. -/
theorem unknownReason_ne_empty {baseline candidate : Option SensorProvenance}
    {driftFields : Finset ProvenanceField} {provenanceChanged : Bool} {reason : String}
    (h : unknownReason baseline candidate driftFields = some (provenanceChanged, reason)) :
    reason ≠ "" := by
  unfold unknownReason at h
  cases hreason : provenanceDriftReason baseline candidate driftFields with
  | some text =>
    simp only [hreason, Option.getD_some, Option.some.injEq, Prod.mk.injEq] at h
    exact h.2 ▸ driftReason_ne_empty hreason
  | none =>
    obtain ⟨b, c, rfl, rfl⟩ := provenanceDriftReason_eq_none hreason
    simp only [hreason] at h
    split_ifs at h
    obtain ⟨-, rfl⟩ := Prod.mk.inj (Option.some.inj h)
    have hsaid : ∀ text : Option String, ∀ t, text.filter (· ≠ "") = some t → t ≠ "" := by
      intro text t ht
      simpa using (Option.filter_eq_some_iff.mp ht).2
    cases hc : c.errorMessage.filter (· ≠ "") with
    | some t => exact hsaid _ t hc
    | none =>
      cases hb : b.errorMessage.filter (· ≠ "") with
      | some t => exact hsaid _ t hb
      | none => decide

variable [LinearOrder Digest]

theorem madeDelta_reason {baseline candidate : StateData digest}
    {driftFields : Finset ProvenanceField} {sensorId : String}
    (h : (madeDelta baseline candidate driftFields sensorId).status = .unknown) :
    ∃ reason, (madeDelta baseline candidate driftFields sensorId).errorMessage = some reason ∧
      reason ≠ "" := by
  unfold madeDelta at h ⊢
  split
  case h_1 hreason => exact ⟨_, rfl, unknownReason_ne_empty hreason⟩
  case h_2 hnone =>
    simp only [hnone, comparedDelta] at h
    split at h <;> cases h

theorem madeDelta_added {baseline candidate : StateData digest} (hb : baseline.WellFormed)
    (hc : candidate.WellFormed) {driftFields : Finset ProvenanceField} {sensorId : String}
    {finding : SecurityFinding digest}
    (h : finding ∈ (madeDelta baseline candidate driftFields sensorId).added) :
    finding ∈ candidate.findings := by
  unfold madeDelta at h
  split at h
  · cases h
  · exact ((mem_sensorAdded hb hc).mp h).1

theorem sensorResult_producible {policy : Option (SecurityPolicy Digest Date)}
    {active : List (CanonicalId Digest)} {sensorId : String} {perSensor : PerSensorDelta digest}
    (hadded : ∀ finding ∈ perSensor.added, finding.isLlm = false)
    (hreason : perSensor.status = .unknown →
      ∃ reason, perSensor.errorMessage = some reason ∧ reason ≠ "") :
    Producible (sensorResult policy active sensorId perSensor) := by
  unfold sensorResult
  split_ifs with hunknown
  · exact ⟨by simp, fun _ => hreason hunknown⟩
  · refine ⟨fun finding hfinding => hadded finding (List.mem_of_mem_filter hfinding), ?_⟩
    intro hstatus
    simp only [statusForAdded] at hstatus
    split at hstatus <;> cases hstatus

variable [LinearOrder Date]

theorem producible_of_ok {policy : Option (SecurityPolicy Digest Date)}
    {baseline candidate : SensorState digest} {asOf : Date}
    {detail : SecuritySuiteResult digest Date}
    (h : evaluateSecurityDetail policy baseline candidate asOf = .ok detail) :
    ProducibleDetail detail := by
  obtain ⟨_, -, hrest⟩ := bind_eq_ok_iff.mp h
  obtain ⟨delta, hdelta, -⟩ := bind_eq_ok_iff.mp hrest
  obtain ⟨hb, hc⟩ := verdictOnly_of_compute hdelta
  rw [evaluateSecurityDetail_eq_ok hb hc (validSuppressions_of_ok h), Except.ok.injEq] at h
  subst h
  refine ⟨fun sensor hsensor => ?_, fun hfail => ?_⟩
  · rw [evaluateDelta_sensors] at hsensor
    obtain ⟨sensorId, -, rfl⟩ := List.mem_map.mp hsensor
    refine sensorResult_producible (fun finding hfinding => ?_) madeDelta_reason
    have hmem := madeDelta_added (verdictData_wellFormed baseline.wellFormed)
      (verdictData_wellFormed candidate.wellFormed) hfinding
    exact (hc finding (hc.findings_verdictData ▸ hmem)).1
  · obtain ⟨-, hmem⟩ := aggregateStatus_eq_fail.mp hfail
    rcases List.mem_append.mp hmem with hsensor | hglobal
    · obtain ⟨sensor, hsensor, hstatus⟩ := List.mem_map.mp hsensor
      exact Or.inr ⟨sensor, hsensor, hstatus⟩
    · split_ifs at hglobal with hcount
      · exact Or.inl hcount
      · cases hglobal

/-! ## The report -/

/-- What a report shows of a verdict and, where there is one, a security detail. -/
structure ReportShows (verdict : Verdict) (detail : Option (SecuritySuiteResult digest Date))
    (document : SarifDocument) : Prop where
  fail_iff : (∃ result ∈ document.codeResults, result.level = .error) ↔ verdict.result = .fail
  repair_iff : ((¬ ∃ result ∈ document.codeResults, result.level = .error) ∧
    ∃ result ∈ document.codeResults, result.level = .warning) ↔ verdict.result = .repair
  security : ∀ d ∈ detail, DetailShown d document.securityResults
  rule : ∀ ruleId ∈ document.ruleIds, document.rules.countP (·.id = ruleId) = 1

/-- A report is rendered once its security results are. -/
theorem formatSarif_eq_ok {cwd : PurePath} {payload : Payload}
    {securityResults : List (SarifResult SecurityProperties)}
    (h : securitySarifResults cwd payload.security = .ok securityResults) :
    ∃ document, formatSarif cwd payload = .ok document ∧
      document.codeResults = codeResults cwd payload ∧
      document.securityResults = securityResults ∧
      ∀ ruleId ∈ document.ruleIds, document.rules.countP (·.id = ruleId) = 1 := by
  refine ⟨_, by simp only [formatSarif, h, ok_bind]; rfl, rfl, rfl, fun ruleId hruleId => ?_⟩
  refine countP_dedupeRules ?_
  rw [List.map_append, List.mem_append, mem_rulesForResults]
  rcases List.mem_append.mp hruleId with hcode | hsecurity
  · refine Or.inl ⟨?_, List.not_mem_nil⟩
    simpa [sarifResult, Function.comp_def] using hcode
  · refine Or.inr ?_
    simpa [securityRulesForResults, Function.comp_def] using hsecurity

/-- Under distinct constraint ids the report of an evaluation is rendered and hides no failing
gate. -/
theorem formatSarif_shows (cwd : PurePath) (hex : Digest → String) (engine : Engine)
    (subcommand : String) (mode : Option String) (compiled : CompiledTarget)
    (input : EvaluationInput) (hids : (compiled.constraints.map (·.id)).Nodup)
    (detail : Option (SecuritySuiteResult digest Date))
    (hdetail : ∀ d ∈ detail, ∃ policy baseline candidate asOf,
      evaluateSecurityDetail policy baseline candidate asOf = .ok d) :
    ∃ plan document, emitRepairPlan (evaluateConstraints compiled input) = .ok plan ∧
      formatSarif cwd (buildPayload hex engine subcommand
        (some (evaluateConstraints compiled input)) (some plan) mode detail) = .ok document ∧
      ReportShows (evaluateConstraints compiled input) detail document := by
  have hnodup : ((evaluateConstraints compiled input).results.map (·.constraintId)).Nodup := by
    rwa [map_eq_of_forall₂ (fun _ _ hof => hof.constraintId)
      (results_in_declaration_order compiled input)]
  have hverdict : (evaluateConstraints compiled input).result =
      aggregate (evaluateConstraints compiled input).results := rfl
  obtain ⟨plan, hplan, hspec⟩ := emitRepairPlan_spec hverdict
  generalize evaluateConstraints compiled input = verdict at *
  obtain ⟨securityResults, hsecurity, hshown⟩ : ∃ securityResults,
      securitySarifResults cwd (detail.map (serializeSecurityDetail hex)) = .ok securityResults ∧
        ∀ d ∈ detail, DetailShown d securityResults := by
    cases detail with
    | none => exact ⟨[], rfl, by simp⟩
    | some d =>
      obtain ⟨policy, baseline, candidate, asOf, hok⟩ := hdetail d rfl
      obtain ⟨results, hresults, hshown⟩ :=
        securitySarifResults_shown hex cwd (producible_of_ok hok)
      exact ⟨results, hresults, by rintro _ ⟨⟩; exact hshown⟩
  let payload := buildPayload hex engine subcommand (some verdict) (some plan) mode detail
  obtain ⟨hfail, hrepair⟩ := @codeResults_levels _ _ payload cwd hspec hnodup rfl rfl
  obtain ⟨document, hdocument, hcode, rfl, hrules⟩ := @formatSarif_eq_ok cwd payload _ hsecurity
  refine ⟨plan, document, hplan, hdocument, ?_, ?_, hshown, hrules⟩
  · rw [hcode, hfail, hverdict, aggregate_eq_fail_iff]
  · rw [hcode, hfail, hrepair, hverdict, aggregate_eq_repair_iff]

end Security

/-! ### A new sensor beside a violated lock -/

def withSemgrep : SensorState (id : List Ssp.Component → List Ssp.Component) where
  provenanceBySensor := ofPairs [("semgrep", semgrepProvenance)]
  valid := by decide +kernel

/-- The detail of a sensor that only the candidate has. -/
def semgrepDetail : Option (SecuritySuiteResult (id : List Ssp.Component → _) ℕ) :=
  (evaluateSecurityDetail none noSensors withSemgrep 0).toOption

def noEffects (severity : Framework.Severity) : CompiledConstraint where
  id := "no-effects-" ++ severityValue severity
  kind := .state
  target := ["effects"]
  operator := .equals
  expected := .list []
  severity := severity
  unknownPolicy := .warn
  tolerance := none
  evidenceRequired := false
  scope := .dict []
  source := .user

def noEffectsTarget : CompiledTarget where
  intent := ""
  primaryKind := .feature
  allowedSecondaryKinds := []
  scope := []
  constraints := [noEffects .info, noEffects .soft]

def networkCallInput : EvaluationInput where
  delta := {}
  baseline := {}
  candidate := { effects := [{ fqn := "app.fetch", effectClass := .net }] }

theorem formatSarif_shows_semgrep :
    (evaluateConstraints noEffectsTarget networkCallInput).result = .repair ∧
    semgrepDetail.map (·.status) = some .unknown ∧
    ∃ plan document,
      emitRepairPlan (evaluateConstraints noEffectsTarget networkCallInput) = .ok plan ∧
      formatSarif [] (buildPayload (fun _ => "") ⟨"3.12", "0.1.0"⟩ "check"
        (some (evaluateConstraints noEffectsTarget networkCallInput)) (some plan) none
          semgrepDetail) = .ok document ∧
      ReportShows (evaluateConstraints noEffectsTarget networkCallInput) semgrepDetail
        document := by
  refine ⟨by decide +kernel, by decide +kernel, formatSarif_shows [] _ _ _ _ noEffectsTarget
    networkCallInput (by decide +kernel) semgrepDetail fun d hd => ?_⟩
  refine ⟨none, noSensors, withSemgrep, 0, ?_⟩
  cases hok : evaluateSecurityDetail none noSensors withSemgrep 0 with
  | error e => simp [semgrepDetail, hok, Except.toOption] at hd
  | ok detail =>
    obtain rfl : detail = d := by simpa [semgrepDetail, hok, Except.toOption] using hd
    rfl

end SemanticCi.Report
