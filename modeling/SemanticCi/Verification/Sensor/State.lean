import SemanticCi.Library.ExceptRules
import SemanticCi.Model.SecurityDelta

/-! What the validators of states and deltas accept, and the part of a state that a delta
reads. -/

namespace SemanticCi.Sensor

open ExceptRules OrderedDict Ssp

variable {Digest : Type} {digest : List Component → Digest}

/-! ### Valid states -/

theorem keyMismatches_eq_nil_iff {V : Type} {name : V → String} {entries : List (String × V)} :
    keyMismatches name entries = [] ↔ ∀ entry ∈ entries, name entry.2 = entry.1 := by
  rw [keyMismatches, List.map_eq_nil_iff, List.filter_eq_nil_iff]
  simp only [decide_eq_true_eq, not_not]
  exact forall₂_congr fun _ _ => eq_comm

theorem identity_version (finding : SecurityFinding digest) :
    finding.identityComponents.headD "" = "v1" := by
  cases finding with
  | sast f => simp [SecurityFinding.identityComponents, f.identity_eq]
  | sca f => simp [SecurityFinding.identityComponents, f.identity_eq]
  | llm f => simp [SecurityFinding.identityComponents, f.identity_eq]

@[simp] theorem version_text (version : IdentityAlgorithmVersion) : version.text = "v1" := by
  cases version
  rfl

theorem checkFinding_eq_ok_iff {data : StateData digest} {finding : SecurityFinding digest} :
    data.checkFinding finding = .ok () ↔ ∃ provenance,
      data.provenanceBySensor.get? finding.sensorId = some provenance ∧
        provenance.status = .complete := by
  unfold StateData.checkFinding
  split
  case h_1 hnone => simp [hnone]
  case h_2 provenance hsome =>
    by_cases hstatus : provenance.status = .complete <;> simp [hsome, hstatus]

section WellFormed

variable [LinearOrder Digest]

structure StateData.WellFormed (data : StateData digest) : Prop where
  keys : ∀ entry ∈ data.provenanceBySensor.entries, entry.2.sensorId = entry.1
  sorted : (data.findings.map (·.canonicalId)).Pairwise (· < ·)
  complete : ∀ finding ∈ data.findings, ∃ provenance,
    data.provenanceBySensor.get? finding.sensorId = some provenance ∧
      provenance.status = .complete

/-- A sorted list without repetitions is strictly sorted. -/
theorem sorted_unique_iff {α : Type*} [LinearOrder α] (ids : List α) :
    ids = ids.insertionSort (· ≤ ·) ∧ ids.length = ids.dedup.length ↔ ids.Pairwise (· < ·) := by
  constructor
  · rintro ⟨hsorted, hlength⟩
    have hle : ids.Pairwise (· ≤ ·) := hsorted ▸ List.pairwise_insertionSort _ _
    have hnodup : ids.Nodup := by
      rw [← (List.dedup_sublist ids).eq_of_length hlength.symm]
      exact List.nodup_dedup ids
    exact hle.imp₂ (fun _ _ => lt_of_le_of_ne) hnodup
  · intro hlt
    have hnodup : ids.Nodup := hlt.imp ne_of_lt
    refine ⟨?_, by rw [hnodup.dedup]⟩
    exact (List.Pairwise.insertionSort_eq (hlt.imp le_of_lt)).symm

theorem validate_eq_ok_iff {data : StateData digest} :
    data.validate = .ok () ↔ data.WellFormed := by
  have hversions : ((data.provenanceBySensor.values.map fun p => p.identityAlgorithmVersion.text) ++
      data.findings.map fun finding => finding.identityComponents.headD "").any
        (· ≠ data.identityAlgorithmVersion.text) = false := by
    simp only [List.any_eq_false, List.mem_append, List.mem_map, version_text, identity_version]
    rintro version (⟨_, -, rfl⟩ | ⟨_, -, rfl⟩) <;> simp
  simp only [StateData.validate, ite_error_eq_ok_iff, hversions, forM_eq_ok_iff, not_not,
    keyMismatches_eq_nil_iff, checkFinding_eq_ok_iff]
  constructor
  · rintro ⟨hkeys, -, hsorted, hunique, hcomplete⟩
    exact ⟨hkeys, (sorted_unique_iff _).mp ⟨hsorted, hunique⟩, hcomplete⟩
  · rintro ⟨hkeys, hsorted, hcomplete⟩
    obtain ⟨hsort, hunique⟩ := (sorted_unique_iff _).mpr hsorted
    exact ⟨hkeys, by simp, hsort, hunique, hcomplete⟩

theorem SensorState.wellFormed (state : SensorState digest) : state.toStateData.WellFormed :=
  validate_eq_ok_iff.mp state.valid

/-- Building a state succeeds on well formed data, and keeps the data. -/
theorem build_eq_ok {data : StateData digest} (h : data.WellFormed) :
    ∃ state, data.build = .ok state ∧ state.toStateData = data := by
  have hvalid := validate_eq_ok_iff.mpr h
  refine ⟨⟨data, hvalid⟩, ?_, rfl⟩
  unfold StateData.build
  split
  · rfl
  · simp_all

end WellFormed

/-! ### Valid deltas -/

structure PerSensorDelta.Valid (delta : PerSensorDelta digest) : Prop where
  sensorId_ne : delta.sensorId ≠ ""
  changed : delta.provenanceChanged → delta.status = .unknown
  own : ∀ finding ∈ delta.added ++ delta.removed, finding.sensorId = delta.sensorId
  message : delta.status = .unknown ↔ delta.errorMessage ≠ none
  fails : delta.status ≠ .unknown →
    (delta.status = .fail ↔ ∃ finding ∈ delta.added, finding.severity ∈ failSeverities)

theorem PerSensorDelta.build_eq_ok_iff {delta delta' : PerSensorDelta digest} :
    delta.build = .ok delta' ↔ delta.Valid ∧ delta = delta' := by
  simp only [PerSensorDelta.build, ite_error_eq_ok_iff, Except.ok.injEq, List.any_eq_true,
    decide_eq_true_eq]
  constructor
  · rintro ⟨hid, hchanged, hown, hunknown, hknown, hpass, hfail, rfl⟩
    refine ⟨⟨hid, fun h => ?_, fun finding hfinding => ?_, ?_, fun hstatus => ?_⟩, rfl⟩
    · by_contra hne
      exact hchanged ⟨h, hne⟩
    · by_contra hne
      exact hown ⟨finding, hfinding, hne⟩
    · constructor
      · exact fun h hnone => hunknown ⟨h, hnone⟩
      · intro h
        by_contra hne
        exact hknown ⟨hne, h⟩
    · cases hs : delta.status with
      | pass => simp_all
      | fail => simp_all
      | unknown => exact absurd hs hstatus
  · rintro ⟨⟨hid, hchanged, hown, hmessage, hfails⟩, rfl⟩
    refine ⟨hid, fun h => h.2 (hchanged h.1), ?_, fun h => hmessage.mp h.1 h.2,
      fun h => h.1 (hmessage.mpr h.2), ?_, ?_, rfl⟩
    · rintro ⟨finding, hfinding, hne⟩
      exact hne (hown finding hfinding)
    · rintro ⟨hpass, hany⟩
      have hfail := (hfails (by simp [hpass])).mpr hany
      simp [hpass] at hfail
    · rintro ⟨hfail, hnone⟩
      exact hnone ((hfails (by simp [hfail])).mp hfail)

structure SecurityDelta.Valid (delta : SecurityDelta digest) : Prop where
  keys : ∀ entry ∈ delta.deltasBySensor.entries, entry.2.sensorId = entry.1
  aggregate : delta.aggregateStatus =
    Sensor.aggregateStatus (delta.deltasBySensor.values.map (·.status))

theorem SecurityDelta.build_eq_ok_iff {delta delta' : SecurityDelta digest} :
    delta.build = .ok delta' ↔ delta.Valid ∧ delta = delta' := by
  simp only [SecurityDelta.build, ite_error_eq_ok_iff, Except.ok.injEq, not_not,
    keyMismatches_eq_nil_iff, ← and_assoc]
  exact and_congr_left fun _ => ⟨fun h => ⟨h.1, h.2⟩, fun h => ⟨h.keys, h.aggregate⟩⟩

/-! ### The part of a state that a delta reads -/

/-- Sensors whose findings decide a verdict. -/
def verdictProvenance (data : StateData digest) (sensorId : String) : Option SensorProvenance :=
  (data.provenanceBySensor.get? sensorId).filter fun provenance => ¬ provenance.nonReproducible

/-- Every finding is a verdict-bearing one of a verdict-bearing sensor. -/
def VerdictOnly (data : StateData digest) : Prop :=
  ∀ finding ∈ data.findings, finding.isLlm = false ∧
    ∀ provenance, data.provenanceBySensor.get? finding.sensorId = some provenance →
      provenance.nonReproducible = false

theorem mem_advisorySensorIds {data : StateData digest} {sensorId : String} :
    sensorId ∈ advisorySensorIds data ↔ ∃ provenance,
      data.provenanceBySensor.get? sensorId = some provenance ∧ provenance.nonReproducible := by
  simp only [advisorySensorIds, List.mem_map, List.mem_filter, Prod.exists, exists_and_right,
    exists_eq_right, mem_entries_iff]

theorem get?_verdictData (data : StateData digest) (sensorId : String) :
    (verdictData data).provenanceBySensor.get? sensorId = verdictProvenance data sensorId := by
  rw [verdictData, get?_filter, verdictProvenance]
  cases hget : data.provenanceBySensor.get? sensorId with
  | none => rfl
  | some provenance => simp [mem_advisorySensorIds, hget, Option.filter]

theorem VerdictOnly.findings_verdictData {data : StateData digest} (h : VerdictOnly data) :
    (verdictData data).findings = data.findings := by
  refine List.filter_eq_self.mpr fun finding hfinding => ?_
  simp only [decide_eq_true_eq, mem_advisorySensorIds]
  rintro ⟨provenance, hget, hadvisory⟩
  have hverdict := (h finding hfinding).2 provenance hget
  simp [hadvisory] at hverdict

/-- Without advisory sensors there is nothing to filter. -/
theorem verdictData_eq_self {data : StateData digest} (h : advisorySensorIds data = []) :
    verdictData data = data := by
  simp [verdictData, OrderedDict.filter, h]

section Verdict

variable [LinearOrder Digest]

theorem verdictData_wellFormed {data : StateData digest} (h : data.WellFormed) :
    (verdictData data).WellFormed where
  keys := fun entry hentry => h.keys entry (List.mem_filter.mp hentry).1
  sorted := h.sorted.sublist (List.filter_sublist.map _)
  complete := by
    intro finding hfinding
    obtain ⟨hmem, hverdict⟩ := List.mem_filter.mp hfinding
    obtain ⟨provenance, hget, hcomplete⟩ := h.complete finding hmem
    refine ⟨provenance, ?_, hcomplete⟩
    rw [get?_verdictData, verdictProvenance, hget]
    simp only [decide_eq_true_eq, mem_advisorySensorIds, hget] at hverdict
    simp only [Option.some.injEq, exists_eq_left', Bool.not_eq_true] at hverdict
    simp [Option.filter, hverdict]

theorem withoutAdvisoryData_eq_ok {state : SensorState digest}
    (h : VerdictOnly state.toStateData) : ∃ state', withoutAdvisoryData state = .ok state' ∧
      state'.toStateData = verdictData state.toStateData := by
  unfold withoutAdvisoryData
  split_ifs with hnil hmixed
  · exact ⟨state, rfl, (verdictData_eq_self hnil).symm⟩
  · simp only [List.any_eq_true, decide_eq_true_eq, mem_advisorySensorIds] at hmixed
    obtain ⟨finding, hfinding, ⟨provenance, hget, hadvisory⟩, -⟩ := hmixed
    have hverdict := (h finding hfinding).2 provenance hget
    simp [hadvisory] at hverdict
  · exact build_eq_ok (verdictData_wellFormed state.wellFormed)

/-- A finding of an advisory sensor stops the engine. -/
theorem verdictOnly_of_ok {state state' : SensorState digest}
    (hllm : rejectLlmFindings state.toStateData = .ok ())
    (h : withoutAdvisoryData state = .ok state') : VerdictOnly state.toStateData := by
  have hplain : ∀ finding ∈ state.findings, finding.isLlm = false := by
    simpa [rejectLlmFindings] using hllm
  intro finding hfinding
  refine ⟨hplain finding hfinding, fun provenance hget => ?_⟩
  by_contra hadvisory
  have hmem : finding.sensorId ∈ advisorySensorIds state.toStateData :=
    mem_advisorySensorIds.mpr ⟨provenance, hget, by simpa using hadvisory⟩
  have hmixed : state.findings.any fun finding =>
      finding.sensorId ∈ advisorySensorIds state.toStateData ∧ ¬ finding.isLlm :=
    List.any_eq_true.mpr ⟨finding, hfinding, by simp [hmem, hplain finding hfinding]⟩
  rw [withoutAdvisoryData, if_neg (List.ne_nil_of_mem hmem), if_pos hmixed] at h
  cases h

end Verdict

end SemanticCi.Sensor
