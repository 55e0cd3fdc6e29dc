import SemanticCi.Model.SecurityPolicy
import SemanticCi.Verification.Sensor.State

/-! The security delta: it is raised by advisory data alone, it satisfies its validators, and
it reads nothing of an advisory sensor. -/

namespace SemanticCi.Sensor

open ExceptRules OrderedDict Ssp

variable {Digest : Type} {digest : List Component → Digest} [LinearOrder Digest]

/-! ### The delta of one sensor -/

/-- The findings of one sensor under their ids. -/
def sensorFindings (data : StateData digest) (sensorId : String) :
    OrderedDict (CanonicalId Digest) (SecurityFinding digest) :=
  byCanonicalId (findingsForSensor data sensorId)

def sensorAdded (baseline candidate : StateData digest) (sensorId : String) :
    List (SecurityFinding digest) :=
  missingValues (sensorFindings candidate sensorId) (sensorFindings baseline sensorId)

/-- The delta of a sensor that completed on both sides without drift. -/
def comparedDelta (baseline candidate : StateData digest) (sensorId : String) :
    PerSensorDelta digest where
  sensorId := sensorId
  status := if (sensorAdded baseline candidate sensorId).any fun finding =>
    finding.severity ≠ .info then .fail else .pass
  added := sensorAdded baseline candidate sensorId
  removed := sensorAdded candidate baseline sensorId
  unchangedCount := (sortedCommonKeys (sensorFindings baseline sensorId)
    (sensorFindings candidate sensorId)).length

/-- The delta of a sensor that cannot be compared. -/
def unknownDelta (sensorId : String) (provenanceChanged : Bool) (reason : String) :
    PerSensorDelta digest where
  sensorId := sensorId
  status := .unknown
  unchangedCount := 0
  provenanceChanged := provenanceChanged
  errorMessage := some reason

/-- Why a sensor with this provenance on the two sides cannot be compared, if so, and whether
its provenance is the reason. -/
def unknownReason (baseline candidate : Option SensorProvenance)
    (driftFields : Finset ProvenanceField) : Option (Bool × String) :=
  match provenanceDriftReason baseline candidate driftFields, baseline, candidate with
  | none, some b, some c =>
    if b.status ≠ .complete ∨ c.status ≠ .complete then
      some (false, ((c.errorMessage.filter (· ≠ "")).or
        (b.errorMessage.filter (· ≠ ""))).getD "sensor did not complete")
    else none
  | reason, _, _ => some (true, reason.getD "")

/-- The delta that the engine makes for one sensor. -/
def madeDelta (baseline candidate : StateData digest) (driftFields : Finset ProvenanceField)
    (sensorId : String) : PerSensorDelta digest :=
  match unknownReason (baseline.provenanceBySensor.get? sensorId)
      (candidate.provenanceBySensor.get? sensorId) driftFields with
  | some (provenanceChanged, reason) => unknownDelta sensorId provenanceChanged reason
  | none => comparedDelta baseline candidate sensorId

theorem provenanceDriftReason_eq_none {baseline candidate : Option SensorProvenance}
    {driftFields : Finset ProvenanceField}
    (h : provenanceDriftReason baseline candidate driftFields = none) :
    ∃ b c, baseline = some b ∧ candidate = some c := by
  unfold provenanceDriftReason at h
  split at h
  · exact ⟨_, _, rfl, rfl⟩
  · cases h

theorem sensorDelta_eq_build (baseline candidate : StateData digest)
    (driftFields : Finset ProvenanceField) (sensorId : String) :
    sensorDelta baseline candidate driftFields sensorId =
      (madeDelta baseline candidate driftFields sensorId).build := by
  unfold sensorDelta perSensorDelta madeDelta unknownReason
  cases hreason : provenanceDriftReason (baseline.provenanceBySensor.get? sensorId)
      (candidate.provenanceBySensor.get? sensorId) driftFields with
  | some reason => rfl
  | none =>
    obtain ⟨b, c, hb, hc⟩ := provenanceDriftReason_eq_none hreason
    simp only [hb, hc]
    split
    · rfl
    · rfl

/-! ### Findings of one sensor -/

theorem entries_sensorFindings {data : StateData digest} (h : data.WellFormed)
    (sensorId : String) : (sensorFindings data sensorId).entries =
      (findingsForSensor data sensorId).map fun f => (f.canonicalId, f) := by
  refine entries_ofPairs ?_
  have hnodup : ((findingsForSensor data sensorId).map (·.canonicalId)).Nodup :=
    (h.sorted.sublist (List.filter_sublist.map _)).imp ne_of_lt
  simpa [Function.comp_def] using hnodup

theorem get?_sensorFindings {data : StateData digest} {sensorId : String}
    {finding : SecurityFinding digest} {id : CanonicalId Digest} (h : data.WellFormed) :
    (sensorFindings data sensorId).get? id = some finding ↔
      finding ∈ data.findings ∧ finding.sensorId = sensorId ∧ finding.canonicalId = id := by
  rw [← mem_entries_iff, entries_sensorFindings h]
  simp [findingsForSensor, and_assoc]

theorem mem_sensorFindings_keys {data : StateData digest} {sensorId : String}
    {id : CanonicalId Digest} (h : data.WellFormed) :
    id ∈ (sensorFindings data sensorId).keys ↔
      ∃ finding ∈ data.findings, finding.sensorId = sensorId ∧ finding.canonicalId = id := by
  rw [← get?_isSome_iff, Option.isSome_iff_exists]
  simp only [get?_sensorFindings h]

theorem mem_sensorAdded {baseline candidate : StateData digest} {sensorId : String}
    {finding : SecurityFinding digest} (hb : baseline.WellFormed) (hc : candidate.WellFormed) :
    finding ∈ sensorAdded baseline candidate sensorId ↔
      finding ∈ candidate.findings ∧ finding.sensorId = sensorId ∧
        ∀ other ∈ baseline.findings, other.sensorId = sensorId →
          other.canonicalId ≠ finding.canonicalId := by
  simp only [sensorAdded, missingValues, List.mem_filterMap, mem_sortedMissingKeys,
    get?_sensorFindings hc, mem_sensorFindings_keys hb, mem_sensorFindings_keys hc]
  constructor
  · rintro ⟨id, ⟨-, hmissing⟩, hfinding, hsensor, rfl⟩
    exact ⟨hfinding, hsensor, fun other hother hsame hid => hmissing ⟨other, hother, hsame, hid⟩⟩
  · rintro ⟨hfinding, hsensor, hmissing⟩
    refine ⟨finding.canonicalId, ⟨⟨finding, hfinding, hsensor, rfl⟩, ?_⟩, hfinding, hsensor, rfl⟩
    rintro ⟨other, hother, hsame, hid⟩
    exact hmissing other hother hsame hid

/-- The added findings sit under the missing ids. -/
theorem sensorAdded_ids {baseline candidate : StateData digest} (hc : candidate.WellFormed)
    (sensorId : String) : (sensorAdded baseline candidate sensorId).map (·.canonicalId) =
      sortedMissingKeys (sensorFindings candidate sensorId) (sensorFindings baseline sensorId) := by
  have hkeyed : ∀ id ∈ sortedMissingKeys (sensorFindings candidate sensorId)
      (sensorFindings baseline sensorId),
      ((sensorFindings candidate sensorId).get? id).map (·.canonicalId) = some id := by
    intro id hid
    obtain ⟨finding, hget⟩ := Option.isSome_iff_exists.mp
      ((get?_isSome_iff _ id).mpr ((mem_sortedMissingKeys _ _ id).mp hid).1)
    rw [hget, Option.map_some, ((get?_sensorFindings hc).mp hget).2.2]
  rw [sensorAdded, missingValues, List.map_filterMap, List.filterMap_congr hkeyed,
    List.filterMap_some]

theorem ne_info_iff (severity : SecuritySeverity) :
    severity ≠ .info ↔ severity ∈ failSeverities := by
  cases severity <;> decide

theorem madeDelta_sensorId (baseline candidate : StateData digest)
    (driftFields : Finset ProvenanceField) (sensorId : String) :
    (madeDelta baseline candidate driftFields sensorId).sensorId = sensorId := by
  unfold madeDelta
  split <;> rfl

omit [LinearOrder Digest] in
theorem unknownDelta_valid {sensorId : String} (hid : sensorId ≠ "") (provenanceChanged : Bool)
    (reason : String) :
    (unknownDelta sensorId provenanceChanged reason : PerSensorDelta digest).Valid where
  sensorId_ne := hid
  changed := fun _ => rfl
  own := by simp [unknownDelta]
  message := by simp [unknownDelta]
  fails := fun h => absurd rfl h

theorem comparedDelta_valid {baseline candidate : StateData digest} {sensorId : String}
    (hb : baseline.WellFormed) (hc : candidate.WellFormed) (hid : sensorId ≠ "") :
    (comparedDelta baseline candidate sensorId).Valid where
  sensorId_ne := hid
  changed := fun h => by cases h
  own := by
    intro finding hfinding
    rcases List.mem_append.mp hfinding with hadded | hremoved
    · exact ((mem_sensorAdded hb hc).mp hadded).2.1
    · exact ((mem_sensorAdded hc hb).mp hremoved).2.1
  message := by
    simp only [comparedDelta]
    split <;> simp
  fails := by
    intro _
    simp only [comparedDelta, List.any_eq_true, decide_eq_true_eq, ne_info_iff]
    split <;> simp_all

theorem madeDelta_valid {baseline candidate : StateData digest} {sensorId : String}
    (hb : baseline.WellFormed) (hc : candidate.WellFormed) (hid : sensorId ≠ "")
    (driftFields : Finset ProvenanceField) :
    (madeDelta baseline candidate driftFields sensorId).Valid := by
  unfold madeDelta
  split
  · exact unknownDelta_valid hid _ _
  · exact comparedDelta_valid hb hc hid

/-! ### The delta of all sensors -/

omit [LinearOrder Digest] in
theorem mem_sensorIds {baseline candidate : StateData digest} {sensorId : String} :
    sensorId ∈ sensorIds baseline candidate ↔
      sensorId ∈ baseline.provenanceBySensor.keys ∨ sensorId ∈ candidate.provenanceBySensor.keys := by
  rw [sensorIds, List.mem_insertionSort, List.mem_dedup, List.mem_append]

omit [LinearOrder Digest] in
theorem sensorIds_nodup (baseline candidate : StateData digest) :
    (sensorIds baseline candidate).Nodup :=
  (List.perm_insertionSort _ _).nodup_iff.mpr (List.nodup_dedup _)

theorem sensorId_ne_of_mem {data : StateData digest} (h : data.WellFormed) {sensorId : String}
    (hmem : sensorId ∈ data.provenanceBySensor.keys) : sensorId ≠ "" := by
  obtain ⟨entry, hentry, rfl⟩ := List.mem_map.mp hmem
  exact h.keys entry hentry ▸ entry.2.sensorId_ne

/-- The delta that the engine makes. -/
def madeSecurityDelta (baseline candidate : StateData digest)
    (driftFields : Finset ProvenanceField) : SecurityDelta digest :=
  let deltasBySensor := ofPairs ((sensorIds baseline candidate).map fun sensorId =>
    (sensorId, madeDelta baseline candidate driftFields sensorId))
  { deltasBySensor := deltasBySensor
    aggregateStatus := aggregateStatus (deltasBySensor.values.map (·.status)) }

theorem entries_madeSecurityDelta (baseline candidate : StateData digest)
    (driftFields : Finset ProvenanceField) :
    (madeSecurityDelta baseline candidate driftFields).deltasBySensor.entries =
      (sensorIds baseline candidate).map fun sensorId =>
        (sensorId, madeDelta baseline candidate driftFields sensorId) := by
  refine entries_ofPairs ?_
  simpa [Function.comp_def] using sensorIds_nodup baseline candidate

theorem madeSecurityDelta_valid (baseline candidate : StateData digest)
    (driftFields : Finset ProvenanceField) :
    (madeSecurityDelta baseline candidate driftFields).Valid where
  keys := by
    intro entry hentry
    rw [entries_madeSecurityDelta] at hentry
    obtain ⟨sensorId, -, rfl⟩ := List.mem_map.mp hentry
    exact madeDelta_sensorId ..
  aggregate := rfl

theorem verdictDelta_eq_ok {baseline candidate : StateData digest} (hb : baseline.WellFormed)
    (hc : candidate.WellFormed) (driftFields : Finset ProvenanceField) :
    verdictDelta baseline candidate driftFields =
      .ok (madeSecurityDelta baseline candidate driftFields) := by
  have hsensor : ∀ sensorId ∈ sensorIds baseline candidate,
      sensorDelta baseline candidate driftFields sensorId =
        .ok (madeDelta baseline candidate driftFields sensorId) := by
    intro sensorId hmem
    have hid : sensorId ≠ "" := by
      rcases mem_sensorIds.mp hmem with hmem | hmem
      · exact sensorId_ne_of_mem hb hmem
      · exact sensorId_ne_of_mem hc hmem
    rw [sensorDelta_eq_build, PerSensorDelta.build_eq_ok_iff]
    exact ⟨madeDelta_valid hb hc hid driftFields, rfl⟩
  have hmapM : ((sensorIds baseline candidate).mapM fun sensorId => do
      return (sensorId, ← sensorDelta baseline candidate driftFields sensorId) :
        Except ModelError _) =
        .ok ((sensorIds baseline candidate).map fun sensorId =>
          (sensorId, madeDelta baseline candidate driftFields sensorId)) := by
    rw [mapM_eq_ok_iff, List.forall₂_map_right_iff, List.forall₂_same]
    intro sensorId hmem
    rw [hsensor sensorId hmem]
    rfl
  rw [verdictDelta, hmapM, ok_bind]
  exact SecurityDelta.build_eq_ok_iff.mpr ⟨madeSecurityDelta_valid .., rfl⟩

/-! ### Success and failure -/

/-- Two states without advisory findings have the delta of their verdict-bearing parts. -/
theorem computeSecurityDelta_eq_ok {baseline candidate : SensorState digest}
    (hb : VerdictOnly baseline.toStateData) (hc : VerdictOnly candidate.toStateData)
    (driftFields : Option (Finset ProvenanceField)) :
    computeSecurityDelta baseline candidate driftFields =
      .ok (madeSecurityDelta (verdictData baseline.toStateData)
        (verdictData candidate.toStateData) (driftFields.getD defaultDriftFields)) := by
  have hreject : ∀ state : SensorState digest, VerdictOnly state.toStateData →
      rejectLlmFindings state.toStateData = .ok () := by
    intro state h
    refine if_neg ?_
    simpa using fun finding hfinding => (h finding hfinding).1
  obtain ⟨b, hwithoutb, hb'⟩ := withoutAdvisoryData_eq_ok hb
  obtain ⟨c, hwithoutc, hc'⟩ := withoutAdvisoryData_eq_ok hc
  rw [computeSecurityDelta, hreject baseline hb, ok_bind, hreject candidate hc, ok_bind,
    hwithoutb, ok_bind, hwithoutc, ok_bind, hb', hc']
  exact verdictDelta_eq_ok (verdictData_wellFormed baseline.wellFormed)
    (verdictData_wellFormed candidate.wellFormed) _

theorem verdictOnly_of_compute {baseline candidate : SensorState digest}
    {driftFields : Option (Finset ProvenanceField)} {delta : SecurityDelta digest}
    (h : computeSecurityDelta baseline candidate driftFields = .ok delta) :
    VerdictOnly baseline.toStateData ∧ VerdictOnly candidate.toStateData := by
  simp only [computeSecurityDelta, bind_eq_ok_iff] at h
  obtain ⟨_, hrejectb, _, hrejectc, b, hb, c, hc, -⟩ := h
  exact ⟨verdictOnly_of_ok hrejectb hb, verdictOnly_of_ok hrejectc hc⟩

/-- A finding that must not reach a verdict. -/
def HasAdvisoryFinding (data : StateData digest) : Prop :=
  ∃ finding ∈ data.findings, finding.isLlm ∨ ∃ provenance,
    data.provenanceBySensor.get? finding.sensorId = some provenance ∧ provenance.nonReproducible

omit [LinearOrder Digest] in
theorem verdictOnly_iff {data : StateData digest} :
    VerdictOnly data ↔ ¬ HasAdvisoryFinding data := by
  simp only [VerdictOnly, HasAdvisoryFinding, not_exists, not_and, not_or, Bool.not_eq_true]

/-- Advisory findings raise, LLM findings before all others. -/
theorem computeSecurityDelta_eq_error {baseline candidate : SensorState digest}
    (h : ¬ (VerdictOnly baseline.toStateData ∧ VerdictOnly candidate.toStateData))
    (driftFields : Option (Finset ProvenanceField)) :
    computeSecurityDelta baseline candidate driftFields =
      .error (if baseline.findings.any (·.isLlm) ∨ candidate.findings.any (·.isLlm)
        then .llmFindings else .mixedFindings) := by
  by_cases hb : baseline.findings.any (·.isLlm)
  · simp [computeSecurityDelta, rejectLlmFindings, hb]
  by_cases hc : candidate.findings.any (·.isLlm)
  · simp [computeSecurityDelta, rejectLlmFindings, hb, hc]
  have hreject : ∀ {state : SensorState digest}, ¬ state.findings.any (·.isLlm) →
      rejectLlmFindings state.toStateData = .ok () := fun hnone => if_neg hnone
  have hmixed : ∀ {state : SensorState digest}, ¬ state.findings.any (·.isLlm) →
      ¬ VerdictOnly state.toStateData → withoutAdvisoryData state = .error .mixedFindings := by
    intro state hnone hadvisory
    cases hwithout : withoutAdvisoryData state with
    | ok state' => exact absurd (verdictOnly_of_ok (hreject hnone) hwithout) hadvisory
    | error e =>
      unfold withoutAdvisoryData at hwithout
      split_ifs at hwithout with hnil hmixed
      · exact hwithout.symm
      · obtain ⟨built, hbuilt, -⟩ := build_eq_ok (verdictData_wellFormed state.wellFormed)
        rw [hbuilt] at hwithout
        cases hwithout
  rw [computeSecurityDelta, hreject hb, ok_bind, hreject hc, ok_bind, if_neg (by simp [hb, hc])]
  by_cases hverdict : VerdictOnly baseline.toStateData
  · obtain ⟨b, hwithoutb, -⟩ := withoutAdvisoryData_eq_ok hverdict
    rw [hwithoutb, ok_bind, hmixed hc fun hcand => h ⟨hverdict, hcand⟩, error_bind]
  · rw [hmixed hb hverdict, error_bind]

/-! ### Advisory sensors -/

/-- The same findings, and the same provenance of every verdict-bearing sensor. -/
structure DifferByAdvisory (state state' : StateData digest) : Prop where
  findings : state'.findings = state.findings
  provenance : ∀ sensorId, verdictProvenance state' sensorId = verdictProvenance state sensorId

theorem verdictOnly_iff_provenance {data : StateData digest} (h : data.WellFormed) :
    VerdictOnly data ↔ ∀ finding ∈ data.findings, finding.isLlm = false ∧
      (verdictProvenance data finding.sensorId).isSome := by
  refine forall₂_congr fun finding hfinding => and_congr_right fun _ => ?_
  obtain ⟨provenance, hget, -⟩ := h.complete finding hfinding
  cases hadvisory : provenance.nonReproducible <;>
    simp [verdictProvenance, hget, Option.filter, hadvisory]

omit [LinearOrder Digest] in
theorem mem_verdictData_keys {data : StateData digest} {sensorId : String} :
    sensorId ∈ (verdictData data).provenanceBySensor.keys ↔
      (verdictProvenance data sensorId).isSome := by
  rw [← get?_isSome_iff, get?_verdictData]

section DifferByAdvisory

variable {b b' c c' : SensorState digest}
  (hb : DifferByAdvisory b.toStateData b'.toStateData)
  (hc : DifferByAdvisory c.toStateData c'.toStateData)

include hb

theorem verdictOnly_congr : VerdictOnly b'.toStateData ↔ VerdictOnly b.toStateData := by
  rw [verdictOnly_iff_provenance b'.wellFormed, verdictOnly_iff_provenance b.wellFormed,
    hb.findings]
  simp only [hb.provenance]

include hc

theorem sensorIds_congr :
    sensorIds (verdictData b'.toStateData) (verdictData c'.toStateData) =
      sensorIds (verdictData b.toStateData) (verdictData c.toStateData) := by
  refine List.Perm.eq_of_pairwise' (r := fun x y => x ≤ y) (List.pairwise_insertionSort _ _)
    (List.pairwise_insertionSort _ _) ?_
  rw [List.perm_ext_iff_of_nodup (sensorIds_nodup _ _) (sensorIds_nodup _ _)]
  intro sensorId
  simp only [mem_sensorIds, mem_verdictData_keys, hb.provenance, hc.provenance]

theorem madeDelta_congr (hverdictb : VerdictOnly b.toStateData)
    (hverdictc : VerdictOnly c.toStateData) (driftFields : Finset ProvenanceField)
    (sensorId : String) :
    madeDelta (verdictData b'.toStateData) (verdictData c'.toStateData) driftFields sensorId =
      madeDelta (verdictData b.toStateData) (verdictData c.toStateData) driftFields sensorId := by
  have hfindings : ∀ {s s' : SensorState digest},
      DifferByAdvisory s.toStateData s'.toStateData → VerdictOnly s.toStateData →
      sensorFindings (verdictData s'.toStateData) sensorId =
        sensorFindings (verdictData s.toStateData) sensorId := by
    intro s s' hs hverdict
    rw [sensorFindings, sensorFindings, findingsForSensor, findingsForSensor,
      ((verdictOnly_congr hs).mpr hverdict).findings_verdictData, hverdict.findings_verdictData,
      hs.findings]
  have hcompared : comparedDelta (verdictData b'.toStateData) (verdictData c'.toStateData) sensorId =
      comparedDelta (verdictData b.toStateData) (verdictData c.toStateData) sensorId := by
    rw [comparedDelta, comparedDelta, sensorAdded, sensorAdded, sensorAdded, sensorAdded,
      hfindings hb hverdictb, hfindings hc hverdictc]
  rw [madeDelta, madeDelta, hcompared]
  simp only [get?_verdictData, hb.provenance, hc.provenance]

theorem computeSecurityDelta_congr (driftFields : Option (Finset ProvenanceField)) :
    computeSecurityDelta b' c' driftFields = computeSecurityDelta b c driftFields := by
  by_cases hverdict : VerdictOnly b.toStateData ∧ VerdictOnly c.toStateData
  · rw [computeSecurityDelta_eq_ok hverdict.1 hverdict.2,
      computeSecurityDelta_eq_ok ((verdictOnly_congr hb).mpr hverdict.1)
        ((verdictOnly_congr hc).mpr hverdict.2)]
    simp only [madeSecurityDelta, sensorIds_congr hb hc,
      madeDelta_congr hb hc hverdict.1 hverdict.2]
  · rw [computeSecurityDelta_eq_error hverdict, computeSecurityDelta_eq_error
      (by rwa [verdictOnly_congr hb, verdictOnly_congr hc]), hb.findings, hc.findings]

end DifferByAdvisory

/-- Advisory sensors change no delta and no evaluation, advisory findings raise, and every
delta of other states meets its validators. -/
theorem computeSecurityDelta_ignores_advisory {Date : Type} [LinearOrder Date] :
    (∀ b b' c c' : SensorState digest,
      DifferByAdvisory b.toStateData b'.toStateData →
      DifferByAdvisory c.toStateData c'.toStateData →
        (∀ driftFields, computeSecurityDelta b' c' driftFields =
          computeSecurityDelta b c driftFields) ∧
        ∀ (policy : Option (SecurityPolicy Digest Date)) (asOf : Date),
          evaluateSecurityDetail policy b' c' asOf = evaluateSecurityDetail policy b c asOf) ∧
    (∀ (b c : SensorState digest) driftFields,
      (∃ e, computeSecurityDelta b c driftFields = .error e) ↔
        HasAdvisoryFinding b.toStateData ∨ HasAdvisoryFinding c.toStateData) ∧
    ∀ (b c : SensorState digest) driftFields delta,
      computeSecurityDelta b c driftFields = .ok delta →
        delta.Valid ∧ ∀ entry ∈ delta.deltasBySensor.entries, entry.2.Valid := by
  refine ⟨fun b b' c c' hb hc => ?_, fun b c driftFields => ?_, fun b c driftFields delta h => ?_⟩
  · have hdelta := computeSecurityDelta_congr hb hc
    refine ⟨hdelta, fun policy asOf => ?_⟩
    rw [evaluateSecurityDetail, evaluateSecurityDetail, hdelta]
  · constructor
    · rintro ⟨e, he⟩
      by_contra hclean
      rw [not_or, ← verdictOnly_iff, ← verdictOnly_iff] at hclean
      rw [computeSecurityDelta_eq_ok hclean.1 hclean.2] at he
      cases he
    · intro hadvisory
      refine ⟨_, computeSecurityDelta_eq_error ?_ driftFields⟩
      rw [verdictOnly_iff, verdictOnly_iff]
      tauto
  · obtain ⟨hb, hc⟩ := verdictOnly_of_compute h
    rw [computeSecurityDelta_eq_ok hb hc, Except.ok.injEq] at h
    subst h
    refine ⟨madeSecurityDelta_valid .., fun entry hentry => ?_⟩
    rw [entries_madeSecurityDelta] at hentry
    obtain ⟨sensorId, hmem, rfl⟩ := List.mem_map.mp hentry
    have hid : sensorId ≠ "" := by
      rcases mem_sensorIds.mp hmem with hmem | hmem
      · exact sensorId_ne_of_mem (verdictData_wellFormed b.wellFormed) hmem
      · exact sensorId_ne_of_mem (verdictData_wellFormed c.wellFormed) hmem
    exact madeDelta_valid (verdictData_wellFormed b.wellFormed)
      (verdictData_wellFormed c.wellFormed) hid _

/-! ### A new finding and a review -/

def noSensors : SensorState (id : List Component → List Component) where
  valid := by decide +kernel

theorem semgrepId_ne : "semgrep" ≠ "" := by decide

theorem reviewId_ne : "llm-review" ≠ "" := by decide

theorem evalRuleId_ne : "python.eval" ≠ "" := by decide

def semgrepProvenance : SensorProvenance where
  sensorId := "semgrep"
  sensorId_ne := semgrepId_ne
  complete_iff := completeWithoutError

def advisoryProvenance : SensorProvenance where
  sensorId := "llm-review"
  modelId := some "reviewer"
  nonReproducible := true
  sensorId_ne := reviewId_ne
  complete_iff := completeWithoutError

/-- A high finding at the first match of a line, with its own text as its digest. -/
def staticFinding (sensorId ruleId line : String) (hsensor : sensorId ≠ "") (hrule : ruleId ≠ "") :
    SASTSecurityFinding (id : List Component → List Component) where
  sensorId := sensorId
  canonicalId := toLex ("v1",
    ["v1", "sast", sensorId, ruleId, "app.py", "app.handler", line, "0"].map Sum.inlₗ)
  identityComponents := ["v1", "sast", sensorId, ruleId, "app.py", "app.handler", line, "0"]
  severity := .high
  ruleId := ruleId
  modulePath := "app.py"
  qualifiedName := "app.handler"
  normalizedText := line
  ordinal := 0
  sensorId_ne := hsensor
  ruleId_ne := hrule
  modulePath_ne := by decide
  modulePath_posix := by decide +kernel
  qualifiedName_ne := by decide
  canonicalId_eq := rfl
  identity_eq := by
    have hordinal : toString 0 = "0" := by decide +kernel
    rw [hordinal]

def evalFinding : SASTSecurityFinding (id : List Component → List Component) :=
  staticFinding "semgrep" "python.eval" "eval(x)" semgrepId_ne evalRuleId_ne

def execFinding : SASTSecurityFinding (id : List Component → List Component) :=
  staticFinding "semgrep" "python.exec" "exec(x)" semgrepId_ne (by decide)

def execScan : SensorState (id : List Component → List Component) where
  provenanceBySensor := ofPairs [("semgrep", semgrepProvenance)]
  findings := [.sast execFinding]
  valid := by decide +kernel

def evalScan : SensorState (id : List Component → List Component) where
  provenanceBySensor := ofPairs [("semgrep", semgrepProvenance)]
  findings := [.sast evalFinding, .sast execFinding]
  valid := by decide +kernel

/-- The same findings beside a review without findings. -/
def reviewedScan : SensorState (id : List Component → List Component) where
  provenanceBySensor := ofPairs [("llm-review", advisoryProvenance), ("semgrep", semgrepProvenance)]
  findings := [.sast evalFinding, .sast execFinding]
  valid := by decide +kernel

theorem reviewedScan_differs :
    DifferByAdvisory evalScan.toStateData reviewedScan.toStateData where
  findings := rfl
  provenance := by
    intro sensorId
    by_cases hreview : sensorId = "llm-review"
    · subst hreview
      decide +kernel
    · by_cases hsemgrep : sensorId = "semgrep"
      · subst hsemgrep
        decide +kernel
      · have hscan : evalScan.provenanceBySensor.get? sensorId = none := by
          have hentries : evalScan.provenanceBySensor.entries =
              [("semgrep", semgrepProvenance)] := entries_ofPairs (by decide)
          simp [get?, hentries, Ne.symm hsemgrep]
        have hreviewed : reviewedScan.provenanceBySensor.get? sensorId = none := by
          have hentries : reviewedScan.provenanceBySensor.entries =
              [("llm-review", advisoryProvenance), ("semgrep", semgrepProvenance)] :=
            entries_ofPairs (by decide)
          simp [get?, hentries, Ne.symm hreview, Ne.symm hsemgrep]
        rw [verdictProvenance, verdictProvenance, hscan, hreviewed]

/-- The new finding fails with and without the review. -/
theorem advisorySensor_ignored :
    (computeSecurityDelta execScan evalScan none).toOption.map (·.aggregateStatus) = some .fail ∧
      computeSecurityDelta execScan reviewedScan none =
        computeSecurityDelta execScan evalScan none :=
  ⟨by decide +kernel, ((@computeSecurityDelta_ignores_advisory _ _ _ ℕ _).1 _ _ _ _
    ⟨rfl, fun _ => rfl⟩ reviewedScan_differs).1 none⟩

end SemanticCi.Sensor
