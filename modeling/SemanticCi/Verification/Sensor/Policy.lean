import SemanticCi.Verification.Sensor.Delta

/-! The evaluation of a security policy: when its status is which, and how the status moves
with the policy and the date. -/

namespace SemanticCi.Sensor

open ExceptRules OrderedDict Ssp

variable {Digest Date : Type} {digest : List Component → Digest}

/-! ### Sensors that can be compared -/

/-- A sensor with provenance on both sides, equal on the drift fields, that completed twice. -/
def Comparable (baseline candidate : StateData digest) (driftFields : Finset ProvenanceField)
    (sensorId : String) : Prop :=
  ∃ b c, verdictProvenance baseline sensorId = some b ∧
    verdictProvenance candidate sensorId = some c ∧
    (∀ field ∈ driftFields, field.differs b c = false) ∧ b.status = .complete ∧
    c.status = .complete

/-- Some verdict-bearing sensor of one side is missing on the other, drifted or did not
complete. -/
def SomeIncomparable (baseline candidate : StateData digest)
    (driftFields : Finset ProvenanceField) : Prop :=
  ∃ sensorId, ((verdictProvenance baseline sensorId).isSome ∨
      (verdictProvenance candidate sensorId).isSome) ∧
    ¬ Comparable baseline candidate driftFields sensorId

theorem changedFields_eq_nil_iff {b c : SensorProvenance} {driftFields : Finset ProvenanceField} :
    changedFields b c driftFields = [] ↔ ∀ field ∈ driftFields, field.differs b c = false := by
  rw [changedFields, ← List.length_eq_zero_iff, Finset.length_sort, Finset.card_eq_zero,
    Finset.image_eq_empty, Finset.filter_eq_empty_iff]
  simp only [Bool.not_eq_true]

theorem provenanceDriftReason_some (b c : SensorProvenance)
    (driftFields : Finset ProvenanceField) :
    provenanceDriftReason (some b) (some c) driftFields = none ↔
      ∀ field ∈ driftFields, field.differs b c = false := by
  rw [← changedFields_eq_nil_iff, provenanceDriftReason]
  split <;> simp_all

theorem unknownReason_eq_none_iff {baseline candidate : StateData digest}
    {driftFields : Finset ProvenanceField} {sensorId : String} :
    unknownReason (verdictProvenance baseline sensorId) (verdictProvenance candidate sensorId)
      driftFields = none ↔ Comparable baseline candidate driftFields sensorId := by
  unfold Comparable
  cases hb : verdictProvenance baseline sensorId with
  | none => simp [unknownReason]
  | some b =>
    cases hc : verdictProvenance candidate sensorId with
    | none => simp [unknownReason]
    | some c =>
      simp only [Option.some.injEq, exists_and_left, exists_eq_left',
        ← provenanceDriftReason_some b c driftFields]
      cases hreason : provenanceDriftReason (some b) (some c) driftFields with
      | some reason => simp [unknownReason, hreason]
      | none =>
        simp only [unknownReason, hreason, true_and]
        by_cases hbs : b.status = .complete <;> by_cases hcs : c.status = .complete <;>
          simp [hbs, hcs]

/-! ### Statuses of one sensor and of all -/

theorem aggregateStatus_eq_unknown {statuses : List SecurityDeltaStatus} :
    aggregateStatus statuses = .unknown ↔ .unknown ∈ statuses := by
  unfold aggregateStatus
  split_ifs <;> simp_all

theorem aggregateStatus_eq_fail {statuses : List SecurityDeltaStatus} :
    aggregateStatus statuses = .fail ↔ .unknown ∉ statuses ∧ .fail ∈ statuses := by
  unfold aggregateStatus
  split_ifs <;> simp_all

section Status

variable [LinearOrder Digest]

theorem madeDelta_status_unknown {baseline candidate : StateData digest}
    {driftFields : Finset ProvenanceField} {sensorId : String} :
    (madeDelta (verdictData baseline) (verdictData candidate) driftFields sensorId).status =
      .unknown ↔ ¬ Comparable baseline candidate driftFields sensorId := by
  rw [← unknownReason_eq_none_iff, madeDelta, get?_verdictData, get?_verdictData]
  split
  case h_1 hreason => simp [hreason, unknownDelta]
  case h_2 hnone =>
    simp only [hnone, not_true_eq_false, comparedDelta]
    split <;> simp

theorem madeDelta_of_comparable {baseline candidate : StateData digest}
    {driftFields : Finset ProvenanceField} {sensorId : String}
    (h : Comparable baseline candidate driftFields sensorId) :
    madeDelta (verdictData baseline) (verdictData candidate) driftFields sensorId =
      comparedDelta (verdictData baseline) (verdictData candidate) sensorId := by
  rw [madeDelta, get?_verdictData, get?_verdictData, unknownReason_eq_none_iff.mpr h]

theorem madeDelta_of_not_comparable {baseline candidate : StateData digest}
    {driftFields : Finset ProvenanceField} {sensorId : String}
    (h : ¬ Comparable baseline candidate driftFields sensorId) :
    (madeDelta (verdictData baseline) (verdictData candidate) driftFields sensorId).added = [] := by
  rw [← unknownReason_eq_none_iff] at h
  rw [madeDelta, get?_verdictData, get?_verdictData]
  split
  case h_1 => rfl
  case h_2 hnone => exact absurd hnone h

/-- The sensors of an evaluation are those of the delta, in order. -/
theorem evaluateDelta_status [LE Date] [DecidableLE Date]
    (policy : Option (SecurityPolicy Digest Date)) (asOf : Date) (delta : SecurityDelta digest) :
    (evaluateDelta policy asOf delta).status =
      aggregateStatus ((evaluateDelta policy asOf delta).sensors.map (·.status) ++
        if violatesGlobalCountPolicy policy
          ((evaluateDelta policy asOf delta).sensors.map (·.added.length)).sum
        then [.fail] else []) := by
  unfold evaluateDelta
  rfl

theorem evaluateDelta_sensors [LE Date] [DecidableLE Date]
    (policy : Option (SecurityPolicy Digest Date)) (asOf : Date)
    (baseline candidate : StateData digest) (driftFields : Finset ProvenanceField) :
    (evaluateDelta policy asOf (madeSecurityDelta baseline candidate driftFields)).sensors =
      (sensorIds baseline candidate).map fun sensorId =>
        sensorResult policy (activeSuppressionIds (policySuppressions policy) asOf) sensorId
          (madeDelta baseline candidate driftFields sensorId) := by
  have hentries := entries_madeSecurityDelta baseline candidate driftFields
  have hkeys : (madeSecurityDelta baseline candidate driftFields).deltasBySensor.keys =
      sensorIds baseline candidate := by
    rw [keys, hentries, List.map_map]
    exact List.map_id _
  have hsorted : (sensorIds baseline candidate).insertionSort (· ≤ ·) =
      sensorIds baseline candidate :=
    List.Pairwise.insertionSort_eq (List.pairwise_insertionSort _ _)
  simp only [evaluateDelta, hkeys, hsorted]
  rw [← List.filterMap_eq_map]
  refine List.filterMap_congr fun sensorId hmem => ?_
  have hget : (madeSecurityDelta baseline candidate driftFields).deltasBySensor.get? sensorId =
      some (madeDelta baseline candidate driftFields sensorId) := by
    rw [← mem_entries_iff, hentries]
    exact List.mem_map.mpr ⟨sensorId, hmem, rfl⟩
  rw [hget]
  rfl

end Status

/-! ### Added findings -/

/-- Some suppression that has not expired names the finding. -/
def Covered [LE Date] (policy : Option (SecurityPolicy Digest Date)) (asOf : Date)
    (finding : SecurityFinding digest) : Prop :=
  ∃ suppression ∈ policySuppressions policy, asOf ≤ suppression.expires ∧
    suppression.canonicalId = finding.canonicalId

/-- The severity or the rule of a finding fails the policy. -/
def Forbidden (policy : Option (SecurityPolicy Digest Date)) (finding : SecurityFinding digest) :
    Prop :=
  finding.severity ∈ effectiveFailSeverities policy ∨ finding.isDenied (deniedRules policy)

theorem violatesFindingPolicy_iff {policy : Option (SecurityPolicy Digest Date)}
    {added : List (SecurityFinding digest)} :
    violatesFindingPolicy policy added ↔ ∃ finding ∈ added, Forbidden policy finding := by
  have hnone : ∀ finding : SecurityFinding digest, finding.isDenied [] = false := by
    rintro (f | f | f) <;> simp [SecurityFinding.isDenied]
  simp only [violatesFindingPolicy, Forbidden, and_or_left, exists_or]
  by_cases hseverity : added.any fun finding =>
      finding.severity ∈ effectiveFailSeverities policy
  · rw [if_pos hseverity]
    simp only [List.any_eq_true, decide_eq_true_eq] at hseverity
    simp [hseverity]
  · rw [if_neg hseverity]
    simp only [List.any_eq_true, decide_eq_true_eq] at hseverity
    simp only [hseverity, false_or, decide_eq_true_eq, List.any_eq_true]
    constructor
    · exact fun h => h.2
    · rintro ⟨finding, hfinding, hdenied⟩
      refine ⟨fun hnil => ?_, finding, hfinding, hdenied⟩
      rw [hnil, hnone] at hdenied
      cases hdenied

section Added

variable [LinearOrder Digest]

/-- The findings of the candidate under ids that its sensor does not have in the baseline. -/
def newFindings (baseline candidate : StateData digest) : List (SecurityFinding digest) :=
  candidate.findings.filter fun finding => ∀ other ∈ baseline.findings,
    other.sensorId = finding.sensorId → other.canonicalId ≠ finding.canonicalId

variable [LinearOrder Date]

instance (policy : Option (SecurityPolicy Digest Date)) (asOf : Date) :
    DecidablePred fun finding : SecurityFinding digest => Covered policy asOf finding :=
  fun finding => inferInstanceAs (Decidable (∃ suppression ∈ policySuppressions policy,
    asOf ≤ suppression.expires ∧ suppression.canonicalId = finding.canonicalId))

/-- The new findings that count against a policy. -/
def unsuppressed (policy : Option (SecurityPolicy Digest Date)) (asOf : Date)
    (baseline candidate : StateData digest) : List (SecurityFinding digest) :=
  (newFindings baseline candidate).filter fun finding => ¬ Covered policy asOf finding

/-- The new findings fail the policy, one by one or by their number. -/
def Violated (policy : Option (SecurityPolicy Digest Date)) (asOf : Date)
    (baseline candidate : StateData digest) : Prop :=
  (∃ finding ∈ unsuppressed policy asOf baseline candidate, Forbidden policy finding) ∨
    ∃ maxCount, maxAddedCount policy = some maxCount ∧
      maxCount < (unsuppressed policy asOf baseline candidate).length

omit [LinearOrder Digest] in
theorem mem_activeSuppressionIds {policy : Option (SecurityPolicy Digest Date)} {asOf : Date}
    {finding : SecurityFinding digest} :
    finding.canonicalId ∈ activeSuppressionIds (policySuppressions policy) asOf ↔
      Covered policy asOf finding := by
  simp [activeSuppressionIds, Covered, and_assoc]

/-- The findings that a sensor adds are the new ones of the sensor. -/
theorem sensorAdded_perm {baseline candidate : StateData digest} (hb : baseline.WellFormed)
    (hc : candidate.WellFormed) (sensorId : String) :
    (sensorAdded baseline candidate sensorId).Perm
      ((newFindings baseline candidate).filter fun finding => finding.sensorId = sensorId) := by
  have hids : ((sensorAdded baseline candidate sensorId).map (·.canonicalId)).Nodup := by
    rw [sensorAdded_ids hc]
    exact nodup_sortedMissingKeys _ _
  have hnodup : candidate.findings.Nodup := List.Nodup.of_map _ (hc.sorted.imp ne_of_lt)
  have hnew : (newFindings baseline candidate).Nodup := hnodup.filter _
  rw [List.perm_ext_iff_of_nodup (List.Nodup.of_map _ hids) (hnew.filter _)]
  intro finding
  rw [mem_sensorAdded hb hc, List.mem_filter, newFindings, List.mem_filter]
  simp only [decide_eq_true_eq]
  constructor
  · rintro ⟨hfinding, rfl, hnew⟩
    exact ⟨⟨hfinding, hnew⟩, rfl⟩
  · rintro ⟨⟨hfinding, hnew⟩, rfl⟩
    exact ⟨hfinding, rfl, hnew⟩

theorem newFindings_verdictData {b c : StateData digest} (hb : VerdictOnly b)
    (hc : VerdictOnly c) :
    newFindings (verdictData b) (verdictData c) = newFindings b c := by
  rw [newFindings, newFindings, hb.findings_verdictData, hc.findings_verdictData]

/-- The added findings of one compared sensor that count against the policy. -/
theorem compared_unsuppressed_perm {b c : SensorState digest} (hb : VerdictOnly b.toStateData)
    (hc : VerdictOnly c.toStateData) (policy : Option (SecurityPolicy Digest Date)) (asOf : Date)
    (sensorId : String) :
    ((comparedDelta (verdictData b.toStateData) (verdictData c.toStateData) sensorId).added.filter
      fun finding => finding.canonicalId ∉
        activeSuppressionIds (policySuppressions policy) asOf).Perm
      ((unsuppressed policy asOf b.toStateData c.toStateData).filter fun finding =>
        finding.sensorId = sensorId) := by
  have hperm := sensorAdded_perm (verdictData_wellFormed b.wellFormed)
    (verdictData_wellFormed c.wellFormed) sensorId
  rw [newFindings_verdictData hb hc] at hperm
  refine (hperm.filter _).trans (List.Perm.of_eq ?_)
  rw [unsuppressed, List.filter_filter, List.filter_filter]
  refine List.filter_congr fun finding _ => ?_
  simp only [mem_activeSuppressionIds, Bool.and_comm]

theorem mem_sensorIds_of_new {b c : SensorState digest} (hc : VerdictOnly c.toStateData)
    {finding : SecurityFinding digest}
    (h : finding ∈ newFindings b.toStateData c.toStateData) :
    finding.sensorId ∈ sensorIds (verdictData b.toStateData) (verdictData c.toStateData) := by
  have hmem : finding ∈ (verdictData c.toStateData).findings := by
    rw [hc.findings_verdictData]
    exact (List.mem_filter.mp h).1
  obtain ⟨provenance, hget, -⟩ := (verdictData_wellFormed c.wellFormed).complete finding hmem
  exact mem_sensorIds.mpr (Or.inr ((get?_isSome_iff _ _).mp (by simp [hget])))

end Added

/-! ### The status -/

section Evaluation

variable [LinearOrder Digest] [LinearOrder Date]

omit [LinearOrder Digest] [LinearOrder Date] in
theorem someIncomparable_iff {b c : StateData digest} {driftFields : Finset ProvenanceField} :
    SomeIncomparable b c driftFields ↔
      ∃ sensorId ∈ sensorIds (verdictData b) (verdictData c),
        ¬ Comparable b c driftFields sensorId := by
  simp only [SomeIncomparable, mem_sensorIds, mem_verdictData_keys]

omit [LinearOrder Date] in
theorem sensorResult_status {b c : StateData digest} {driftFields : Finset ProvenanceField}
    (policy : Option (SecurityPolicy Digest Date)) (active : List (CanonicalId Digest))
    (sensorId : String) :
    (sensorResult policy active sensorId
      (madeDelta (verdictData b) (verdictData c) driftFields sensorId)).status = .unknown ↔
        ¬ Comparable b c driftFields sensorId := by
  rw [← madeDelta_status_unknown, sensorResult]
  split_ifs with h
  · simp [h]
  · simp only [h, statusForAdded, iff_false]
    split <;> simp

omit [LinearOrder Date] in
theorem sensorResult_of_comparable {b c : StateData digest}
    {driftFields : Finset ProvenanceField} {sensorId : String}
    (h : Comparable b c driftFields sensorId) (policy : Option (SecurityPolicy Digest Date))
    (active : List (CanonicalId Digest)) :
    (sensorResult policy active sensorId
      (madeDelta (verdictData b) (verdictData c) driftFields sensorId)).added =
        (comparedDelta (verdictData b) (verdictData c) sensorId).added.filter
          (fun finding => finding.canonicalId ∉ active) ∧
    ((sensorResult policy active sensorId
      (madeDelta (verdictData b) (verdictData c) driftFields sensorId)).status = .fail ↔
        ∃ finding ∈ (comparedDelta (verdictData b) (verdictData c) sensorId).added.filter
          (fun finding => finding.canonicalId ∉ active), Forbidden policy finding) := by
  have hstatus : (madeDelta (verdictData b) (verdictData c) driftFields sensorId).status ≠
      .unknown := fun hunknown => madeDelta_status_unknown.mp hunknown h
  rw [sensorResult, if_neg hstatus, madeDelta_of_comparable h]
  refine ⟨rfl, ?_⟩
  rw [← violatesFindingPolicy_iff]
  simp only [statusForAdded]
  split <;> simp_all

/-- What an evaluation says about two states. -/
structure EvaluationSpec (policy : Option (SecurityPolicy Digest Date)) (asOf : Date)
    (b c : SensorState digest) (result : SecuritySuiteResult digest Date) : Prop where
  unknown_iff : result.status = .unknown ↔
    SomeIncomparable b.toStateData c.toStateData (policyDriftFields policy)
  fail_iff : result.status = .fail ↔
    ¬ SomeIncomparable b.toStateData c.toStateData (policyDriftFields policy) ∧
      Violated policy asOf b.toStateData c.toStateData
  pass_iff : result.status = .pass ↔
    ¬ SomeIncomparable b.toStateData c.toStateData (policyDriftFields policy) ∧
      ¬ Violated policy asOf b.toStateData c.toStateData
  partition : ∃ delta,
    computeSecurityDelta b c (some (policyDriftFields policy)) = .ok delta ∧
      ∀ sensor ∈ result.sensors, ∃ perSensor,
        delta.deltasBySensor.get? sensor.sensorId = some perSensor ∧
        (sensor.suppressed ++ sensor.added).Perm perSensor.added ∧
        (∀ finding ∈ sensor.suppressed, Covered policy asOf finding) ∧
        ∀ finding ∈ sensor.added, ¬ Covered policy asOf finding

section Clean

variable {b c : SensorState digest} (hb : VerdictOnly b.toStateData)
  (hc : VerdictOnly c.toStateData) (policy : Option (SecurityPolicy Digest Date)) (asOf : Date)

include hb hc

theorem sensor_fails_iff (hall : ∀ sensorId ∈ sensorIds (verdictData b.toStateData)
      (verdictData c.toStateData),
      Comparable b.toStateData c.toStateData (policyDriftFields policy) sensorId) :
    (∃ sensorId ∈ sensorIds (verdictData b.toStateData) (verdictData c.toStateData),
      (sensorResult policy (activeSuppressionIds (policySuppressions policy) asOf) sensorId
        (madeDelta (verdictData b.toStateData) (verdictData c.toStateData)
          (policyDriftFields policy) sensorId)).status = .fail) ↔
      ∃ finding ∈ unsuppressed policy asOf b.toStateData c.toStateData,
        Forbidden policy finding := by
  have hperm := compared_unsuppressed_perm hb hc policy asOf
  constructor
  · rintro ⟨sensorId, hid, hfail⟩
    obtain ⟨finding, hfinding, hforbidden⟩ :=
      (sensorResult_of_comparable (hall sensorId hid) policy _).2.mp hfail
    have hmem := (hperm sensorId).mem_iff.mp hfinding
    exact ⟨finding, (List.mem_filter.mp hmem).1, hforbidden⟩
  · rintro ⟨finding, hfinding, hforbidden⟩
    have hid := mem_sensorIds_of_new hc (List.mem_filter.mp hfinding).1
    refine ⟨finding.sensorId, hid, ?_⟩
    refine (sensorResult_of_comparable (hall _ hid) policy _).2.mpr ⟨finding, ?_, hforbidden⟩
    exact (hperm _).mem_iff.mpr (List.mem_filter.mpr ⟨hfinding, by simp⟩)

theorem total_added (hall : ∀ sensorId ∈ sensorIds (verdictData b.toStateData)
      (verdictData c.toStateData),
      Comparable b.toStateData c.toStateData (policyDriftFields policy) sensorId) :
    ((sensorIds (verdictData b.toStateData) (verdictData c.toStateData)).map fun sensorId =>
      (sensorResult policy (activeSuppressionIds (policySuppressions policy) asOf) sensorId
        (madeDelta (verdictData b.toStateData) (verdictData c.toStateData)
          (policyDriftFields policy) sensorId)).added.length).sum =
      (unsuppressed policy asOf b.toStateData c.toStateData).length := by
  rw [← sum_length_groups (·.sensorId) (sensorIds_nodup (verdictData b.toStateData)
    (verdictData c.toStateData)) (unsuppressed policy asOf b.toStateData c.toStateData)
    fun finding hfinding => mem_sensorIds_of_new hc (List.mem_filter.mp hfinding).1]
  refine congrArg List.sum (List.map_congr_left fun sensorId hid => ?_)
  rw [(sensorResult_of_comparable (hall sensorId hid) policy _).1]
  exact (compared_unsuppressed_perm hb hc policy asOf sensorId).length_eq

omit hb hc in
theorem evaluateDelta_partition :
    ∀ sensor ∈ (evaluateDelta policy asOf (madeSecurityDelta (verdictData b.toStateData)
        (verdictData c.toStateData) (policyDriftFields policy))).sensors,
      ∃ perSensor, (madeSecurityDelta (verdictData b.toStateData) (verdictData c.toStateData)
          (policyDriftFields policy)).deltasBySensor.get? sensor.sensorId = some perSensor ∧
        (sensor.suppressed ++ sensor.added).Perm perSensor.added ∧
        (∀ finding ∈ sensor.suppressed, Covered policy asOf finding) ∧
        ∀ finding ∈ sensor.added, ¬ Covered policy asOf finding := by
  intro sensor hsensor
  rw [evaluateDelta_sensors] at hsensor
  obtain ⟨sensorId, hid, rfl⟩ := List.mem_map.mp hsensor
  refine ⟨madeDelta (verdictData b.toStateData) (verdictData c.toStateData)
    (policyDriftFields policy) sensorId, ?_, ?_⟩
  · rw [← mem_entries_iff, entries_madeSecurityDelta]
    refine List.mem_map.mpr ⟨sensorId, hid, ?_⟩
    unfold sensorResult
    split <;> rfl
  · by_cases hcomparable : Comparable b.toStateData c.toStateData (policyDriftFields policy) sensorId
    · have hstatus : (madeDelta (verdictData b.toStateData) (verdictData c.toStateData)
          (policyDriftFields policy) sensorId).status ≠ .unknown := fun hunknown =>
        madeDelta_status_unknown.mp hunknown hcomparable
      rw [sensorResult, if_neg hstatus]
      refine ⟨?_, ?_, ?_⟩
      · simpa using List.filter_append_perm (fun finding : SecurityFinding digest =>
          decide (finding.canonicalId ∈ activeSuppressionIds (policySuppressions policy) asOf)) _
      · exact fun finding hfinding =>
          mem_activeSuppressionIds.mp (of_decide_eq_true (List.mem_filter.mp hfinding).2)
      · intro finding hfinding hcovered
        exact of_decide_eq_true (List.mem_filter.mp hfinding).2
          (mem_activeSuppressionIds.mpr hcovered)
    · rw [sensorResult, if_pos (madeDelta_status_unknown.mpr hcomparable),
        madeDelta_of_not_comparable hcomparable]
      simp

theorem evaluateDelta_spec :
    EvaluationSpec policy asOf b c (evaluateDelta policy asOf
      (madeSecurityDelta (verdictData b.toStateData) (verdictData c.toStateData)
        (policyDriftFields policy))) := by
  have hsensors := evaluateDelta_sensors policy asOf (verdictData b.toStateData)
    (verdictData c.toStateData) (policyDriftFields policy)
  have hpartition := evaluateDelta_partition (b := b) (c := c) policy asOf
  set result := evaluateDelta policy asOf (madeSecurityDelta (verdictData b.toStateData)
    (verdictData c.toStateData) (policyDriftFields policy)) with hresult
  have hstatus := evaluateDelta_status policy asOf (madeSecurityDelta (verdictData b.toStateData)
    (verdictData c.toStateData) (policyDriftFields policy))
  rw [← hresult] at hstatus
  have hunknown : result.status = .unknown ↔
      SomeIncomparable b.toStateData c.toStateData (policyDriftFields policy) := by
    rw [hstatus, aggregateStatus_eq_unknown, List.mem_append, hsensors, someIncomparable_iff]
    simp only [List.mem_map, exists_exists_and_eq_and, sensorResult_status]
    refine or_iff_left ?_
    split <;> simp
  have hfail : ¬ SomeIncomparable b.toStateData c.toStateData (policyDriftFields policy) →
      (result.status = .fail ↔ Violated policy asOf b.toStateData c.toStateData) := by
    intro hnone
    have hall : ∀ sensorId ∈ sensorIds (verdictData b.toStateData) (verdictData c.toStateData),
        Comparable b.toStateData c.toStateData (policyDriftFields policy) sensorId := by
      simpa [someIncomparable_iff] using hnone
    have hknown : .unknown ∉ result.sensors.map (·.status) ++
        if violatesGlobalCountPolicy policy (result.sensors.map (·.added.length)).sum
          then [.fail] else [] := by
      rw [← aggregateStatus_eq_unknown, ← hstatus, hunknown]
      exact hnone
    rw [hstatus, aggregateStatus_eq_fail, and_iff_right hknown, List.mem_append, hsensors]
    simp only [List.map_map, Function.comp_def, List.mem_map]
    rw [sensor_fails_iff hb hc policy asOf hall, total_added hb hc policy asOf hall, Violated]
    refine or_congr_right ?_
    unfold violatesGlobalCountPolicy
    cases maxAddedCount policy with
    | none => simp
    | some maxCount => by_cases h : maxCount <
        (unsuppressed policy asOf b.toStateData c.toStateData).length <;> simp [h]
  refine ⟨hunknown, ?_, ?_, _, computeSecurityDelta_eq_ok hb hc _, hpartition⟩
  · by_cases hnone : SomeIncomparable b.toStateData c.toStateData (policyDriftFields policy)
    · simp [hnone, hunknown.mpr hnone]
    · simp [hnone, hfail hnone]
  · by_cases hnone : SomeIncomparable b.toStateData c.toStateData (policyDriftFields policy)
    · simp [hnone, hunknown.mpr hnone]
    · have hne : result.status ≠ .unknown := fun h => hnone (hunknown.mp h)
      have hfails := hfail hnone
      cases hs : result.status with
      | pass => simp_all
      | fail => simp_all
      | unknown => exact absurd hs hne

end Clean

/-! ### Moving the policy and the date -/

/-- The status `after` does not improve on `before`, and both are unknown or none is. -/
def NoBetter (before after : SecurityDeltaStatus) : Prop :=
  (after = .unknown ↔ before = .unknown) ∧ (before = .fail → after = .fail)

omit [LinearOrder Digest] in
theorem unsuppressed_length_le {b c : StateData digest} [LinearOrder Digest]
    {policy policy' : Option (SecurityPolicy Digest Date)} {asOf asOf' : Date}
    (hcovered : ∀ finding : SecurityFinding digest,
      Covered policy' asOf' finding → Covered policy asOf finding) :
    (unsuppressed policy asOf b c).length ≤ (unsuppressed policy' asOf' b c).length := by
  refine (List.monotone_filter_right _ fun finding h => ?_).length_le
  simp only [decide_eq_true_eq] at h ⊢
  exact fun h' => h (hcovered finding h')

/-- Less cover, more forbidden findings and a smaller bound keep a violation. -/
theorem Violated.mono {b c : StateData digest}
    {policy policy' : Option (SecurityPolicy Digest Date)} {asOf asOf' : Date}
    (h : Violated policy asOf b c)
    (hcovered : ∀ finding : SecurityFinding digest,
      Covered policy' asOf' finding → Covered policy asOf finding)
    (hforbidden : ∀ finding : SecurityFinding digest,
      Forbidden policy finding → Forbidden policy' finding)
    (hmax : ∀ m, maxAddedCount policy = some m → ∃ m' ≤ m, maxAddedCount policy' = some m') :
    Violated policy' asOf' b c := by
  rcases h with ⟨finding, hfinding, hbad⟩ | ⟨m, hm, hlt⟩
  · refine Or.inl ⟨finding, ?_, hforbidden finding hbad⟩
    obtain ⟨hnew, huncovered⟩ := List.mem_filter.mp hfinding
    refine List.mem_filter.mpr ⟨hnew, decide_eq_true fun h' => ?_⟩
    exact of_decide_eq_true huncovered (hcovered finding h')
  · obtain ⟨m', hle, hm'⟩ := hmax m hm
    have hlength := unsuppressed_length_le (b := b) (c := c) hcovered
    exact Or.inr ⟨m', hm', by omega⟩

theorem EvaluationSpec.noBetter {b c : SensorState digest}
    {policy policy' : Option (SecurityPolicy Digest Date)} {asOf asOf' : Date}
    {result result' : SecuritySuiteResult digest Date}
    (h : EvaluationSpec policy asOf b c result) (h' : EvaluationSpec policy' asOf' b c result')
    (hdrift : policyDriftFields policy' = policyDriftFields policy)
    (hviolated : Violated policy asOf b.toStateData c.toStateData →
      Violated policy' asOf' b.toStateData c.toStateData) :
    NoBetter result.status result'.status := by
  constructor
  · rw [h'.unknown_iff, h.unknown_iff, hdrift]
  · intro hfail
    obtain ⟨hknown, hbad⟩ := h.fail_iff.mp hfail
    exact h'.fail_iff.mpr ⟨by rwa [hdrift], hviolated hbad⟩

def ValidSuppressions (digest : List Component → Digest)
    (policy : Option (SecurityPolicy Digest Date)) : Prop :=
  ∀ suppression ∈ policySuppressions policy,
    canonicalIdForIdentity digest suppression.identityComponents = .ok suppression.canonicalId

omit [LinearOrder Date] in
theorem validateSuppressions_eq_ok_iff {suppressions : List (Suppression Digest Date)} :
    validateSuppressions digest suppressions = .ok () ↔ ∀ suppression ∈ suppressions,
      canonicalIdForIdentity digest suppression.identityComponents =
        .ok suppression.canonicalId := by
  rw [validateSuppressions, forM_eq_ok_iff]
  refine forall₂_congr fun suppression _ => ?_
  rw [bind_eq_ok_iff]
  constructor
  · rintro ⟨expected, hexpected, hsame⟩
    by_cases hid : suppression.canonicalId = expected
    · rw [hexpected, hid]
    · rw [if_pos hid] at hsame
      cases hsame
  · intro h
    exact ⟨_, h, by simp⟩

theorem evaluateSecurityDetail_eq_ok {b c : SensorState digest}
    (hb : VerdictOnly b.toStateData) (hc : VerdictOnly c.toStateData)
    {policy : Option (SecurityPolicy Digest Date)} (hvalid : ValidSuppressions digest policy)
    (asOf : Date) :
    evaluateSecurityDetail policy b c asOf = .ok (evaluateDelta policy asOf
      (madeSecurityDelta (verdictData b.toStateData) (verdictData c.toStateData)
        (policyDriftFields policy))) := by
  rw [evaluateSecurityDetail, validateSuppressions_eq_ok_iff.mpr hvalid, ok_bind,
    computeSecurityDelta_eq_ok hb hc, ok_bind]
  rfl

theorem validSuppressions_of_ok {b c : SensorState digest}
    {policy : Option (SecurityPolicy Digest Date)} {asOf : Date}
    {result : SecuritySuiteResult digest Date}
    (h : evaluateSecurityDetail policy b c asOf = .ok result) :
    ValidSuppressions digest policy := by
  obtain ⟨_, hvalid, -⟩ := bind_eq_ok_iff.mp h
  exact validateSuppressions_eq_ok_iff.mp hvalid

theorem spec_of_ok {b c : SensorState digest} (hb : VerdictOnly b.toStateData)
    (hc : VerdictOnly c.toStateData) {policy : Option (SecurityPolicy Digest Date)} {asOf : Date}
    {result : SecuritySuiteResult digest Date}
    (h : evaluateSecurityDetail policy b c asOf = .ok result) :
    EvaluationSpec policy asOf b c result := by
  rw [evaluateSecurityDetail_eq_ok hb hc (validSuppressions_of_ok h), Except.ok.injEq] at h
  exact h ▸ evaluateDelta_spec hb hc policy asOf

/-- A policy with another bound on the number of added findings. -/
def withMaxCount (policy : SecurityPolicy Digest Date) (maxCount : ℕ) :
    SecurityPolicy Digest Date :=
  { policy with
    findings := some { added := some {
      severity := (policy.findings.bind (·.added)).bind (·.severity)
      maxCount := some maxCount } } }

/-- How the status moves with the suppressions, the date, the denied rules and the bound. -/
structure MonotoneSpec (b c : SensorState digest) (Date : Type) [LinearOrder Date] : Prop where
  suppress : ∀ (policy : SecurityPolicy Digest Date) before suppression after asOf result result',
    policy.suppressions = before ++ after →
    evaluateSecurityDetail (some policy) b c asOf = .ok result →
    evaluateSecurityDetail (some { policy with suppressions := before ++ suppression :: after })
      b c asOf = .ok result' →
    NoBetter result'.status result.status
  expired : ∀ (policy : SecurityPolicy Digest Date) before suppression after asOf,
    policy.suppressions = before ++ after →
    ValidSuppressions digest
      (some { policy with suppressions := before ++ suppression :: after }) →
    suppression.expires < asOf →
    evaluateSecurityDetail (some { policy with suppressions := before ++ suppression :: after })
      b c asOf = evaluateSecurityDetail (some policy) b c asOf
  later : ∀ (policy : Option (SecurityPolicy Digest Date)) asOf later result result',
    asOf ≤ later →
    evaluateSecurityDetail policy b c asOf = .ok result →
    evaluateSecurityDetail policy b c later = .ok result' →
    NoBetter result.status result'.status
  deny : ∀ (policy : SecurityPolicy Digest Date) before rule after asOf result result',
    deniedRules (some policy) = before ++ after →
    evaluateSecurityDetail (some policy) b c asOf = .ok result →
    evaluateSecurityDetail
      (some { policy with rules := some { denyAdded := before ++ rule :: after } })
      b c asOf = .ok result' →
    NoBetter result.status result'.status
  lower : ∀ (policy : SecurityPolicy Digest Date) maxCount asOf result result',
    (∀ m, maxAddedCount (some policy) = some m → maxCount ≤ m) →
    evaluateSecurityDetail (some policy) b c asOf = .ok result →
    evaluateSecurityDetail (some (withMaxCount policy maxCount)) b c asOf = .ok result' →
    NoBetter result.status result'.status

omit [LinearOrder Digest] [LinearOrder Date] in
theorem mem_with_suppression {policy : SecurityPolicy Digest Date}
    {before after : List (Suppression Digest Date)} (h : policy.suppressions = before ++ after)
    {suppression other : Suppression Digest Date}
    (hother : other ∈ policySuppressions (some policy)) :
    other ∈ policySuppressions
      (some { policy with suppressions := before ++ suppression :: after }) := by
  have hmem : other ∈ before ++ after := h ▸ hother
  change other ∈ before ++ suppression :: after
  simp only [List.mem_append, List.mem_cons] at hmem ⊢
  tauto

theorem evaluateDelta_expired {delta : SecurityDelta digest} {policy : SecurityPolicy Digest Date}
    {before after : List (Suppression Digest Date)} (h : policy.suppressions = before ++ after)
    {suppression : Suppression Digest Date} {asOf : Date} (hexpired : suppression.expires < asOf) :
    evaluateDelta (some { policy with suppressions := before ++ suppression :: after }) asOf delta =
      evaluateDelta (some policy) asOf delta := by
  have hactive : activeSuppressionIds (policySuppressions
      (some { policy with suppressions := before ++ suppression :: after })) asOf =
        activeSuppressionIds (policySuppressions (some policy)) asOf := by
    simp only [policySuppressions, activeSuppressionIds, h]
    simp [not_le.mpr hexpired]
  unfold evaluateDelta
  rw [hactive]
  rfl

omit [LinearOrder Digest] [LinearOrder Date] in
theorem maxAddedCount_withMaxCount (policy : SecurityPolicy Digest Date) (maxCount : ℕ) :
    maxAddedCount (some (withMaxCount policy maxCount)) = some maxCount := rfl

omit [LinearOrder Digest] [LinearOrder Date] in
theorem effectiveFailSeverities_withMaxCount (policy : SecurityPolicy Digest Date)
    (maxCount : ℕ) : effectiveFailSeverities (some (withMaxCount policy maxCount)) =
      effectiveFailSeverities (some policy) := by
  simp only [effectiveFailSeverities, withMaxCount, Option.bind_some]
  cases policy.findings with
  | none => rfl
  | some findings =>
    cases hadded : findings.added with
    | none => simp [hadded]
    | some added => simp [hadded]

theorem evaluation_monotone {b c : SensorState digest} (hb : VerdictOnly b.toStateData)
    (hc : VerdictOnly c.toStateData) : MonotoneSpec b c Date where
  suppress := by
    intro policy before suppression after asOf result result' h hok hok'
    refine (spec_of_ok hb hc hok').noBetter (spec_of_ok hb hc hok) rfl fun hviolated =>
      hviolated.mono ?_ (fun _ => id) fun m hm => ⟨m, le_rfl, hm⟩
    rintro finding ⟨other, hother, hactive, hid⟩
    exact ⟨other, mem_with_suppression h hother, hactive, hid⟩
  expired := by
    intro policy before suppression after asOf h hvalid hexpired
    have hvalid' : ValidSuppressions digest (some policy) := fun other hother =>
      hvalid other (mem_with_suppression h hother)
    rw [evaluateSecurityDetail_eq_ok hb hc hvalid, evaluateSecurityDetail_eq_ok hb hc hvalid',
      evaluateDelta_expired h hexpired]
    rfl
  later := by
    intro policy asOf later result result' hle hok hok'
    refine (spec_of_ok hb hc hok).noBetter (spec_of_ok hb hc hok') rfl fun hviolated =>
      hviolated.mono ?_ (fun _ => id) fun m hm => ⟨m, le_rfl, hm⟩
    rintro finding ⟨suppression, hmem, hactive, hid⟩
    exact ⟨suppression, hmem, hle.trans hactive, hid⟩
  deny := by
    intro policy before rule after asOf result result' h hok hok'
    refine (spec_of_ok hb hc hok).noBetter (spec_of_ok hb hc hok') rfl fun hviolated =>
      hviolated.mono (fun _ => id) ?_ fun m hm => ⟨m, le_rfl, hm⟩
    rintro finding (hseverity | hdenied)
    · exact Or.inl hseverity
    · refine Or.inr ?_
      rw [h] at hdenied
      cases finding with
      | sast f =>
        simp only [SecurityFinding.isDenied, List.mem_append, decide_eq_true_eq] at hdenied
        simp only [SecurityFinding.isDenied, deniedRules, Option.bind_some, List.mem_append,
          List.mem_cons, decide_eq_true_eq]
        tauto
      | sca f => cases hdenied
      | llm f => cases hdenied
  lower := by
    intro policy maxCount asOf result result' hlower hok hok'
    refine (spec_of_ok hb hc hok).noBetter (spec_of_ok hb hc hok') rfl fun hviolated =>
      hviolated.mono (fun _ => id) ?_ fun m hm =>
        ⟨maxCount, hlower m hm, maxAddedCount_withMaxCount policy maxCount⟩
    intro finding hforbidden
    rwa [Forbidden, effectiveFailSeverities_withMaxCount]

/-- For states without advisory findings every policy with valid suppressions is evaluated, to
the status its spec says, and the status moves one way with the policy and the date. -/
theorem evaluateSecurityDetail_semantics {b c : SensorState digest}
    (hb : ¬ HasAdvisoryFinding b.toStateData) (hc : ¬ HasAdvisoryFinding c.toStateData) :
    (∀ (policy : Option (SecurityPolicy Digest Date)) (asOf : Date),
      ValidSuppressions digest policy → ∃ result,
        evaluateSecurityDetail policy b c asOf = .ok result ∧
          EvaluationSpec policy asOf b c result) ∧
    MonotoneSpec b c Date := by
  rw [← verdictOnly_iff] at hb hc
  exact ⟨fun policy asOf hvalid => ⟨_, evaluateSecurityDetail_eq_ok hb hc hvalid asOf,
    evaluateDelta_spec hb hc policy asOf⟩, evaluation_monotone hb hc⟩

end Evaluation

/-! ### A suppressed finding -/

theorem execScan_verdictOnly : VerdictOnly execScan.toStateData :=
  (verdictOnly_iff_provenance execScan.wellFormed).mpr (by decide +kernel)

theorem reviewedScan_verdictOnly : VerdictOnly reviewedScan.toStateData :=
  (verdictOnly_iff_provenance reviewedScan.wellFormed).mpr (by decide +kernel)

/-- High findings fail, except the call of `eval` until day 10. -/
def suppressEval : SecurityPolicy (List Component) ℕ where
  findings := some { added := some { severity := some { notIn := [.critical, .high] } } }
  suppressions := [⟨evalFinding.canonicalId, evalFinding.identityComponents, 10⟩]

theorem evaluateSecurityDetail_suppressEval :
    (evaluateSecurityDetail (some suppressEval) execScan reviewedScan 10).toOption.map (·.status) =
      some .pass ∧
    (evaluateSecurityDetail (some suppressEval) execScan reviewedScan 11).toOption.map (·.status) =
      some .fail ∧
    (∀ (policy : Option (SecurityPolicy (List Component) ℕ)) (asOf : ℕ),
      ValidSuppressions id policy → ∃ result,
        evaluateSecurityDetail policy execScan reviewedScan asOf = .ok result ∧
          EvaluationSpec policy asOf execScan reviewedScan result) ∧
    MonotoneSpec execScan reviewedScan ℕ := by
  refine ⟨by decide +kernel, by decide +kernel, ?_⟩
  exact evaluateSecurityDetail_semantics (verdictOnly_iff.mp execScan_verdictOnly)
    (verdictOnly_iff.mp reviewedScan_verdictOnly)

/-! ### A static finding of an advisory sensor -/

/-- A state whose only finding is a static one of an advisory sensor. -/
def mixedSensor : SensorState (id : List Component → List Component) where
  provenanceBySensor := ofPairs [("llm-review", advisoryProvenance)]
  findings := [.sast (staticFinding "llm-review" "python.eval" "eval(x)" reviewId_ne evalRuleId_ne)]
  valid := by decide +kernel

/-- It holds no LLM finding, and its evaluation raises. -/
theorem mixedSensor_raises :
    (∀ finding ∈ mixedSensor.findings, finding.isLlm = false) ∧
      evaluateSecurityDetail (none : Option (SecurityPolicy _ ℕ)) noSensors mixedSensor 0 =
        .error .mixedFindings :=
  ⟨by decide, by rfl⟩

end SemanticCi.Sensor
