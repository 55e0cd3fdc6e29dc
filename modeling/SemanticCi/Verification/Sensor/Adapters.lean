import Mathlib.Data.List.Find
import SemanticCi.Model.SensorAdapters
import SemanticCi.Verification.Sensor.Policy
import SemanticCi.Verification.Ssp.Counts

/-! The delta of adapted sensor states agrees with the delta of the scans. -/

namespace SemanticCi.Sensor

open ExceptRules OrderedDict Ssp

variable {Digest : Type} {digest : List Component → Digest}

/-! ### Identities on both sides -/

/-- The finding that an adapter makes of a scanned one. -/
def securityFinding (digest : List Component → Digest) (sensorId : String)
    (sensorId_ne : sensorId ≠ "") : Finding Digest → SecurityFinding digest
  | .sast f => .sast (findingFromSast digest sensorId sensorId_ne f)
  | .sca f => .sca (findingFromSca digest sensorId sensorId_ne f)

@[simp] theorem securityFinding_sensorId (sensorId : String) (hne : sensorId ≠ "")
    (f : Finding Digest) : (securityFinding digest sensorId hne f).sensorId = sensorId := by
  cases f <;> rfl

@[simp] theorem securityFinding_severity (sensorId : String) (hne : sensorId ≠ "")
    (f : Finding Digest) : (securityFinding digest sensorId hne f).severity = f.severity := by
  cases f <;> rfl

@[simp] theorem securityFinding_isLlm (sensorId : String) (hne : sensorId ≠ "")
    (f : Finding Digest) : (securityFinding digest sensorId hne f).isLlm = false := by
  cases f <;> rfl

theorem toString_inj {m n : ℕ} : toString m = toString n ↔ m = n := by
  refine ⟨fun h => ?_, fun h => h ▸ rfl⟩
  have hdigits := congrArg (fun text => Nat.ofDigitChars 10 text.toList 0) h
  simpa using hdigits

section Identities

variable {sensorId : String} {hne : sensorId ≠ ""} (hdigest : Function.Injective digest)

include hdigest

theorem sast_canonicalId_eq_iff {f f' : SASTFinding Digest} {j k : ℕ} (hj : f.ordinal = some j)
    (hk : f'.ordinal = some k) :
    (securityFinding digest sensorId hne (.sast f)).canonicalId =
        (securityFinding digest sensorId hne (.sast f')).canonicalId ↔
      sastGroupKey f = sastGroupKey f' ∧ j = k := by
  simp only [securityFinding, SecurityFinding.canonicalId, findingFromSast, hj, hk,
    Option.getD_some, f.modulePath_posix, f'.modulePath_posix, EmbeddingLike.apply_eq_iff_eq,
    Prod.mk.injEq, true_and, hdigest.eq_iff, sastGroupKey, SastGroup.mk.injEq]
  simp only [List.map_cons, List.map_nil, List.cons.injEq, Sum.inlₗ,
    EmbeddingLike.apply_eq_iff_eq, Sum.inl.injEq, toString_inj]
  tauto

theorem sca_canonicalId_eq_iff {f f' : SCAFinding Digest} :
    (securityFinding digest sensorId hne (.sca f)).canonicalId =
        (securityFinding digest sensorId hne (.sca f')).canonicalId ↔
      advisoryKey f = advisoryKey f' := by
  simp only [securityFinding, SecurityFinding.canonicalId, findingFromSca,
    EmbeddingLike.apply_eq_iff_eq, Prod.mk.injEq, true_and, hdigest.eq_iff, advisoryKey,
    Advisory.mk.injEq]
  simp only [List.map_cons, List.map_nil, List.cons.injEq, Sum.inlₗ,
    EmbeddingLike.apply_eq_iff_eq, Sum.inl.injEq]
  tauto

theorem sast_sca_canonicalId_ne (f : SASTFinding Digest) (f' : SCAFinding Digest) :
    (securityFinding digest sensorId hne (.sast f)).canonicalId ≠
      (securityFinding digest sensorId hne (.sca f')).canonicalId := by
  intro h
  have hlist := hdigest (Prod.mk.inj (toLex.injective h)).2
  have hlength := congrArg List.length hlist
  simp at hlength

/-- Two fingerprinted findings have one canonical id when they have one fingerprint. -/
theorem canonicalId_eq_iff {bs cs : List (Finding Digest)} {f f' : Finding Digest}
    (hf : f ∈ sideFindings digest bs) (hf' : f' ∈ sideFindings digest cs) :
    (securityFinding digest sensorId hne f).canonicalId =
        (securityFinding digest sensorId hne f').canonicalId ↔ f.fingerprint = f'.fingerprint := by
  rcases side_fingerprint digest hf with ⟨s, rfl, j, -, hj, hfp⟩ | ⟨s, rfl, -, hfp⟩ <;>
    rcases side_fingerprint digest hf' with ⟨s', rfl, k, -, hk, hfp'⟩ | ⟨s', rfl, -, hfp'⟩
  · rw [sast_canonicalId_eq_iff hdigest hj hk, hfp, hfp', Option.some.injEq,
      groupFingerprint_inj hdigest]
  · rw [hfp, hfp', Option.some.injEq]
    exact iff_of_false (sast_sca_canonicalId_ne hdigest s s')
      (groupFingerprint_ne_advisory hdigest _ _ _)
  · rw [hfp, hfp', Option.some.injEq]
    exact iff_of_false (sast_sca_canonicalId_ne hdigest s' s).symm
      (groupFingerprint_ne_advisory hdigest _ _ _).symm
  · rw [sca_canonicalId_eq_iff hdigest, hfp, hfp', Option.some.injEq,
      advisoryFingerprint_inj hdigest]

end Identities

/-! ### The findings of a side -/

section Sides

variable [LinearOrder Digest]

omit [LinearOrder Digest] in
theorem find?_keyed [DecidableEq Digest] (findings : List (Finding Digest)) (fp : Digest) :
    (keyed findings).find? (fun item => item.1 = fp) =
      (findings.find? fun f => f.fingerprint = some fp).map fun f => (fp, f) := by
  rw [keyed, List.find?_filterMap]
  have hcongr : findings.find? (fun f => (f.fingerprint.map fun fingerprint =>
      (fingerprint, f)).any fun item => item.1 = fp) =
        findings.find? fun f => f.fingerprint = some fp := by
    refine List.find?_congr fun f _ => ?_
    cases f.fingerprint <;> simp
  rw [hcongr]
  cases hfind : findings.find? fun f => f.fingerprint = some fp with
  | none => rfl
  | some f =>
    have hfp : f.fingerprint = some fp := by simpa using List.find?_some hfind
    simp [hfp]

theorem mem_addedFindings {bs cs : List (Finding Digest)} {f : Finding Digest} :
    f ∈ addedFindings digest bs cs ↔ ∃ fp, f.fingerprint = some fp ∧
      fp ∉ (sideDict digest bs).keys ∧
      (sideFindings digest cs).find? (fun g => g.fingerprint = some fp) = some f := by
  rw [addedFindings, List.mem_map]
  constructor
  · rintro ⟨⟨fp, f⟩, hitem, rfl⟩
    obtain ⟨hmissing, hfind⟩ := (mem_missingValues_indexBy _ _ _ _).mp hitem
    have hfp := (mem_keyed.mp (List.mem_of_find?_eq_some hfind)).2
    rw [find?_keyed] at hfind
    obtain ⟨g, hg, hpair⟩ := Option.map_eq_some_iff.mp hfind
    obtain rfl : g = f := (Prod.mk.inj hpair).2
    exact ⟨fp, hfp, hmissing, hg⟩
  · rintro ⟨fp, -, hmissing, hfind⟩
    refine ⟨(fp, f), (mem_missingValues_indexBy _ _ _ _).mpr ⟨hmissing, ?_⟩, rfl⟩
    rw [find?_keyed, hfind]
    rfl

/-- The added findings are those of the candidate under fingerprints of the candidate alone. -/
theorem mem_addedFindings_iff {bs cs : List (Finding Digest)} {f : Finding Digest} :
    f ∈ addedFindings digest bs cs ↔ f ∈ addedFindings digest [] cs ∧
      ∀ g ∈ addedFindings digest [] bs, g.fingerprint ≠ f.fingerprint := by
  have hempty : (sideDict digest ([] : List (Finding Digest))).keys = [] := rfl
  have hkeys : ∀ fp, fp ∈ (sideDict digest bs).keys ↔
      ∃ g ∈ addedFindings digest [] bs, g.fingerprint = some fp := by
    intro fp
    have hmap := @addedFindings_fingerprints _ digest _ [] bs
    rw [← List.mem_map_of_injective (Option.some_injective Digest)
      (l := (sideDict digest bs).keys)]
    have hall : ∀ k, k ∈ sortedMissingKeys (sideDict digest bs)
        (sideDict digest ([] : List (Finding Digest))) ↔ k ∈ (sideDict digest bs).keys := by
      simp [hempty]
    rw [List.mem_map_of_injective (Option.some_injective Digest), ← hall,
      ← List.mem_map_of_injective (Option.some_injective Digest), ← hmap, List.mem_map]
  rw [mem_addedFindings, mem_addedFindings]
  constructor
  · rintro ⟨fp, hfp, hmissing, hfind⟩
    refine ⟨⟨fp, hfp, by simp [hempty], hfind⟩, fun g hg heq => hmissing ?_⟩
    exact (hkeys fp).mpr ⟨g, hg, heq.trans hfp⟩
  · rintro ⟨⟨fp, hfp, -, hfind⟩, hmissing⟩
    refine ⟨fp, hfp, fun hmem => ?_, hfind⟩
    obtain ⟨g, hg, hgfp⟩ := (hkeys fp).mp hmem
    exact hmissing g hg (hgfp.trans hfp.symm)

variable {sensorId : String} {hne : sensorId ≠ ""} (hdigest : Function.Injective digest)

include hdigest

/-- The distinct canonical ids of a side name its distinct fingerprints. -/
theorem distinct_perm (findings : List (Finding Digest)) :
    (indexBy (·.canonicalId) ((sideFindings digest findings).map
      (securityFinding digest sensorId hne))).values.Perm
        ((addedFindings digest [] findings).map (securityFinding digest sensorId hne)) := by
  have hinj : ∀ f ∈ addedFindings digest [] findings, ∀ g ∈ addedFindings digest [] findings,
      securityFinding digest sensorId hne f = securityFinding digest sensorId hne g → f = g := by
    intro f hf g hg heq
    have hids := congrArg SecurityFinding.canonicalId heq
    rw [canonicalId_eq_iff hdigest (mem_side_of_added hf) (mem_side_of_added hg)] at hids
    have hnodup : ((addedFindings digest [] findings).map Finding.fingerprint).Nodup := by
      rw [addedFindings_fingerprints]
      exact (nodup_sortedMissingKeys _ _).map (Option.some_injective Digest)
    exact List.inj_on_of_nodup_map hnodup hf hg hids
  rw [List.perm_ext_iff_of_nodup (List.Nodup.of_map _ (nodup_values_indexBy _ _))
    ((addedFindings_nodup [] findings).map_on hinj)]
  intro finding
  rw [mem_values_indexBy, List.find?_map, Option.map_eq_some_iff, List.mem_map]
  refine exists_congr fun f => ?_
  rw [and_congr_left_iff]
  rintro rfl
  rw [mem_addedFindings]
  constructor
  · intro hfind
    have hmem := List.mem_of_find?_eq_some hfind
    obtain ⟨fp, hfp⟩ := Option.isSome_iff_exists.mp (side_fingerprint_isSome digest hmem)
    refine ⟨fp, hfp, List.not_mem_nil, ?_⟩
    rw [← hfind]
    refine List.find?_congr fun g hg => ?_
    simp only [Function.comp_apply, canonicalId_eq_iff hdigest hg hmem, hfp]
  · rintro ⟨fp, hfp, -, hfind⟩
    have hmem := List.mem_of_find?_eq_some hfind
    rw [← hfind]
    refine List.find?_congr fun g hg => ?_
    simp only [Function.comp_apply, canonicalId_eq_iff hdigest hg hmem, hfp]

end Sides

/-! ### Adapted states -/

inductive Scanner
  | semgrep
  | pipAudit
deriving DecidableEq

/-- The findings that a scanner reports. -/
def Scanner.Reports : Scanner → Finding Digest → Prop
  | semgrep, .sast _ => True
  | pipAudit, .sca _ => True
  | _, _ => False

def Scanner.provenance : Scanner → SensorOutput Digest → SensorSpec → SensorProvenance
  | semgrep => provenanceFromSemgrep
  | pipAudit => provenanceFromPipAudit

section States

variable [LinearOrder Digest]

def Scanner.sensorState (digest : List Component → Digest) :
    Scanner → SensorOutput Digest → SensorSpec → Except ModelError (SensorState digest)
  | semgrep => sensorStateFromSemgrepScan digest
  | pipAudit => sensorStateFromPipAuditScan digest

/-- A state that holds one complete scan under its provenance. -/
structure HoldsScan (state : SensorState digest) (provenance : SensorProvenance)
    (sensorId : String) (hne : sensorId ≠ "") (findings : List (Finding Digest)) : Prop where
  entries : state.provenanceBySensor.entries = [(sensorId, provenance)]
  complete : provenance.status = .complete
  reproducible : provenance.nonReproducible = false
  findings : state.findings.Perm
    ((addedFindings digest [] findings).map (securityFinding digest sensorId hne))

/-- Distinct findings of one complete sensor make a state. -/
theorem build_singleSensorState {sensorId : String} {provenance : SensorProvenance}
    (hid : provenance.sensorId = sensorId) (hstatus : provenance.status = .complete)
    {found : List (SecurityFinding digest)}
    (hsensor : ∀ finding ∈ found, finding.sensorId = sensorId)
    (hnodup : (found.map (·.canonicalId)).Nodup) :
    ∃ state, (singleSensorState digest sensorId provenance
        (sortByCanonicalId digest found)).build = .ok state ∧
      state.provenanceBySensor.entries = [(sensorId, provenance)] ∧
      state.findings.Perm found := by
  have hperm : (sortByCanonicalId digest found).Perm found := List.perm_insertionSort _ _
  have hentries : (ofPairs [(sensorId, provenance)]).entries = [(sensorId, provenance)] :=
    entries_ofPairs (by simp)
  have hsorted : ((sortByCanonicalId digest found).map (·.canonicalId)).Pairwise (· < ·) := by
    have hle : (sortByCanonicalId digest found).Pairwise fun a b =>
        a.canonicalId ≤ b.canonicalId := by
      have : IsTrans (SecurityFinding digest) fun a b => a.canonicalId ≤ b.canonicalId :=
        ⟨fun _ _ _ => le_trans⟩
      have : Std.Total fun a b : SecurityFinding digest => a.canonicalId ≤ b.canonicalId :=
        ⟨fun _ _ => le_total _ _⟩
      exact List.pairwise_insertionSort _ _
    exact (List.pairwise_map.mpr hle).imp₂ (fun _ _ => lt_of_le_of_ne)
      ((hperm.map _).nodup_iff.mpr hnodup)
  have hwell : (singleSensorState digest sensorId provenance
      (sortByCanonicalId digest found)).WellFormed := by
    refine ⟨fun entry hentry => ?_, hsorted, fun finding hfinding => ⟨provenance, ?_, hstatus⟩⟩
    · rw [singleSensorState, hentries, List.mem_singleton] at hentry
      rw [hentry]
      exact hid
    · rw [hsensor finding (hperm.mem_iff.mp hfinding), singleSensorState, ← mem_entries_iff,
        hentries]
      exact List.mem_singleton_self _
  obtain ⟨state, hbuild, hdata⟩ := build_eq_ok hwell
  refine ⟨state, hbuild, ?_, ?_⟩
  · rw [hdata]
    exact hentries
  · rw [hdata]
    exact hperm

omit [LinearOrder Digest] in
theorem provenanceFromOutput_complete (adapterVersion defaultError : String)
    {output : SensorOutput Digest} (h : output.status = .complete) (sensorSpec : SensorSpec) :
    (provenanceFromOutput adapterVersion defaultError output sensorSpec).status = .complete ∧
    (provenanceFromOutput adapterVersion defaultError output sensorSpec).sensorId =
      output.sensorId ∧
    (provenanceFromOutput adapterVersion defaultError output sensorSpec).nonReproducible =
      false := by
  simp [provenanceFromOutput, h]

variable (hdigest : Function.Injective digest)

include hdigest

/-- The distinct findings of a complete scan make a state that holds it. -/
theorem holdsScan_of_found {output : SensorOutput Digest} {provenance : SensorProvenance}
    (hid : provenance.sensorId = output.sensorId) (hcomplete : provenance.status = .complete)
    (hreproducible : provenance.nonReproducible = false) {found : List (SecurityFinding digest)}
    (hfound : (indexBy (·.canonicalId) ((sideFindings digest output.findings).map
      (securityFinding digest output.sensorId output.sensorId_ne))).values = found) :
    ∃ state, (singleSensorState digest output.sensorId provenance
        (sortByCanonicalId digest found)).build = .ok state ∧
      HoldsScan state provenance output.sensorId output.sensorId_ne output.findings := by
  have hperm : found.Perm ((addedFindings digest [] output.findings).map
      (securityFinding digest output.sensorId output.sensorId_ne)) := by
    rw [← hfound]
    exact distinct_perm hdigest output.findings
  have hsensor : ∀ finding ∈ found, finding.sensorId = output.sensorId := by
    intro finding hfinding
    obtain ⟨f, -, rfl⟩ := List.mem_map.mp (hperm.mem_iff.mp hfinding)
    cases f <;> rfl
  have hnodup : (found.map (·.canonicalId)).Nodup := hfound ▸ nodup_values_indexBy _ _
  obtain ⟨state, hbuild, hprovenance, hfindings⟩ :=
    build_singleSensorState hid hcomplete hsensor hnodup
  exact ⟨state, hbuild, hprovenance, hcomplete, hreproducible, hfindings.trans hperm⟩

theorem semgrep_holdsScan {output : SensorOutput Digest} (hstatus : output.status = .complete)
    (honly : ∀ f ∈ output.findings, Scanner.semgrep.Reports f) (sensorSpec : SensorSpec) :
    ∃ state, sensorStateFromSemgrepScan digest output sensorSpec = .ok state ∧
      HoldsScan state (provenanceFromSemgrep output sensorSpec) output.sensorId output.sensorId_ne
        output.findings := by
  obtain ⟨hcomplete, hid, hreproducible⟩ := provenanceFromOutput_complete
    semgrepSensorAdapterVersion "semgrep sensor error" hstatus sensorSpec
  have hsca : scaOf output.findings = [] := by
    rw [scaOf, List.filterMap_eq_nil_iff]
    intro f hf
    cases f with
    | sast s => rfl
    | sca s => exact (honly _ hf).elim
  have hside : (sideFindings digest output.findings).map
      (securityFinding digest output.sensorId output.sensorId_ne) =
        (assignSastOrdinals digest (sastOf output.findings)).map fun f =>
          .sast (findingFromSast digest output.sensorId output.sensorId_ne f) := by
    simp [sideFindings, hsca, Function.comp_def, securityFinding]
  have hnodup : (((assignSastOrdinals digest (sastOf output.findings)).map fun f =>
      SecurityFinding.sast (findingFromSast digest output.sensorId output.sensorId_ne f)).map
        (·.canonicalId)).Nodup := by
    have hidentity := assigned_identity_nodup digest (sastOf output.findings)
    rw [List.map_map]
    refine (List.Nodup.of_map _ hidentity).map_on fun f hf f' hf' heq => ?_
    obtain ⟨j, -, hj, -⟩ := assigned_fingerprint digest hf
    obtain ⟨k, -, hk, -⟩ := assigned_fingerprint digest hf'
    obtain ⟨hgroup, rfl⟩ := (sast_canonicalId_eq_iff hdigest hj hk).mp heq
    exact List.inj_on_of_nodup_map hidentity hf hf' (by rw [hgroup, hj, hk])
  have hfound : (indexBy (·.canonicalId) ((sideFindings digest output.findings).map
      (securityFinding digest output.sensorId output.sensorId_ne))).values =
        (assignSastOrdinals digest (sastOf output.findings)).map fun f =>
          .sast (findingFromSast digest output.sensorId output.sensorId_ne f) := by
    rw [hside, values_indexBy_of_nodup _ hnodup]
  obtain ⟨state, hbuild, hholds⟩ := holdsScan_of_found hdigest hid hcomplete hreproducible hfound
  refine ⟨state, ?_, hholds⟩
  rw [← hbuild, sensorStateFromSemgrepScan]
  exact congrArg (fun findings => StateData.build (singleSensorState digest output.sensorId _
    findings)) (if_neg (not_not_intro hcomplete))

theorem pipAudit_holdsScan {output : SensorOutput Digest} (hstatus : output.status = .complete)
    (honly : ∀ f ∈ output.findings, Scanner.pipAudit.Reports f) (sensorSpec : SensorSpec) :
    ∃ state, sensorStateFromPipAuditScan digest output sensorSpec = .ok state ∧
      HoldsScan state (provenanceFromPipAudit output sensorSpec) output.sensorId
        output.sensorId_ne output.findings := by
  obtain ⟨hcomplete, hid, hreproducible⟩ := provenanceFromOutput_complete
    pipAuditSensorAdapterVersion "pip-audit sensor error" hstatus sensorSpec
  have hsast : sastOf output.findings = [] := by
    rw [sastOf, List.filterMap_eq_nil_iff]
    intro f hf
    cases f with
    | sast s => exact (honly _ hf).elim
    | sca s => rfl
  have hside : (sideFindings digest output.findings).map
      (securityFinding digest output.sensorId output.sensorId_ne) =
        (scaOf output.findings).map fun f =>
          .sca (findingFromSca digest output.sensorId output.sensorId_ne f) := by
    rw [sideFindings, hsast]
    simp only [List.map_append, List.map_map]
    rfl
  obtain ⟨state, hbuild, hholds⟩ := holdsScan_of_found hdigest hid hcomplete hreproducible rfl
  refine ⟨state, ?_, hholds⟩
  rw [← hbuild, hside, sensorStateFromPipAuditScan]
  exact congrArg (fun findings => StateData.build (singleSensorState digest output.sensorId _
    findings)) (if_neg (not_not_intro hcomplete))

/-- Both scanners' states hold what their scan reports. -/
theorem scanner_holdsScan (scanner : Scanner) {output : SensorOutput Digest}
    (hstatus : output.status = .complete) (honly : ∀ f ∈ output.findings, scanner.Reports f)
    (sensorSpec : SensorSpec) :
    ∃ state, scanner.sensorState digest output sensorSpec = .ok state ∧
      HoldsScan state (scanner.provenance output sensorSpec) output.sensorId output.sensorId_ne
        output.findings := by
  cases scanner with
  | semgrep => exact semgrep_holdsScan hdigest hstatus honly sensorSpec
  | pipAudit => exact pipAudit_holdsScan hdigest hstatus honly sensorSpec

/-! ### The two deltas -/

/-- The two engines report the same findings and the same verdict. -/
structure EnginesAgree (sensorId : String) (hne : sensorId ≠ "") (delta : SSPDelta Digest)
    (perSensor : PerSensorDelta digest) : Prop where
  added : perSensor.added.Perm (delta.added.map (securityFinding digest sensorId hne))
  removed : perSensor.removed.Perm (delta.removed.map (securityFinding digest sensorId hne))
  unchanged : perSensor.unchangedCount = delta.unchangedCount
  status : perSensor.status = delta.status

section Agree

variable {sensorId : String} {hne : sensorId ≠ ""} {sb sc : SensorState digest}
  {pb pc : SensorProvenance} {bs cs : List (Finding Digest)}
  (hb : HoldsScan sb pb sensorId hne bs) (hc : HoldsScan sc pc sensorId hne cs)

omit hdigest in
theorem HoldsScan.cast {sensorId' : String} (h : HoldsScan sb pb sensorId hne bs)
    (hid : sensorId = sensorId') (hne' : sensorId' ≠ "") : HoldsScan sb pb sensorId' hne' bs := by
  subst hid
  exact h

omit hdigest in
theorem HoldsScan.sensorId_eq (h : HoldsScan sb pb sensorId hne bs)
    {finding : SecurityFinding digest} (hfinding : finding ∈ sb.findings) :
    finding.sensorId = sensorId ∧ finding.isLlm = false := by
  obtain ⟨f, -, rfl⟩ := List.mem_map.mp (h.findings.mem_iff.mp hfinding)
  simp

omit hdigest in
theorem HoldsScan.get? (h : HoldsScan sb pb sensorId hne bs) :
    sb.provenanceBySensor.get? sensorId = some pb := by
  rw [← mem_entries_iff, h.entries]
  exact List.mem_singleton_self _

omit hdigest in
theorem HoldsScan.verdictData_eq (h : HoldsScan sb pb sensorId hne bs) :
    verdictData sb.toStateData = sb.toStateData := by
  refine verdictData_eq_self ?_
  rw [advisorySensorIds, h.entries]
  simp [h.reproducible]

omit hdigest in
theorem HoldsScan.verdictOnly (h : HoldsScan sb pb sensorId hne bs) :
    VerdictOnly sb.toStateData := by
  intro finding hfinding
  obtain ⟨hid, hllm⟩ := h.sensorId_eq hfinding
  refine ⟨hllm, fun provenance hget => ?_⟩
  rw [hid, h.get?, Option.some.injEq] at hget
  exact hget ▸ h.reproducible

include hb hc

theorem sensorAdded_agrees :
    (sensorAdded sb.toStateData sc.toStateData sensorId).Perm
      ((addedFindings digest bs cs).map (securityFinding digest sensorId hne)) := by
  have hids : ((sensorAdded sb.toStateData sc.toStateData sensorId).map (·.canonicalId)).Nodup := by
    rw [sensorAdded_ids sc.wellFormed]
    exact nodup_sortedMissingKeys _ _
  have hall : ((addedFindings digest [] cs).map (securityFinding digest sensorId hne)).Nodup :=
    hc.findings.nodup_iff.mp (List.Nodup.of_map _ (sc.wellFormed.sorted.imp ne_of_lt))
  have hnodup : ((addedFindings digest bs cs).map (securityFinding digest sensorId hne)).Nodup := by
    refine (addedFindings_nodup bs cs).map_on fun f hf g hg heq => ?_
    exact List.inj_on_of_nodup_map hall (mem_addedFindings_iff.mp hf).1
      (mem_addedFindings_iff.mp hg).1 heq
  rw [List.perm_ext_iff_of_nodup (List.Nodup.of_map _ hids) hnodup]
  intro finding
  rw [mem_sensorAdded sb.wellFormed sc.wellFormed, hc.findings.mem_iff, List.mem_map, List.mem_map]
  constructor
  · rintro ⟨⟨f, hf, rfl⟩, -, hmissing⟩
    refine ⟨f, mem_addedFindings_iff.mpr ⟨hf, fun g hg heq => ?_⟩, rfl⟩
    refine hmissing _ (hb.findings.mem_iff.mpr (List.mem_map_of_mem hg)) (by simp) ?_
    exact (canonicalId_eq_iff hdigest (mem_side_of_added hg) (mem_side_of_added hf)).mpr heq
  · rintro ⟨f, hf, rfl⟩
    obtain ⟨hmem, hmissing⟩ := mem_addedFindings_iff.mp hf
    refine ⟨⟨f, hmem, rfl⟩, by simp, fun other hother _ heq => ?_⟩
    obtain ⟨g, hg, rfl⟩ := List.mem_map.mp (hb.findings.mem_iff.mp hother)
    exact hmissing g hg
      ((canonicalId_eq_iff hdigest (mem_side_of_added hg) (mem_side_of_added hmem)).mp heq)

theorem unchanged_agrees :
    (sortedCommonKeys (sensorFindings sb.toStateData sensorId)
      (sensorFindings sc.toStateData sensorId)).length =
        (unchangedFingerprints digest bs cs).length := by
  have hfindings : (sensorFindings sc.toStateData sensorId).keys.length =
      (addedFindings digest [] cs).length := by
    have hself : findingsForSensor sc.toStateData sensorId = sc.findings :=
      List.filter_eq_self.mpr fun finding hfinding => by simp [(hc.sensorId_eq hfinding).1]
    rw [keys, entries_sensorFindings sc.wellFormed, hself, List.length_map, List.length_map,
      hc.findings.length_eq, List.length_map]
  have hmissing : (sortedMissingKeys (sensorFindings sc.toStateData sensorId)
      (sensorFindings sb.toStateData sensorId)).length = (addedFindings digest bs cs).length := by
    rw [← sensorAdded_ids sc.wellFormed, List.length_map,
      (sensorAdded_agrees hdigest hb hc).length_eq, List.length_map]
  have hlength : ∀ ds : List (Finding Digest), (addedFindings digest ds cs).length =
      (sortedMissingKeys (sideDict digest cs) (sideDict digest ds)).length := by
    intro ds
    have hmap := congrArg List.length (@addedFindings_fingerprints _ digest _ ds cs)
    rwa [List.length_map, List.length_map] at hmap
  have hsecurity := length_missing_add_common (sensorFindings sc.toStateData sensorId)
    (sensorFindings sb.toStateData sensorId)
  have hssp := length_missing_add_common (sideDict digest cs) (sideDict digest bs)
  have hempty := length_missing_add_common (sideDict digest cs)
    (sideDict digest ([] : List (Finding Digest)))
  have hnone : (sortedCommonKeys (sideDict digest cs)
      (sideDict digest ([] : List (Finding Digest)))).length = 0 := by
    rw [List.length_eq_zero_iff, List.eq_nil_iff_forall_not_mem]
    intro fp hfp
    exact List.not_mem_nil ((mem_sortedCommonKeys _ _ fp).mp hfp).2
  rw [sortedCommonKeys_comm (sensorFindings sb.toStateData sensorId), unchangedFingerprints,
    sortedCommonKeys_comm (sideDict digest bs)]
  rw [hfindings, hmissing, hlength [], hlength bs] at hsecurity
  omega

theorem comparedDelta_agrees {delta : SSPDelta Digest}
    (hadded : delta.added = addedFindings digest bs cs)
    (hremoved : delta.removed = addedFindings digest cs bs)
    (hunchanged : delta.unchangedCount = (unchangedFingerprints digest bs cs).length)
    (hstatus : delta.status = if hasFailing (addedFindings digest bs cs) then .fail else .pass) :
    EnginesAgree sensorId hne delta (comparedDelta sb.toStateData sc.toStateData sensorId) where
  added := by
    rw [hadded]
    exact sensorAdded_agrees hdigest hb hc
  removed := by
    rw [hremoved]
    exact sensorAdded_agrees hdigest hc hb
  unchanged := by
    rw [hunchanged]
    exact unchanged_agrees hdigest hb hc
  status := by
    have hany : ((sensorAdded sb.toStateData sc.toStateData sensorId).any fun finding =>
        finding.severity ≠ .info) = hasFailing (addedFindings digest bs cs) := by
      rw [(sensorAdded_agrees hdigest hb hc).any_eq, List.any_map, hasFailing]
      refine List.any_congr rfl fun f => ?_
      simp only [Function.comp_apply, securityFinding_severity, ne_info_iff]
    rw [hstatus, ← hany]
    rfl

end Agree

/-- Complete scans of one scanner with one provenance are adapted to valid states, and the two
engines agree on them. -/
theorem engines_agree (scanner : Scanner) {b c : SensorOutput Digest} {bSpec cSpec : SensorSpec}
    (hid : b.sensorId = c.sensorId) (hb : b.status = .complete) (hc : c.status = .complete)
    (honlyb : ∀ f ∈ b.findings, scanner.Reports f) (honlyc : ∀ f ∈ c.findings, scanner.Reports f)
    (hprovenance : scanner.provenance b bSpec = scanner.provenance c cSpec) :
    ∃ sb sc, scanner.sensorState digest b bSpec = .ok sb ∧
      scanner.sensorState digest c cSpec = .ok sc ∧
      ∃ delta, computeDelta digest b c = .ok delta ∧
      ∀ driftFields, ∃ securityDelta, computeSecurityDelta sb sc driftFields = .ok securityDelta ∧
      ∃ perSensor, securityDelta.deltasBySensor.get? c.sensorId = some perSensor ∧
        EnginesAgree c.sensorId c.sensorId_ne delta perSensor := by
  obtain ⟨sb, hsb, hholdsb⟩ := scanner_holdsScan hdigest scanner hb honlyb bSpec
  obtain ⟨sc, hsc, hholdsc⟩ := scanner_holdsScan hdigest scanner hc honlyc cSpec
  rw [hprovenance] at hholdsb
  have hholdsb' := hholdsb.cast hid c.sensorId_ne
  refine ⟨sb, sc, hsb, hsc, _, computeDelta_complete digest hid hb hc, fun driftFields => ?_⟩
  refine ⟨_, computeSecurityDelta_eq_ok hholdsb'.verdictOnly hholdsc.verdictOnly _, ?_⟩
  have hcomparable : Comparable sb.toStateData sc.toStateData (driftFields.getD defaultDriftFields)
      c.sensorId := by
    refine ⟨scanner.provenance c cSpec, scanner.provenance c cSpec, ?_, ?_, ?_, hholdsc.complete,
      hholdsc.complete⟩
    · simp [verdictProvenance, hholdsb'.get?, Option.filter, hholdsc.reproducible]
    · simp [verdictProvenance, hholdsc.get?, Option.filter, hholdsc.reproducible]
    · intro field _
      cases field <;> simp [ProvenanceField.differs]
  refine ⟨comparedDelta sb.toStateData sc.toStateData c.sensorId, ?_,
    comparedDelta_agrees hdigest hholdsb' hholdsc (by dsimp only) (by dsimp only)
      (by dsimp only) (by dsimp only)⟩
  rw [← mem_entries_iff, entries_madeSecurityDelta]
  refine List.mem_map.mpr ⟨c.sensorId, ?_, ?_⟩
  · rw [hholdsb'.verdictData_eq, hholdsc.verdictData_eq, mem_sensorIds, ← get?_isSome_iff,
      ← get?_isSome_iff, hholdsc.get?]
    exact Or.inr rfl
  · rw [madeDelta_of_comparable hcomparable, hholdsb'.verdictData_eq, hholdsc.verdictData_eq]

end States

/-! ### A second finding of one group -/

theorem secondEval_agrees :
    ∃ sb sc, Scanner.semgrep.sensorState id oneEval {} = .ok sb ∧
      Scanner.semgrep.sensorState id twoEvals {} = .ok sc ∧
      ∃ delta, computeDelta id oneEval twoEvals = .ok delta ∧
      ∀ driftFields, ∃ securityDelta, computeSecurityDelta sb sc driftFields = .ok securityDelta ∧
      ∃ perSensor, securityDelta.deltasBySensor.get? twoEvals.sensorId = some perSensor ∧
        EnginesAgree twoEvals.sensorId twoEvals.sensorId_ne delta perSensor :=
  engines_agree Function.injective_id .semgrep rfl rfl rfl
    (by simp [oneEval, semgrepOutput, Scanner.Reports])
    (by simp [twoEvals, semgrepOutput, Scanner.Reports]) rfl

end SemanticCi.Sensor
