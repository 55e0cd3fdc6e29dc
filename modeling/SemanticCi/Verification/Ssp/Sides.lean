import SemanticCi.Library.ExceptRules
import SemanticCi.Verification.Ssp.Ordinals

/-! The two sides of a delta as dictionaries from fingerprints to findings. -/

namespace SemanticCi.Ssp

open OrderedDict ExceptRules

variable {Digest : Type} (digest : List Component → Digest)

def sastOf (findings : List (Finding Digest)) : List (SASTFinding Digest) :=
  findings.filterMap Finding.sast?

def scaOf (findings : List (Finding Digest)) : List (SCAFinding Digest) :=
  findings.filterMap Finding.sca?

structure Advisory where
  packageName : String
  installedVersion : String
  advisoryId : String
deriving DecidableEq

def advisoryKey (finding : SCAFinding Digest) : Advisory :=
  ⟨finding.packageName, finding.installedVersion, finding.advisoryId⟩

def advisoryFingerprint (a : Advisory) : Digest :=
  scaFingerprint digest a.packageName a.installedVersion a.advisoryId

/-! ### Fingerprints tell identities apart -/

section Injective

variable {digest} (hdigest : Function.Injective digest)

include hdigest

theorem groupFingerprint_inj {g h : SastGroup} {j k : ℕ} :
    groupFingerprint digest g j = groupFingerprint digest h k ↔ g = h ∧ j = k := by
  constructor
  · intro heq
    have hlist := hdigest heq
    cases g
    cases h
    simp_all [Sum.inlₗ, Sum.inrₗ]
  · rintro ⟨rfl, rfl⟩
    rfl

theorem advisoryFingerprint_inj {a a' : Advisory} :
    advisoryFingerprint digest a = advisoryFingerprint digest a' ↔ a = a' := by
  constructor
  · intro heq
    have hlist := hdigest heq
    cases a
    cases a'
    simp_all [Sum.inlₗ]
  · rintro rfl
    rfl

theorem groupFingerprint_ne_advisory (g : SastGroup) (k : ℕ) (a : Advisory) :
    groupFingerprint digest g k ≠ advisoryFingerprint digest a := by
  intro heq
  have hlength := congrArg List.length (hdigest heq)
  simp at hlength

end Injective

/-! ### All findings of a side under their fingerprints -/

/-- The findings of a side before the second dedup. -/
def sideFindings (findings : List (Finding Digest)) : List (Finding Digest) :=
  (assignSastOrdinals digest (sastOf findings)).map .sast ++
    (scaOf findings).map fun finding => .sca (withFingerprint digest finding)

def keyed (findings : List (Finding Digest)) : List (Digest × Finding Digest) :=
  findings.filterMap fun f => f.fingerprint.map fun fingerprint => (fingerprint, f)

@[simp] theorem mem_keyed {findings : List (Finding Digest)} {fp : Digest} {f : Finding Digest} :
    (fp, f) ∈ keyed findings ↔ f ∈ findings ∧ f.fingerprint = some fp := by
  simp only [keyed, List.mem_filterMap, Option.map_eq_some_iff, Prod.mk.injEq]
  constructor
  · rintro ⟨f', hf', fp', hfp', rfl, rfl⟩
    exact ⟨hf', hfp'⟩
  · rintro ⟨hf, hfp⟩
    exact ⟨f, hf, fp, hfp, rfl, rfl⟩

theorem mem_side_sast {findings : List (Finding Digest)} {f : SASTFinding Digest} :
    .sast f ∈ sideFindings digest findings ↔ f ∈ assignSastOrdinals digest (sastOf findings) := by
  simp [sideFindings]

theorem mem_side_sca {findings : List (Finding Digest)} {f : SCAFinding Digest} :
    .sca f ∈ sideFindings digest findings ↔
      ∃ raw ∈ scaOf findings, withFingerprint digest raw = f := by
  simp [sideFindings]

@[simp] theorem advisoryKey_withFingerprint (f : SCAFinding Digest) :
    advisoryKey (withFingerprint digest f) = advisoryKey f := rfl

/-- Every finding of a side has the fingerprint of its identity. -/
theorem side_fingerprint {findings : List (Finding Digest)} {f : Finding Digest}
    (h : f ∈ sideFindings digest findings) :
    (∃ s, f = .sast s ∧ ∃ k < groupSize (sastOf findings) (sastGroupKey s),
        s.ordinal = some k ∧ f.fingerprint = some (groupFingerprint digest (sastGroupKey s) k)) ∨
      ∃ s, f = .sca s ∧ advisoryKey s ∈ (scaOf findings).map advisoryKey ∧
        f.fingerprint = some (advisoryFingerprint digest (advisoryKey s)) := by
  cases f with
  | sast s =>
    obtain ⟨k, hk, hordinal, hfp⟩ := assigned_fingerprint digest ((mem_side_sast digest).mp h)
    exact Or.inl ⟨s, rfl, k, hk, hordinal, hfp⟩
  | sca s =>
    obtain ⟨raw, hraw, rfl⟩ := (mem_side_sca digest).mp h
    exact Or.inr ⟨_, rfl, List.mem_map.mpr ⟨raw, hraw, rfl⟩, rfl⟩

theorem side_fingerprint_isSome {findings : List (Finding Digest)} {f : Finding Digest}
    (h : f ∈ sideFindings digest findings) : f.fingerprint.isSome := by
  rcases side_fingerprint digest h with ⟨_, _, _, _, _, hfp⟩ | ⟨_, _, _, hfp⟩ <;> simp [hfp]

theorem mapM_requireFingerprint {findings : List (Finding Digest)}
    (h : ∀ f ∈ findings, f.fingerprint.isSome) :
    findings.mapM requireFingerprint = .ok (keyed findings) := by
  induction findings with
  | nil => rfl
  | cons f rest ih =>
    obtain ⟨fp, hfp⟩ := Option.isSome_iff_exists.mp (h f List.mem_cons_self)
    have hrest := ih fun g hg => h g (List.mem_cons_of_mem f hg)
    simp [List.mapM_cons, requireFingerprint, hfp, hrest, keyed]

theorem keyed_values (findings : List (Finding Digest)) {items : List (Digest × Finding Digest)}
    (h : ∀ item ∈ items, item ∈ keyed findings) : keyed (items.map Prod.snd) = items := by
  induction items with
  | nil => rfl
  | cons item items ih =>
    have hfp := (mem_keyed.mp (h item List.mem_cons_self)).2
    have hrest := ih fun i hi => h i (List.mem_cons_of_mem item hi)
    simp only [keyed] at hrest
    simp [keyed, hfp, hrest]

/-! ### The dictionary of a side -/

variable [LinearOrder Digest]

def sideDict (findings : List (Finding Digest)) : OrderedDict Digest (Digest × Finding Digest) :=
  indexBy Prod.fst (keyed (sideFindings digest findings))

theorem fingerprintedFindings_eq (findings : List (Finding Digest)) :
    fingerprintedFindings digest findings =
      .ok ((sideDict digest findings).sortedValues.map Prod.snd) := by
  have hmapM : (sideFindings digest findings).mapM requireFingerprint =
      .ok (keyed (sideFindings digest findings)) :=
    mapM_requireFingerprint fun _ => side_fingerprint_isSome digest
  change dedupFingerprinted (sideFindings digest findings) = _
  simp only [dedupFingerprinted, findingsByFingerprint, hmapM, ok_bind, pure_eq_ok]
  rfl

/-- The second dictionary looks up what the first one does. -/
theorem findingsByFingerprint_fingerprinted (findings : List (Finding Digest)) :
    ∃ d : OrderedDict Digest (Digest × Finding Digest),
      (fingerprintedFindings digest findings >>= findingsByFingerprint) = .ok d ∧
        ∀ fp, d.get? fp = (sideDict digest findings).get? fp := by
  have hvalues : ∀ item ∈ (sideDict digest findings).sortedValues,
      item ∈ keyed (sideFindings digest findings) := by
    intro item hitem
    exact List.mem_of_find?_eq_some ((mem_sortedValues_indexBy _ _ item).mp hitem)
  have hsome : ∀ f ∈ (sideDict digest findings).sortedValues.map Prod.snd,
      f.fingerprint.isSome := by
    intro f hf
    obtain ⟨item, hitem, rfl⟩ := List.mem_map.mp hf
    simp [(mem_keyed.mp (hvalues item hitem)).2]
  refine ⟨indexBy Prod.fst (sideDict digest findings).sortedValues, ?_, fun fp => ?_⟩
  · rw [fingerprintedFindings_eq, ok_bind, findingsByFingerprint, mapM_requireFingerprint hsome,
      keyed_values _ hvalues]
    rfl
  · exact get?_indexBy_sortedValues Prod.fst _ fp

/-! ### The delta of two complete outputs -/

/-- The findings of `candidate` under fingerprints that `baseline` lacks. -/
def addedFindings (baseline candidate : List (Finding Digest)) : List (Finding Digest) :=
  (missingValues (sideDict digest candidate) (sideDict digest baseline)).map Prod.snd

def unchangedFingerprints (baseline candidate : List (Finding Digest)) : List Digest :=
  sortedCommonKeys (sideDict digest baseline) (sideDict digest candidate)

theorem mem_unchangedFingerprints {baseline candidate : List (Finding Digest)} {fp : Digest} :
    fp ∈ unchangedFingerprints digest baseline candidate ↔
      fp ∈ (sideDict digest baseline).keys ∧ fp ∈ (sideDict digest candidate).keys :=
  mem_sortedCommonKeys ..

theorem unchangedFingerprints_nodup (baseline candidate : List (Finding Digest)) :
    (unchangedFingerprints digest baseline candidate).Nodup := nodup_sortedCommonKeys ..

theorem missingKeys_pairwise_lt (baseline candidate : List (Finding Digest)) :
    (sortedMissingKeys (sideDict digest candidate) (sideDict digest baseline)).Pairwise
      (· < ·) := by
  have hle : (sortedMissingKeys (sideDict digest candidate)
      (sideDict digest baseline)).Pairwise (· ≤ ·) := List.pairwise_insertionSort ..
  exact hle.imp₂ (fun _ _ => lt_of_le_of_ne) (nodup_sortedMissingKeys _ _)

/-- The findings of one side are those added to nothing. -/
theorem fingerprintedFindings_eq_added (findings : List (Finding Digest)) :
    fingerprintedFindings digest findings = .ok (addedFindings digest [] findings) := by
  rw [fingerprintedFindings_eq, addedFindings, ← sortedValues_eq_missingValues]
  rfl

def hasFailing (findings : List (Finding Digest)) : Bool :=
  findings.any fun f => f.severity ∈ failSeverities

theorem computeDelta_complete {baseline candidate : SensorOutput Digest}
    (hid : baseline.sensorId = candidate.sensorId) (hb : baseline.status = .complete)
    (hc : candidate.status = .complete) :
    computeDelta digest baseline candidate = .ok
      { sensorId := candidate.sensorId
        status := if hasFailing (addedFindings digest baseline.findings candidate.findings)
          then .fail else .pass
        added := addedFindings digest baseline.findings candidate.findings
        removed := addedFindings digest candidate.findings baseline.findings
        unchangedCount :=
          (unchangedFingerprints digest baseline.findings candidate.findings).length } := by
  obtain ⟨db, hdb, hgetb⟩ := findingsByFingerprint_fingerprinted digest baseline.findings
  obtain ⟨dc, hdc, hgetc⟩ := findingsByFingerprint_fingerprinted digest candidate.findings
  rw [fingerprintedFindings_eq, ok_bind] at hdb hdc
  simp only [computeDelta, hid, hb, hc, fingerprintedFindings_eq, ok_bind, hdb, hdc, pure_eq_ok,
    ne_eq, not_true_eq_false, if_false, reduceCtorEq, or_self, verdictForDelta,
    missingValues_congr hgetc hgetb, missingValues_congr hgetb hgetc,
    sortedCommonKeys_congr hgetb hgetc, addedFindings, unchangedFingerprints, hasFailing]
  rfl

end SemanticCi.Ssp
