import Mathlib.Data.List.Count
import SemanticCi.Verification.Ssp.Sides

/-! The delta subtracts the group sizes of its two sides. -/

namespace SemanticCi.Ssp

open OrderedDict

variable {Digest : Type} {digest : List Component → Digest}

/-! ### Identities of one side -/

/-- The ordinals that the findings of a group carry, up to their order. -/
def HasOrdinals (findings : List (Finding Digest)) (g : SastGroup) (ordinals : List ℕ) : Prop :=
  (((sastOf findings).filter fun f => sastGroupKey f = g).map (·.ordinal)).Perm
    (ordinals.map some)

/-- A group and an ordinal name one assigned finding. -/
theorem assigned_inj {findings : List (SASTFinding Digest)} {f f' : SASTFinding Digest}
    (hf : f ∈ assignSastOrdinals digest findings) (hf' : f' ∈ assignSastOrdinals digest findings)
    (hgroup : sastGroupKey f = sastGroupKey f') (hordinal : f.ordinal = f'.ordinal) : f = f' := by
  have hnodup : (((assignSastOrdinals digest findings).filter fun h =>
      sastGroupKey h = sastGroupKey f').map (·.ordinal)).Nodup := by
    rw [(assigned_ordinals_perm digest findings _).nodup_iff]
    exact List.nodup_range.map (Option.some_injective ℕ)
  exact List.inj_on_of_nodup_map hnodup (List.mem_filter.mpr ⟨hf, by simp [hgroup]⟩)
    (List.mem_filter.mpr ⟨hf', by simp⟩) hordinal

theorem nodup_groupFingerprints (hdigest : Function.Injective digest) (gs : List SastGroup)
    (hgs : gs.Nodup) (size : SastGroup → ℕ) :
    (gs.flatMap fun g => (List.range (size g)).map (groupFingerprint digest g)).Nodup := by
  rw [List.nodup_flatMap]
  constructor
  · intro g _
    exact List.nodup_range.map fun j k h => ((groupFingerprint_inj hdigest).mp h).2
  · refine hgs.imp fun hne => ?_
    rw [Function.onFun, List.disjoint_left]
    intro fp hfp hfp'
    obtain ⟨j, -, rfl⟩ := List.mem_map.mp hfp
    obtain ⟨k, -, heq⟩ := List.mem_map.mp hfp'
    exact hne ((groupFingerprint_inj hdigest).mp heq).1.symm

section Sides

variable [LinearOrder Digest] (hdigest : Function.Injective digest)

theorem mem_sideDict_keys {findings : List (Finding Digest)} {fp : Digest} :
    fp ∈ (sideDict digest findings).keys ↔
      ∃ f ∈ sideFindings digest findings, f.fingerprint = some fp := by
  rw [sideDict, mem_keys_indexBy]
  constructor
  · rintro ⟨⟨fp', f⟩, hf, rfl⟩
    exact ⟨f, mem_keyed.mp hf⟩
  · rintro ⟨f, hf⟩
    exact ⟨(fp, f), mem_keyed.mpr hf, rfl⟩

include hdigest

theorem groupFingerprint_mem {findings : List (Finding Digest)} {g : SastGroup} {k : ℕ} :
    groupFingerprint digest g k ∈ (sideDict digest findings).keys ↔
      k < groupSize (sastOf findings) g := by
  rw [mem_sideDict_keys]
  constructor
  · rintro ⟨f, hf, hfp⟩
    rcases side_fingerprint digest hf with ⟨s, rfl, j, hj, -, hfp'⟩ | ⟨s, rfl, -, hfp'⟩
    · rw [hfp, Option.some.injEq, groupFingerprint_inj hdigest] at hfp'
      obtain ⟨rfl, rfl⟩ := hfp'
      exact hj
    · rw [hfp, Option.some.injEq] at hfp'
      exact absurd hfp' (groupFingerprint_ne_advisory hdigest g k _)
  · intro hk
    obtain ⟨s, hs, rfl, hordinal⟩ := exists_assigned_of_lt digest hk
    refine ⟨.sast s, (mem_side_sast digest).mpr hs, ?_⟩
    obtain ⟨j, -, hj, hfp⟩ := assigned_fingerprint digest hs
    rw [hordinal, Option.some.injEq] at hj
    exact hj ▸ hfp

theorem advisoryFingerprint_mem {findings : List (Finding Digest)} {a : Advisory} :
    advisoryFingerprint digest a ∈ (sideDict digest findings).keys ↔
      a ∈ (scaOf findings).map advisoryKey := by
  rw [mem_sideDict_keys]
  constructor
  · rintro ⟨f, hf, hfp⟩
    rcases side_fingerprint digest hf with ⟨s, rfl, j, -, -, hfp'⟩ | ⟨s, rfl, hs, hfp'⟩
    · rw [hfp, Option.some.injEq] at hfp'
      exact absurd hfp'.symm (groupFingerprint_ne_advisory hdigest _ j a)
    · rw [hfp, Option.some.injEq, advisoryFingerprint_inj hdigest] at hfp'
      exact hfp' ▸ hs
  · intro ha
    obtain ⟨raw, hraw, rfl⟩ := List.mem_map.mp ha
    exact ⟨_, (mem_side_sca digest).mpr ⟨raw, hraw, rfl⟩, rfl⟩

omit hdigest in
/-- Every fingerprint of a side belongs to a group or to an advisory. -/
theorem sideDict_keys_cases {findings : List (Finding Digest)} {fp : Digest}
    (h : fp ∈ (sideDict digest findings).keys) :
    (∃ g k, fp = groupFingerprint digest g k ∧ k < groupSize (sastOf findings) g) ∨
      ∃ a ∈ (scaOf findings).map advisoryKey, fp = advisoryFingerprint digest a := by
  obtain ⟨f, hf, hfp⟩ := mem_sideDict_keys.mp h
  rcases side_fingerprint digest hf with ⟨s, rfl, k, hk, -, hfp'⟩ | ⟨s, rfl, hs, hfp'⟩
  · exact Or.inl ⟨_, k, Option.some.inj (hfp.symm.trans hfp'), hk⟩
  · exact Or.inr ⟨_, hs, Option.some.inj (hfp.symm.trans hfp')⟩

/-! ### The added findings -/

omit hdigest in
/-- The added findings in the order of their fingerprints. -/
theorem addedFindings_fingerprints (b c : List (Finding Digest)) :
    (addedFindings digest b c).map Finding.fingerprint =
      (sortedMissingKeys (sideDict digest c) (sideDict digest b)).map some := by
  have hkeys : (missingValues (sideDict digest c) (sideDict digest b)).map Prod.fst =
      sortedMissingKeys (sideDict digest c) (sideDict digest b) := map_key_missingValues ..
  rw [← hkeys, addedFindings, List.map_map, List.map_map]
  refine List.map_congr_left fun item hitem => ?_
  have hmem := (mem_missingValues_indexBy _ _ _ item).mp hitem
  exact (mem_keyed.mp (List.mem_of_find?_eq_some hmem.2)).2

omit hdigest in
theorem addedFindings_nodup (b c : List (Finding Digest)) : (addedFindings digest b c).Nodup := by
  refine List.Nodup.of_map Finding.fingerprint ?_
  rw [addedFindings_fingerprints]
  exact (nodup_sortedMissingKeys _ _).map (Option.some_injective Digest)

omit hdigest in
theorem mem_side_of_added {b c : List (Finding Digest)} {f : Finding Digest}
    (h : f ∈ addedFindings digest b c) : f ∈ sideFindings digest c := by
  obtain ⟨item, hitem, rfl⟩ := List.mem_map.mp h
  have hmem := (mem_missingValues_indexBy _ _ _ item).mp hitem
  exact (mem_keyed.mp (List.mem_of_find?_eq_some hmem.2)).1

theorem mem_added_sast {b c : List (Finding Digest)} {f : SASTFinding Digest} :
    .sast f ∈ addedFindings digest b c ↔
      f ∈ assignSastOrdinals digest (sastOf c) ∧
        ∃ k, f.ordinal = some k ∧ groupSize (sastOf b) (sastGroupKey f) ≤ k := by
  constructor
  · intro h
    have hside := (mem_side_sast digest).mp (mem_side_of_added h)
    obtain ⟨k, -, hordinal, hfp⟩ := assigned_fingerprint digest hside
    have hmissing : f.fingerprint ∈ (addedFindings digest b c).map Finding.fingerprint :=
      List.mem_map.mpr ⟨_, h, rfl⟩
    rw [addedFindings_fingerprints, hfp] at hmissing
    have hkey := ((mem_sortedMissingKeys _ _ _).mp
      ((List.mem_map_of_injective (Option.some_injective Digest)).mp hmissing)).2
    rw [groupFingerprint_mem hdigest, not_lt] at hkey
    exact ⟨hside, k, hordinal, hkey⟩
  · rintro ⟨hf, k, hordinal, hk⟩
    obtain ⟨j, hj, hordinal', hfp⟩ := assigned_fingerprint digest hf
    rw [hordinal, Option.some.injEq] at hordinal'
    subst hordinal'
    have hmissing : groupFingerprint digest (sastGroupKey f) k ∈
        sortedMissingKeys (sideDict digest c) (sideDict digest b) := by
      rw [mem_sortedMissingKeys, groupFingerprint_mem hdigest, groupFingerprint_mem hdigest]
      omega
    have hmem : some (groupFingerprint digest (sastGroupKey f) k) ∈
        (addedFindings digest b c).map Finding.fingerprint := by
      rw [addedFindings_fingerprints]
      exact List.mem_map_of_mem hmissing
    obtain ⟨f', hf', hfp'⟩ := List.mem_map.mp hmem
    -- the fingerprint names the finding
    rcases side_fingerprint digest (mem_side_of_added hf') with
      ⟨s, rfl, i, -, hi, hs⟩ | ⟨s, rfl, -, hs⟩
    · rw [hs, Option.some.injEq, groupFingerprint_inj hdigest] at hfp'
      obtain ⟨hgroup, rfl⟩ := hfp'
      have hsame := assigned_inj ((mem_side_sast digest).mp (mem_side_of_added hf')) hf hgroup
        (hi.trans hordinal.symm)
      exact hsame ▸ hf'
    · rw [hs, Option.some.injEq] at hfp'
      exact absurd hfp'.symm (groupFingerprint_ne_advisory hdigest _ _ _)

/-- The ordinals of the added findings of a group are the ones the baseline lacks. -/
theorem added_ordinals (b c : List (Finding Digest)) (g : SastGroup) :
    HasOrdinals (addedFindings digest b c) g
      (List.range' (min (groupSize (sastOf b) g) (groupSize (sastOf c) g))
        (groupSize (sastOf c) g - groupSize (sastOf b) g)) := by
  have hmem : ∀ f, f ∈ (sastOf (addedFindings digest b c)).filter (fun f => sastGroupKey f = g) ↔
      f ∈ assignSastOrdinals digest (sastOf c) ∧ sastGroupKey f = g ∧
        ∃ k, f.ordinal = some k ∧ groupSize (sastOf b) g ≤ k := by
    intro f
    have hsast : f ∈ sastOf (addedFindings digest b c) ↔ .sast f ∈ addedFindings digest b c := by
      rw [sastOf, List.mem_filterMap]
      constructor
      · rintro ⟨h | h, hh, heq⟩
        · exact Option.some.inj heq ▸ hh
        · cases heq
      · exact fun h => ⟨_, h, rfl⟩
    rw [List.mem_filter, hsast, mem_added_sast hdigest, decide_eq_true_eq]
    constructor
    · rintro ⟨⟨hf, hk⟩, rfl⟩
      exact ⟨hf, rfl, hk⟩
    · rintro ⟨hf, rfl, hk⟩
      exact ⟨⟨hf, hk⟩, rfl⟩
  have hsastNodup : (sastOf (addedFindings digest b c)).Nodup := by
    refine (addedFindings_nodup b c).filterMap ?_
    rintro (f | f) (f' | f') s hs hs'
    · exact congrArg _ (Option.some.inj (hs.trans hs'.symm))
    all_goals simp [Finding.sast?] at hs hs'
  have hnodup : (((sastOf (addedFindings digest b c)).filter fun f =>
      sastGroupKey f = g).map (·.ordinal)).Nodup := by
    refine (hsastNodup.filter _).map_on fun f hf f' hf' hordinal => ?_
    obtain ⟨hf, hg, -⟩ := (hmem f).mp hf
    obtain ⟨hf', hg', -⟩ := (hmem f').mp hf'
    exact assigned_inj hf hf' (hg.trans hg'.symm) hordinal
  rw [HasOrdinals, List.perm_ext_iff_of_nodup hnodup ((List.nodup_range' 1).map (Option.some_injective ℕ))]
  intro o
  simp only [List.mem_map, hmem, List.mem_range'_1]
  constructor
  · rintro ⟨f, ⟨hf, rfl, k, hordinal, hk⟩, rfl⟩
    obtain ⟨j, hj, hordinal', -⟩ := assigned_fingerprint digest hf
    rw [hordinal, Option.some.injEq] at hordinal'
    exact ⟨k, by omega, hordinal.symm⟩
  · rintro ⟨k, hk, rfl⟩
    have hlt : k < groupSize (sastOf c) g := by omega
    obtain ⟨f, hf, rfl, hordinal⟩ := exists_assigned_of_lt digest hlt
    exact ⟨f, ⟨hf, rfl, k, hordinal, by omega⟩, hordinal⟩

/-- `1` for an advisory that the findings report. -/
def advisoryCount (findings : List (Finding Digest)) (a : Advisory) : ℕ :=
  if a ∈ (scaOf findings).map advisoryKey then 1 else 0

theorem added_advisories (b c : List (Finding Digest)) (a : Advisory) :
    ((scaOf (addedFindings digest b c)).filter fun f => advisoryKey f = a).length =
      advisoryCount c a - advisoryCount b a := by
  have hcount : ((scaOf (addedFindings digest b c)).filter fun f => advisoryKey f = a).length =
      (addedFindings digest b c).countP fun f =>
        f.fingerprint = some (advisoryFingerprint digest a) := by
    rw [← List.countP_eq_length_filter, scaOf, List.countP_filterMap]
    refine List.countP_congr fun f hf => ?_
    rcases side_fingerprint digest (mem_side_of_added hf) with
      ⟨s, rfl, k, -, -, hfp⟩ | ⟨s, rfl, -, hfp⟩
    · simp [Finding.sca?, hfp, groupFingerprint_ne_advisory hdigest]
    · simp [Finding.sca?, hfp, advisoryFingerprint_inj hdigest]
  have hkeys : (addedFindings digest b c).countP (fun f =>
      f.fingerprint = some (advisoryFingerprint digest a)) =
        (sortedMissingKeys (sideDict digest c) (sideDict digest b)).count
          (advisoryFingerprint digest a) := by
    have hmap := congrArg (List.count (some (advisoryFingerprint digest a)))
      (@addedFindings_fingerprints _ digest _ b c)
    rw [List.count_map_of_injective _ _ (Option.some_injective Digest)] at hmap
    rw [← hmap, List.count_eq_countP, List.countP_map]
    refine List.countP_congr fun f _ => ?_
    simp
  rw [hcount, hkeys, (nodup_sortedMissingKeys _ _).count]
  simp only [mem_sortedMissingKeys, advisoryFingerprint_mem hdigest, advisoryCount]
  split_ifs <;> simp_all

/-! ### Unchanged findings -/

/-- The groups that the findings have. -/
def groupsOf (findings : List (Finding Digest)) : List SastGroup :=
  ((sastOf findings).map sastGroupKey).dedup

def advisoriesOf (findings : List (Finding Digest)) : List Advisory :=
  ((scaOf findings).map advisoryKey).dedup

/-- The fingerprints of both sides, group by group and advisory by advisory. -/
theorem unchanged_perm (b c : List (Finding Digest)) :
    (unchangedFingerprints digest b c).Perm
      ((groupsOf b).flatMap (fun g =>
          (List.range (min (groupSize (sastOf b) g) (groupSize (sastOf c) g))).map
            (groupFingerprint digest g)) ++
        ((advisoriesOf b).filter fun a => a ∈ advisoriesOf c).map
          (advisoryFingerprint digest)) := by
  have hnodup : ((groupsOf b).flatMap (fun g =>
      (List.range (min (groupSize (sastOf b) g) (groupSize (sastOf c) g))).map
        (groupFingerprint digest g)) ++
      ((advisoriesOf b).filter fun a => a ∈ advisoriesOf c).map
        (advisoryFingerprint digest)).Nodup := by
    rw [List.nodup_append']
    refine ⟨nodup_groupFingerprints hdigest _ (List.nodup_dedup _) _,
      ((List.nodup_dedup _).filter _).map fun a a' h => (advisoryFingerprint_inj hdigest).mp h, ?_⟩
    rw [List.disjoint_left]
    intro fp hfp hfp'
    obtain ⟨g, -, hg⟩ := List.mem_flatMap.mp hfp
    obtain ⟨k, -, rfl⟩ := List.mem_map.mp hg
    obtain ⟨a, -, heq⟩ := List.mem_map.mp hfp'
    exact groupFingerprint_ne_advisory hdigest g k a heq.symm
  rw [List.perm_ext_iff_of_nodup (unchangedFingerprints_nodup digest b c) hnodup]
  intro fp
  rw [mem_unchangedFingerprints, List.mem_append, List.mem_flatMap, List.mem_map]
  constructor
  · rintro ⟨hb, hc⟩
    rcases sideDict_keys_cases hb with ⟨g, k, rfl, hk⟩ | ⟨a, ha, rfl⟩
    · rw [groupFingerprint_mem hdigest] at hc
      obtain ⟨f, hf, hgroup⟩ := exists_of_groupSize_pos (Nat.zero_lt_of_lt hk)
      refine Or.inl ⟨g, List.mem_dedup.mpr (List.mem_map.mpr ⟨f, hf, hgroup⟩), ?_⟩
      exact List.mem_map_of_mem (List.mem_range.mpr (lt_min hk hc))
    · rw [advisoryFingerprint_mem hdigest] at hc
      refine Or.inr ⟨a, List.mem_filter.mpr ⟨List.mem_dedup.mpr ha, ?_⟩, rfl⟩
      exact decide_eq_true (List.mem_dedup.mpr hc)
  · rintro (⟨g, -, hg⟩ | ⟨a, ha, rfl⟩)
    · obtain ⟨k, hk, rfl⟩ := List.mem_map.mp hg
      rw [groupFingerprint_mem hdigest, groupFingerprint_mem hdigest]
      exact lt_min_iff.mp (List.mem_range.mp hk)
    · obtain ⟨hb, hc⟩ := List.mem_filter.mp ha
      rw [advisoryFingerprint_mem hdigest, advisoryFingerprint_mem hdigest]
      exact ⟨List.mem_dedup.mp hb, List.mem_dedup.mp (of_decide_eq_true hc)⟩

theorem length_unchanged (b c : List (Finding Digest)) :
    (unchangedFingerprints digest b c).length =
      ((groupsOf b).map fun g => min (groupSize (sastOf b) g) (groupSize (sastOf c) g)).sum +
        ((advisoriesOf b).map fun a => min (advisoryCount b a) (advisoryCount c a)).sum := by
  have hsca : ((advisoriesOf b).filter fun a => a ∈ advisoriesOf c).length =
      ((advisoriesOf b).map fun a => min (advisoryCount b a) (advisoryCount c a)).sum := by
    have hb : ∀ a ∈ advisoriesOf b, advisoryCount b a = 1 := fun a ha =>
      if_pos (List.mem_dedup.mp ha)
    revert hb
    induction advisoriesOf b with
    | nil => simp
    | cons a rest ih =>
      intro hb
      have hrest := ih fun a' ha' => hb a' (List.mem_cons_of_mem a ha')
      have ha : advisoryCount b a = 1 := hb a List.mem_cons_self
      have hmem : a ∈ advisoriesOf c ↔ a ∈ (scaOf c).map advisoryKey := List.mem_dedup
      by_cases hc : a ∈ (scaOf c).map advisoryKey
      · have hcount : advisoryCount c a = 1 := if_pos hc
        simp only [List.filter_cons, hmem, hc, decide_true, if_true, List.length_cons,
          List.map_cons, List.sum_cons, ha, hcount, hrest]
        omega
      · have hcount : advisoryCount c a = 0 := if_neg hc
        simp only [List.filter_cons, hmem, hc, decide_false, Bool.false_eq_true, if_false,
          List.map_cons, List.sum_cons, ha, hcount, hrest]
        omega
  rw [(unchanged_perm hdigest b c).length_eq, List.length_append, List.length_map, hsca,
    List.length_flatMap]
  simp

/-! ### The delta -/

/-- The findings are listed in the strict order of their fingerprints. -/
def SortedByFingerprint (findings : List (Finding Digest)) : Prop :=
  ∃ fingerprints : List Digest, findings.map Finding.fingerprint = fingerprints.map some ∧
    fingerprints.Pairwise (· < ·)

/-- The number of findings of an advisory. -/
def advisorySize (findings : List (Finding Digest)) (a : Advisory) : ℕ :=
  ((scaOf findings).filter fun f => advisoryKey f = a).length

/-- One side numbers every group from zero and repeats no fingerprint. -/
structure SideNumbered (findings numbered : List (Finding Digest)) : Prop where
  ordinals : ∀ g, HasOrdinals numbered g (List.range (groupSize (sastOf findings) g))
  sorted : SortedByFingerprint numbered

/-- The delta of two lists of findings is the subtraction of their group sizes. -/
structure SubtractsCounts (b c : List (Finding Digest)) (delta : SSPDelta Digest) : Prop where
  added : ∀ g, HasOrdinals delta.added g
    (List.range' (min (groupSize (sastOf b) g) (groupSize (sastOf c) g))
      (groupSize (sastOf c) g - groupSize (sastOf b) g))
  removed : ∀ g, HasOrdinals delta.removed g
    (List.range' (min (groupSize (sastOf b) g) (groupSize (sastOf c) g))
      (groupSize (sastOf b) g - groupSize (sastOf c) g))
  addedAdvisories : ∀ a, advisorySize delta.added a = advisoryCount c a - advisoryCount b a
  removedAdvisories : ∀ a, advisorySize delta.removed a = advisoryCount b a - advisoryCount c a
  unchanged : delta.unchangedCount =
    ((groupsOf b).map fun g => min (groupSize (sastOf b) g) (groupSize (sastOf c) g)).sum +
      ((advisoriesOf b).map fun a => min (advisoryCount b a) (advisoryCount c a)).sum
  addedSorted : SortedByFingerprint delta.added
  removedSorted : SortedByFingerprint delta.removed

omit hdigest in
theorem addedFindings_sorted (b c : List (Finding Digest)) :
    SortedByFingerprint (addedFindings digest b c) :=
  ⟨_, addedFindings_fingerprints b c, missingKeys_pairwise_lt digest b c⟩

theorem sideNumbered (findings : List (Finding Digest)) :
    ∃ numbered, fingerprintedFindings digest findings = .ok numbered ∧
      SideNumbered findings numbered := by
  refine ⟨_, fingerprintedFindings_eq_added digest findings, fun g => ?_,
    addedFindings_sorted [] findings⟩
  have hordinals := added_ordinals hdigest [] findings g
  have hempty : groupSize (sastOf ([] : List (Finding Digest))) g = 0 := by
    simp [groupSize, sastOf, spanlessOf, spansOf]
  simp only [hempty, Nat.zero_min, Nat.sub_zero, ← List.range_eq_range'] at hordinals
  exact hordinals

theorem subtractsCounts {b c : List (Finding Digest)} {delta : SSPDelta Digest}
    (hadded : delta.added = addedFindings digest b c)
    (hremoved : delta.removed = addedFindings digest c b)
    (hunchanged : delta.unchangedCount = (unchangedFingerprints digest b c).length) :
    SubtractsCounts b c delta where
  added := by
    rw [hadded]
    exact added_ordinals hdigest b c
  removed := by
    intro g
    rw [hremoved, min_comm]
    exact added_ordinals hdigest c b g
  addedAdvisories := by
    rw [hadded]
    exact added_advisories hdigest b c
  removedAdvisories := by
    rw [hremoved]
    exact added_advisories hdigest c b
  unchanged := by rw [hunchanged, length_unchanged hdigest]
  addedSorted := by
    rw [hadded]
    exact addedFindings_sorted b c
  removedSorted := by
    rw [hremoved]
    exact addedFindings_sorted c b

/-- For complete outputs of one sensor the delta is the subtraction of the group sizes. -/
theorem computeDelta_subtracts {baseline candidate : SensorOutput Digest}
    (hid : baseline.sensorId = candidate.sensorId) (hb : baseline.status = .complete)
    (hc : candidate.status = .complete) :
    (∃ delta, computeDelta digest baseline candidate = .ok delta ∧
      SubtractsCounts baseline.findings candidate.findings delta) ∧
    (∃ numbered, fingerprintedFindings digest baseline.findings = .ok numbered ∧
      SideNumbered baseline.findings numbered) ∧
    ∃ numbered, fingerprintedFindings digest candidate.findings = .ok numbered ∧
      SideNumbered candidate.findings numbered :=
  ⟨⟨_, computeDelta_complete digest hid hb hc,
      subtractsCounts hdigest (by dsimp only) (by dsimp only) (by dsimp only)⟩,
    sideNumbered hdigest _, sideNumbered hdigest _⟩

end Sides

/-! ### A second finding of one group -/

theorem evalRule_ne : "python.eval" ≠ "" := by decide

theorem appModule_ne : "app.py" ≠ "" := by decide

theorem appModule_posix : posixPath "app.py" = "app.py" := by decide +kernel

theorem appHandler_ne : "app.handler" ≠ "" := by decide

theorem semgrep_ne : "semgrep" ≠ "" := by decide

theorem one_le_three : 1 ≤ 3 := by decide

/-- A finding of one rule in one function, on the given line. -/
def evalFinding (line : ℕ) (hline : 1 ≤ line) (severity : Severity) :
    SASTFinding (List Component) where
  ruleId := "python.eval"
  modulePath := "app.py"
  qualifiedName := "app.handler"
  normalizedText := "eval(x)"
  severity := severity
  sourceSpan := some ⟨line, 0, line, 7, hline, hline⟩
  ruleId_ne := evalRule_ne
  modulePath_ne := appModule_ne
  modulePath_posix := appModule_posix
  qualifiedName_ne := appHandler_ne

def semgrepOutput (findings : List (Finding (List Component))) :
    SensorOutput (List Component) where
  sensorId := "semgrep"
  findings := findings
  sensorId_ne := semgrep_ne
  error_findings := by simp

def oneEval : SensorOutput (List Component) :=
  semgrepOutput [.sast (evalFinding 3 one_le_three .high)]

def twoEvals : SensorOutput (List Component) :=
  semgrepOutput [.sast (evalFinding 9 (by decide) .info), .sast (evalFinding 3 one_le_three .high)]

theorem secondEval_subtracts :
    Function.Injective (id : List Component → List Component) ∧
      (∃ delta, computeDelta id oneEval twoEvals = .ok delta ∧
        SubtractsCounts oneEval.findings twoEvals.findings delta) ∧
      (∃ numbered, fingerprintedFindings id oneEval.findings = .ok numbered ∧
        SideNumbered oneEval.findings numbered) ∧
      ∃ numbered, fingerprintedFindings id twoEvals.findings = .ok numbered ∧
        SideNumbered twoEvals.findings numbered :=
  ⟨Function.injective_id, computeDelta_subtracts Function.injective_id rfl rfl rfl⟩

end SemanticCi.Ssp
