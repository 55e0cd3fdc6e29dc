import SemanticCi.Library.Front
import SemanticCi.Verification.Ssp.Representatives

/-! What the order in which a sensor lists its findings decides: never which identities are
added or removed, only which finding stands for an identity, and through its severity the
status. -/

namespace SemanticCi.Ssp

open OrderedDict Front

variable {Digest : Type} {digest : List Component → Digest}

/-! ### The identities do not depend on the order -/

theorem scaOf_perm {xs ys : List (Finding Digest)} (h : xs.Perm ys) :
    (scaOf xs).Perm (scaOf ys) := h.filterMap _

theorem sastOf_perm {xs ys : List (Finding Digest)} (h : xs.Perm ys) :
    (sastOf xs).Perm (sastOf ys) := h.filterMap _

theorem mem_advisoryKeys_perm {xs ys : List (Finding Digest)} (h : xs.Perm ys) (a : Advisory) :
    a ∈ (scaOf xs).map advisoryKey ↔ a ∈ (scaOf ys).map advisoryKey :=
  ((scaOf_perm h).map advisoryKey).mem_iff

theorem spanlessOf_perm {xs ys : List (SASTFinding Digest)} (h : xs.Perm ys) (g : SastGroup) :
    (spanlessOf xs g).Perm (spanlessOf ys g) := h.filter _

theorem spansOf_perm {xs ys : List (SASTFinding Digest)} (h : xs.Perm ys) (g : SastGroup) :
    (spansOf xs g).Perm (spansOf ys g) := ((h.filter _).filterMap _).dedup

theorem groupSize_perm {xs ys : List (SASTFinding Digest)} (h : xs.Perm ys) (g : SastGroup) :
    groupSize xs g = groupSize ys g := by
  rw [groupSize, groupSize, (spanlessOf_perm h g).length_eq, (spansOf_perm h g).length_eq]

section Identities

variable [LinearOrder Digest]

theorem mem_sideDict_keys_iff {findings : List (Finding Digest)} {fp : Digest} :
    fp ∈ (sideDict digest findings).keys ↔
      (∃ g k, fp = groupFingerprint digest g k ∧ k < groupSize (sastOf findings) g) ∨
        ∃ a ∈ (scaOf findings).map advisoryKey, fp = advisoryFingerprint digest a := by
  refine ⟨sideDict_keys_cases, ?_⟩
  rintro (⟨g, k, rfl, hk⟩ | ⟨a, ha, rfl⟩)
  · obtain ⟨s, hs, rfl, hordinal⟩ := exists_assigned_of_lt digest hk
    obtain ⟨j, -, hj, hfp⟩ := assigned_fingerprint digest hs
    rw [hordinal, Option.some.injEq] at hj
    exact mem_sideDict_keys.mpr ⟨.sast s, (mem_side_sast digest).mpr hs, hj ▸ hfp⟩
  · obtain ⟨raw, hraw, rfl⟩ := List.mem_map.mp ha
    exact mem_sideDict_keys.mpr ⟨_, (mem_side_sca digest).mpr ⟨raw, hraw, rfl⟩, rfl⟩

theorem sideDict_keys_perm {xs ys : List (Finding Digest)} (h : xs.Perm ys) (fp : Digest) :
    fp ∈ (sideDict digest xs).keys ↔ fp ∈ (sideDict digest ys).keys := by
  simp only [mem_sideDict_keys_iff, mem_advisoryKeys_perm h, groupSize_perm (sastOf_perm h)]

theorem missingKeys_perm {b b' c c' : List (Finding Digest)} (hb : b'.Perm b) (hc : c'.Perm c) :
    sortedMissingKeys (sideDict digest c') (sideDict digest b') =
      sortedMissingKeys (sideDict digest c) (sideDict digest b) := by
  refine List.Perm.eq_of_pairwise' (r := fun a b => a ≤ b) (List.pairwise_insertionSort _ _)
    (List.pairwise_insertionSort _ _) ?_
  rw [List.perm_ext_iff_of_nodup (nodup_sortedMissingKeys _ _) (nodup_sortedMissingKeys _ _)]
  intro fp
  rw [mem_sortedMissingKeys, mem_sortedMissingKeys, sideDict_keys_perm hb, sideDict_keys_perm hc]

theorem addedFingerprints_perm {b b' c c' : List (Finding Digest)} (hb : b'.Perm b)
    (hc : c'.Perm c) :
    (addedFindings digest b' c').map Finding.fingerprint =
      (addedFindings digest b c).map Finding.fingerprint := by
  rw [addedFindings_fingerprints, addedFindings_fingerprints, missingKeys_perm hb hc]

theorem unchangedFingerprints_perm {b b' c c' : List (Finding Digest)} (hb : b'.Perm b)
    (hc : c'.Perm c) :
    (unchangedFingerprints digest b' c').length = (unchangedFingerprints digest b c).length := by
  refine List.Perm.length_eq ?_
  rw [List.perm_ext_iff_of_nodup (unchangedFingerprints_nodup digest b' c')
    (unchangedFingerprints_nodup digest b c)]
  intro fp
  rw [mem_unchangedFingerprints, mem_unchangedFingerprints, sideDict_keys_perm hb,
    sideDict_keys_perm hc]

end Identities

/-! ### Which added finding fails -/

def Failing (severity : Severity) : Prop := severity ∈ failSeverities

instance : DecidablePred Failing := fun severity => inferInstanceAs (Decidable (severity ∈ _))

/-- The first finding of an advisory. -/
def firstAdvisory (findings : List (Finding Digest)) (a : Advisory) : Option (SCAFinding Digest) :=
  (scaOf findings).find? fun f => advisoryKey f = a

/-- The spans of a group that stand for added ordinals. -/
def addedSpans (b c : List (Finding Digest)) (g : SastGroup) : List SourceSpan :=
  (sortedSpans (sastOf c) g).drop (groupSize (sastOf b) g - (spanlessOf (sastOf c) g).length)

/-- A failing finding stands for an added identity. -/
def AddsFailing (b c : List (Finding Digest)) : Prop :=
  (∃ a ∉ (scaOf b).map advisoryKey, ∃ f, firstAdvisory c a = some f ∧ Failing f.severity) ∨
    ∃ g, (∃ f ∈ (spanlessOf (sastOf c) g).drop (groupSize (sastOf b) g), Failing f.severity) ∨
      ∃ span ∈ addedSpans b c g, ∃ f, firstWithSpan (sastOf c) g span = some f ∧
        Failing f.severity

theorem firstWithSpan_isSome {findings : List (SASTFinding Digest)} {g : SastGroup}
    {span : SourceSpan} (h : span ∈ sortedSpans findings g) :
    (firstWithSpan findings g span).isSome := by
  rw [← spanItem_snd, Option.isSome_map]
  exact spanItem_isSome (mem_sortedSpans.mp h)

/-- Dropping representatives drops findings without a span first, then spans. -/
theorem mem_drop_representatives (findings : List (SASTFinding Digest)) (g : SastGroup) (n : ℕ)
    (f : SASTFinding Digest) :
    f ∈ (representatives findings g).drop n ↔
      f ∈ (spanlessOf findings g).drop n ∨
        ∃ span ∈ (sortedSpans findings g).drop (n - (spanlessOf findings g).length),
          firstWithSpan findings g span = some f := by
  have hmap : ((sortedSpans findings g).filterMap (firstWithSpan findings g)).map some =
      (sortedSpans findings g).map (firstWithSpan findings g) := by
    have hall : ∀ span ∈ sortedSpans findings g, (firstWithSpan findings g span).isSome := fun _ =>
      firstWithSpan_isSome
    revert hall
    induction sortedSpans findings g with
    | nil => simp
    | cons span spans ih =>
      intro hall
      obtain ⟨first, hfirst⟩ := Option.isSome_iff_exists.mp (hall span List.mem_cons_self)
      simp [hfirst, ih fun s hs => hall s (List.mem_cons_of_mem span hs)]
  rw [representatives, List.drop_append, List.mem_append]
  refine or_congr Iff.rfl ?_
  rw [← List.mem_map_of_injective (Option.some_injective _), List.map_drop, hmap,
    ← List.map_drop, List.mem_map]

section Status

variable [LinearOrder Digest] (hdigest : Function.Injective digest)

include hdigest

/-- Under the fingerprint of an advisory a side holds the first finding of it. -/
theorem find?_side_advisory (c : List (Finding Digest)) (a : Advisory) :
    (keyed (sideFindings digest c)).find? (fun item => item.1 = advisoryFingerprint digest a) =
      (firstAdvisory c a).map fun raw =>
        (advisoryFingerprint digest a, .sca (withFingerprint digest raw)) := by
  have hsast : (keyed ((assignSastOrdinals digest (sastOf c)).map Finding.sast)).find?
      (fun item => item.1 = advisoryFingerprint digest a) = none := by
    rw [List.find?_eq_none]
    rintro ⟨fp, f⟩ hitem
    obtain ⟨hf, hfp⟩ := mem_keyed.mp hitem
    obtain ⟨s, hs, rfl⟩ := List.mem_map.mp hf
    obtain ⟨k, -, -, hk⟩ := assigned_fingerprint digest hs
    have heq : fp = groupFingerprint digest (sastGroupKey s) k :=
      Option.some.inj (hfp.symm.trans hk)
    simp [heq, groupFingerprint_ne_advisory hdigest]
  have hsca : keyed ((scaOf c).map fun raw => Finding.sca (withFingerprint digest raw)) =
      (scaOf c).map fun raw => (advisoryFingerprint digest (advisoryKey raw),
        Finding.sca (withFingerprint digest raw)) := by
    rw [keyed, List.filterMap_map, ← List.filterMap_eq_map]
    rfl
  have happend : keyed (sideFindings digest c) =
      keyed ((assignSastOrdinals digest (sastOf c)).map Finding.sast) ++
        keyed ((scaOf c).map fun raw => Finding.sca (withFingerprint digest raw)) :=
    List.filterMap_append ..
  rw [happend, List.find?_append, hsast, Option.none_or, hsca, List.find?_map]
  simp only [Function.comp_def, advisoryFingerprint_inj hdigest, firstAdvisory]
  cases hfind : (scaOf c).find? fun f => advisoryKey f = a with
  | none => rfl
  | some raw =>
    have hkey : advisoryKey raw = a := by simpa using List.find?_some hfind
    simp [hkey]

theorem mem_added_sca {b c : List (Finding Digest)} {s : SCAFinding Digest} :
    .sca s ∈ addedFindings digest b c ↔
      ∃ a ∉ (scaOf b).map advisoryKey, ∃ raw, firstAdvisory c a = some raw ∧
        withFingerprint digest raw = s := by
  rw [addedFindings, List.mem_map]
  constructor
  · rintro ⟨⟨fp, f⟩, hitem, rfl⟩
    obtain ⟨hmissing, hfind⟩ := (mem_missingValues_indexBy _ _ _ _).mp hitem
    obtain ⟨hside, hfp⟩ := mem_keyed.mp (List.mem_of_find?_eq_some hfind)
    obtain ⟨raw, hraw, rfl⟩ := (mem_side_sca digest).mp hside
    have heq : fp = advisoryFingerprint digest (advisoryKey raw) := (Option.some.inj hfp).symm
    subst heq
    rw [find?_side_advisory hdigest] at hfind
    obtain ⟨first, hfirst, hpair⟩ := Option.map_eq_some_iff.mp hfind
    refine ⟨advisoryKey raw, fun h => hmissing ((advisoryFingerprint_mem hdigest).mpr h), first,
      hfirst, ?_⟩
    exact Finding.sca.inj (Prod.mk.inj hpair).2
  · rintro ⟨a, ha, raw, hraw, rfl⟩
    refine ⟨(advisoryFingerprint digest a, .sca (withFingerprint digest raw)), ?_, rfl⟩
    refine (mem_missingValues_indexBy _ _ _ _).mpr
      ⟨fun h => ha ((advisoryFingerprint_mem hdigest).mp h), ?_⟩
    rw [find?_side_advisory hdigest, hraw]
    rfl

theorem hasFailing_iff (b c : List (Finding Digest)) :
    hasFailing (addedFindings digest b c) ↔ AddsFailing b c := by
  have hsca : (∃ s, .sca s ∈ addedFindings digest b c ∧ Failing s.severity) ↔
      ∃ a ∉ (scaOf b).map advisoryKey, ∃ f, firstAdvisory c a = some f ∧ Failing f.severity := by
    simp only [mem_added_sca hdigest]
    constructor
    · rintro ⟨_, ⟨a, ha, raw, hraw, rfl⟩, hfail⟩
      exact ⟨a, ha, raw, hraw, hfail⟩
    · rintro ⟨a, ha, raw, hraw, hfail⟩
      exact ⟨_, ⟨a, ha, raw, hraw, rfl⟩, hfail⟩
  have hsast : (∃ s, .sast s ∈ addedFindings digest b c ∧ Failing s.severity) ↔
      ∃ g, ∃ f ∈ (representatives (sastOf c) g).drop (groupSize (sastOf b) g),
        Failing f.severity := by
    simp only [← exists_numbered_iff digest, mem_added_sast hdigest]
    constructor
    · rintro ⟨s, ⟨hs, hk⟩, hfail⟩
      refine ⟨sastGroupKey s, s, ?_, hk, hfail⟩
      exact (assigned_group_perm digest _ _).mem_iff.mp (List.mem_filter.mpr ⟨hs, by simp⟩)
    · rintro ⟨g, s, hs, hk, hfail⟩
      obtain ⟨hmem, hgroup⟩ := List.mem_filter.mp
        ((assigned_group_perm digest _ _).mem_iff.mpr hs)
      exact ⟨s, ⟨hmem, (of_decide_eq_true hgroup).symm ▸ hk⟩, hfail⟩
  rw [hasFailing, List.any_eq_true]
  simp only [decide_eq_true_eq]
  constructor
  · rintro ⟨s | s, hs, hfail⟩
    · obtain ⟨g, f, hf, hfail⟩ := hsast.mp ⟨s, hs, hfail⟩
      refine Or.inr ⟨g, ?_⟩
      rcases (mem_drop_representatives _ _ _ f).mp hf with hspanless | ⟨span, hspan, hfirst⟩
      · exact Or.inl ⟨f, hspanless, hfail⟩
      · exact Or.inr ⟨span, hspan, f, hfirst, hfail⟩
    · exact Or.inl (hsca.mp ⟨s, hs, hfail⟩)
  · rintro (h | ⟨g, ⟨f, hf, hfail⟩ | ⟨span, hspan, f, hfirst, hfail⟩⟩)
    · obtain ⟨s, hs, hfail⟩ := hsca.mpr h
      exact ⟨_, hs, hfail⟩
    · obtain ⟨s, hs, hfail⟩ := hsast.mpr
        ⟨g, f, (mem_drop_representatives _ _ _ f).mpr (Or.inl hf), hfail⟩
      exact ⟨_, hs, hfail⟩
    · obtain ⟨s, hs, hfail⟩ := hsast.mpr
        ⟨g, f, (mem_drop_representatives _ _ _ f).mpr (Or.inr ⟨span, hspan, hfirst⟩), hfail⟩
      exact ⟨_, hs, hfail⟩

end Status

/-! ### Findings that share an identity -/

/-- Some finding that an order can make stand for an added identity fails. -/
def MayFail (b c : List (Finding Digest)) : Prop :=
  (∃ f ∈ scaOf c, advisoryKey f ∉ (scaOf b).map advisoryKey ∧ Failing f.severity) ∨
    ∃ g, (groupSize (sastOf b) g < (spanlessOf (sastOf c) g).length ∧
        ∃ f ∈ spanlessOf (sastOf c) g, Failing f.severity) ∨
      ∃ span ∈ addedSpans b c g, ∃ f ∈ sastOf c, sastGroupKey f = g ∧
        f.sourceSpan = some span ∧ Failing f.severity

/-- A failing finding stands for an added identity in every order: all findings of an
identity fail, or too few findings without a span pass to cover the added ordinals. -/
def MustFail (b c : List (Finding Digest)) : Prop :=
  (∃ a ∈ (scaOf c).map advisoryKey, a ∉ (scaOf b).map advisoryKey ∧
      ∀ f ∈ scaOf c, advisoryKey f = a → Failing f.severity) ∨
    ∃ g, groupSize (sastOf b) g <
        (spanlessOf (sastOf c) g).countP (fun f => Failing f.severity) ∨
      ∃ span ∈ addedSpans b c g, ∀ f ∈ sastOf c, sastGroupKey f = g →
        f.sourceSpan = some span → Failing f.severity

theorem firstAdvisory_eq_some {c : List (Finding Digest)} {a : Advisory} {f : SCAFinding Digest}
    (h : firstAdvisory c a = some f) : f ∈ scaOf c ∧ advisoryKey f = a :=
  ⟨List.mem_of_find?_eq_some h, by simpa using List.find?_some h⟩

theorem firstWithSpan_eq_some {findings : List (SASTFinding Digest)} {g : SastGroup}
    {span : SourceSpan} {f : SASTFinding Digest} (h : firstWithSpan findings g span = some f) :
    f ∈ findings ∧ sastGroupKey f = g ∧ f.sourceSpan = some span :=
  ⟨List.mem_of_find?_eq_some h, by simpa using List.find?_some h⟩

theorem mem_sortedSpans_of_added {b c : List (Finding Digest)} {g : SastGroup} {span : SourceSpan}
    (h : span ∈ addedSpans b c g) : span ∈ sortedSpans (sastOf c) g := List.mem_of_mem_drop h

theorem AddsFailing.mayFail {b c : List (Finding Digest)} (h : AddsFailing b c) :
    MayFail b c := by
  rcases h with ⟨a, ha, f, hfirst, hfail⟩ | ⟨g, ⟨f, hf, hfail⟩ | ⟨span, hspan, f, hfirst, hfail⟩⟩
  · obtain ⟨hf, rfl⟩ := firstAdvisory_eq_some hfirst
    exact Or.inl ⟨f, hf, ha, hfail⟩
  · have hlength : groupSize (sastOf b) g < (spanlessOf (sastOf c) g).length := by
      have hpos := List.length_pos_of_mem hf
      rw [List.length_drop] at hpos
      omega
    exact Or.inr ⟨g, Or.inl ⟨hlength, f, List.mem_of_mem_drop hf, hfail⟩⟩
  · obtain ⟨hf, hgroup, hfspan⟩ := firstWithSpan_eq_some hfirst
    exact Or.inr ⟨g, Or.inr ⟨span, hspan, f, hf, hgroup, hfspan, hfail⟩⟩

theorem MustFail.addsFailing {b c : List (Finding Digest)} (h : MustFail b c) :
    AddsFailing b c := by
  rcases h with ⟨a, ha, hnew, hall⟩ | ⟨g, hcount | ⟨span, hspan, hall⟩⟩
  · obtain ⟨raw, hraw, rfl⟩ := List.mem_map.mp ha
    have hsome : (firstAdvisory c (advisoryKey raw)).isSome := by
      rw [firstAdvisory, List.find?_isSome]
      exact ⟨raw, hraw, by simp⟩
    obtain ⟨f, hfirst⟩ := Option.isSome_iff_exists.mp hsome
    obtain ⟨hf, hkey⟩ := firstAdvisory_eq_some hfirst
    exact Or.inl ⟨_, hnew, f, hfirst, hall f hf hkey⟩
  · -- the first `groupSize` findings do not hold all failing ones
    by_contra hnone
    have hpass : ∀ f ∈ (spanlessOf (sastOf c) g).drop (groupSize (sastOf b) g),
        ¬ Failing f.severity := fun f hf hfail => hnone (Or.inr ⟨g, Or.inl ⟨f, hf, hfail⟩⟩)
    have hzero : ((spanlessOf (sastOf c) g).drop (groupSize (sastOf b) g)).countP
        (fun f => Failing f.severity) = 0 :=
      List.countP_eq_zero.mpr fun f hf => by simpa using hpass f hf
    have hsplit := @List.countP_append _ (fun f => decide (Failing f.severity))
      ((spanlessOf (sastOf c) g).take (groupSize (sastOf b) g))
      ((spanlessOf (sastOf c) g).drop (groupSize (sastOf b) g))
    have htake := List.countP_le_length (p := fun f => decide (Failing f.severity))
      (l := (spanlessOf (sastOf c) g).take (groupSize (sastOf b) g))
    rw [List.take_append_drop, hzero] at hsplit
    rw [List.length_take] at htake
    omega
  · obtain ⟨f, hfirst⟩ := Option.isSome_iff_exists.mp
      (firstWithSpan_isSome (mem_sortedSpans_of_added hspan))
    obtain ⟨hf, hgroup, hfspan⟩ := firstWithSpan_eq_some hfirst
    exact Or.inr ⟨g, Or.inr ⟨span, hspan, f, hfirst, hall f hf hgroup hfspan⟩⟩

/-! ### Neither depends on the order -/

theorem sortedSpans_perm {xs ys : List (SASTFinding Digest)} (h : xs.Perm ys) (g : SastGroup) :
    sortedSpans xs g = sortedSpans ys g := by
  have : IsTrans SourceSpan fun a b => a.sortKey ≤ b.sortKey := ⟨fun _ _ _ => le_trans⟩
  have : Std.Total fun a b : SourceSpan => a.sortKey ≤ b.sortKey := ⟨fun _ _ => le_total _ _⟩
  refine List.Perm.eq_of_pairwise ?_ (List.pairwise_insertionSort _ _)
    (List.pairwise_insertionSort _ _)
    ((List.perm_insertionSort _ _).trans
      ((spansOf_perm h g).trans (List.perm_insertionSort _ _).symm))
  exact fun a b _ _ hab hba => sourceSpan_sortKey_injective (le_antisymm hab hba)

section Perm

variable {b b' c c' : List (Finding Digest)} (hb : b'.Perm b) (hc : c'.Perm c)

include hb hc

theorem addedSpans_perm (g : SastGroup) : addedSpans b' c' g = addedSpans b c g := by
  rw [addedSpans, addedSpans, sortedSpans_perm (sastOf_perm hc), groupSize_perm (sastOf_perm hb),
    (spanlessOf_perm (sastOf_perm hc) g).length_eq]

theorem mayFail_perm : MayFail b' c' ↔ MayFail b c := by
  have hspanless (g : SastGroup) := spanlessOf_perm (sastOf_perm hc) g
  simp only [MayFail, addedSpans_perm hb hc, mem_advisoryKeys_perm hb, (scaOf_perm hc).mem_iff,
    groupSize_perm (sastOf_perm hb), (sastOf_perm hc).mem_iff, (hspanless _).length_eq,
    (hspanless _).mem_iff]

theorem mustFail_perm : MustFail b' c' ↔ MustFail b c := by
  have hspanless (g : SastGroup) := spanlessOf_perm (sastOf_perm hc) g
  simp only [MustFail, addedSpans_perm hb hc, mem_advisoryKeys_perm hb, mem_advisoryKeys_perm hc,
    (scaOf_perm hc).mem_iff, groupSize_perm (sastOf_perm hb), (sastOf_perm hc).mem_iff,
    (hspanless _).countP_eq]

end Perm

/-! ### The best and the worst order -/

/-- The findings whose first occurrence stands for all that share its identity. -/
def Spanned : Finding Digest → Prop
  | .sast f => f.sourceSpan ≠ none
  | .sca _ => True

instance : DecidablePred (@Spanned Digest)
  | .sast f => inferInstanceAs (Decidable (f.sourceSpan ≠ none))
  | .sca _ => inferInstanceAs (Decidable True)

section Arrange

variable (P : Severity → Prop) [DecidablePred P]

/-- The order that makes severities of `P` stand for added identities: first among the findings
of one span or advisory, last among the findings without a span. -/
def arrange (c : List (Finding Digest)) : List (Finding Digest) :=
  front (fun f => P f.severity ↔ Spanned f) c

theorem arrange_perm (c : List (Finding Digest)) : (arrange P c).Perm c := front_perm _ c

theorem scaOf_arrange (c : List (Finding Digest)) :
    scaOf (arrange P c) = front (fun f => P f.severity) (scaOf c) := by
  refine filterMap_front Finding.sca? ?_ c
  rintro (f | f) f' h
  · cases h
  · cases h
    simp [Spanned, Finding.severity]

theorem sastOf_arrange (c : List (Finding Digest)) :
    sastOf (arrange P c) =
      front (fun f => P f.severity ↔ f.sourceSpan ≠ none) (sastOf c) := by
  refine filterMap_front Finding.sast? ?_ c
  rintro (f | f) f' h
  · cases h
    rfl
  · cases h

theorem spanlessOf_arrange (c : List (Finding Digest)) (g : SastGroup) :
    spanlessOf (sastOf (arrange P c)) g =
      front (fun f => ¬ P f.severity) (spanlessOf (sastOf c) g) := by
  rw [sastOf_arrange, spanlessOf, filter_front]
  refine front_congr fun f hf => ?_
  have hspan : f.sourceSpan = none := (of_decide_eq_true (List.mem_filter.mp hf).2).2
  simp [hspan]

variable {P}

theorem firstAdvisory_arrange {c : List (Finding Digest)} {f : SCAFinding Digest}
    (hf : f ∈ scaOf c) (hp : P f.severity) :
    ∃ first, firstAdvisory (arrange P c) (advisoryKey f) = some first ∧ P first.severity := by
  rw [firstAdvisory, scaOf_arrange]
  exact find?_front ⟨f, hf, by simp, hp⟩

theorem firstWithSpan_arrange {c : List (Finding Digest)} {f : SASTFinding Digest}
    {span : SourceSpan} (hf : f ∈ sastOf c) (hspan : f.sourceSpan = some span)
    (hp : P f.severity) :
    ∃ first, firstWithSpan (sastOf (arrange P c)) (sastGroupKey f) span = some first ∧
      P first.severity := by
  have hfront := find?_front (p := fun f : SASTFinding Digest => P f.severity ↔ f.sourceSpan ≠ none)
    (q := fun other => sastGroupKey other = sastGroupKey f ∧ other.sourceSpan = some span)
    ⟨f, hf, by simp [hspan], by simp [hspan, hp]⟩
  obtain ⟨first, hfirst, hprefers⟩ := hfront
  rw [← sastOf_arrange] at hfirst
  refine ⟨first, hfirst, hprefers.mpr ?_⟩
  simp [(firstWithSpan_eq_some hfirst).2.2]

end Arrange

theorem addedSpans_arrange (P : Severity → Prop) [DecidablePred P] (b c : List (Finding Digest))
    (g : SastGroup) : addedSpans b (arrange P c) g = addedSpans b c g :=
  addedSpans_perm (.refl b) (arrange_perm P c) g

theorem MayFail.arranged {b c : List (Finding Digest)} (h : MayFail b c) :
    AddsFailing b (arrange Failing c) := by
  rcases h with ⟨f, hf, hnew, hfail⟩ | ⟨g, ⟨hlt, f, hf, hfail⟩ | ⟨span, hspan, f, hf, rfl, hfspan,
    hfail⟩⟩
  · obtain ⟨first, hfirst, hfail⟩ := firstAdvisory_arrange hf hfail
    exact Or.inl ⟨_, hnew, first, hfirst, hfail⟩
  · obtain ⟨last, hlast, hfail⟩ := exists_mem_drop_front
      (p := fun f : SASTFinding Digest => ¬ Failing f.severity) hlt ⟨f, hf, not_not_intro hfail⟩
    rw [← spanlessOf_arrange] at hlast
    exact Or.inr ⟨g, Or.inl ⟨last, hlast, not_not.mp hfail⟩⟩
  · obtain ⟨first, hfirst, hfail⟩ := firstWithSpan_arrange hf hfspan hfail
    refine Or.inr ⟨_, Or.inr ⟨span, ?_, first, hfirst, hfail⟩⟩
    rwa [addedSpans_arrange]

theorem not_addsFailing_arranged {b c : List (Finding Digest)} (h : ¬ MustFail b c) :
    ¬ AddsFailing b (arrange (fun s => ¬ Failing s) c) := by
  rintro (⟨a, hnew, f, hfirst, hfail⟩ | ⟨g, ⟨f, hf, hfail⟩ | ⟨span, hspan, f, hfirst, hfail⟩⟩)
  · obtain ⟨hf, rfl⟩ := firstAdvisory_eq_some hfirst
    have hmem : f ∈ scaOf c := (scaOf_perm (arrange_perm _ c)).mem_iff.mp hf
    refine h (Or.inl ⟨_, List.mem_map_of_mem hmem, hnew, fun raw hraw hkey => ?_⟩)
    by_contra hpass
    obtain ⟨first, hfirst', hpass⟩ := firstAdvisory_arrange
      (P := fun s => ¬ Failing s) hraw hpass
    rw [hkey, hfirst, Option.some.injEq] at hfirst'
    exact hpass (hfirst' ▸ hfail)
  · refine h (Or.inr ⟨g, Or.inl ?_⟩)
    by_contra hcount
    rw [spanlessOf_arrange] at hf
    simp only [not_not] at hf
    exact not_mem_drop_front (not_lt.mp hcount) f hf hfail
  · obtain ⟨hf, rfl, hfspan⟩ := firstWithSpan_eq_some hfirst
    rw [addedSpans_arrange] at hspan
    refine h (Or.inr ⟨_, Or.inr ⟨span, hspan, fun raw hraw hgroup hrawSpan => ?_⟩⟩)
    by_contra hpass
    obtain ⟨first, hfirst', hpass⟩ := firstWithSpan_arrange
      (P := fun s => ¬ Failing s) hraw hrawSpan hpass
    rw [hgroup, hfirst, Option.some.injEq] at hfirst'
    exact hpass (hfirst' ▸ hfail)

/-! ### The delta under reordered findings -/

/-- The same output with its findings in another order. -/
def SensorOutput.reorder (output : SensorOutput Digest) (findings : List (Finding Digest))
    (h : findings.Perm output.findings) : SensorOutput Digest where
  sensorId := output.sensorId
  sensorVersion := output.sensorVersion
  status := output.status
  findings := findings
  errorMessage := output.errorMessage
  sensorId_ne := output.sensorId_ne
  error_findings := fun herror => by
    rw [output.error_findings herror] at h
    exact h.eq_nil

/-- Two deltas that add, remove and keep the same identities. -/
structure SameIdentities (delta delta' : SSPDelta Digest) : Prop where
  added : delta'.added.map Finding.fingerprint = delta.added.map Finding.fingerprint
  removed : delta'.removed.map Finding.fingerprint = delta.removed.map Finding.fingerprint
  unchanged : delta'.unchangedCount = delta.unchangedCount

variable [LinearOrder Digest]

/-- The status of a delta. -/
def deltaStatus (delta : Except SspError (SSPDelta Digest)) : Option SSPResult :=
  delta.toOption.map (·.status)

theorem deltaStatus_complete {b c : SensorOutput Digest} (hdigest : Function.Injective digest)
    (hid : b.sensorId = c.sensorId) (hb : b.status = .complete) (hc : c.status = .complete) :
    deltaStatus (computeDelta digest b c) = some .fail ∧ AddsFailing b.findings c.findings ∨
      deltaStatus (computeDelta digest b c) = some .pass ∧
        ¬ AddsFailing b.findings c.findings := by
  rw [computeDelta_complete digest hid hb hc, ← hasFailing_iff hdigest]
  cases hfail : hasFailing (addedFindings digest b.findings c.findings) with
  | true => exact Or.inl ⟨rfl, rfl⟩
  | false => exact Or.inr ⟨rfl, by simp⟩

theorem sameIdentities {b b' c c' : List (Finding Digest)} {delta delta' : SSPDelta Digest}
    (hb : b'.Perm b) (hc : c'.Perm c) (hadded : delta.added = addedFindings digest b c)
    (hadded' : delta'.added = addedFindings digest b' c')
    (hremoved : delta.removed = addedFindings digest c b)
    (hremoved' : delta'.removed = addedFindings digest c' b')
    (hunchanged : delta.unchangedCount = (unchangedFingerprints digest b c).length)
    (hunchanged' : delta'.unchangedCount = (unchangedFingerprints digest b' c').length) :
    SameIdentities delta delta' where
  added := by rw [hadded, hadded', addedFingerprints_perm hb hc]
  removed := by rw [hremoved, hremoved', addedFingerprints_perm hc hb]
  unchanged := by rw [hunchanged, hunchanged', unchangedFingerprints_perm hb hc]

/-- No order changes the added, removed and unchanged identities. The status is the same in
every order when a failing finding that may stand for an added identity is one that must. -/
theorem computeDelta_reorder {b c : SensorOutput Digest} (hid : b.sensorId = c.sensorId)
    (hb : b.status = .complete) (hc : c.status = .complete) :
    (∀ bs cs hbs hcs, ∃ delta delta',
      computeDelta digest b c = .ok delta ∧
      computeDelta digest (b.reorder bs hbs) (c.reorder cs hcs) = .ok delta' ∧
      SameIdentities delta delta') ∧
    (Function.Injective digest →
      ((∀ bs cs hbs hcs, deltaStatus (computeDelta digest (b.reorder bs hbs) (c.reorder cs hcs)) =
          deltaStatus (computeDelta digest b c)) ↔
        (MayFail b.findings c.findings → MustFail b.findings c.findings))) := by
  constructor
  · intro bs cs hbs hcs
    exact ⟨_, _, computeDelta_complete digest hid hb hc, computeDelta_complete digest hid hb hc,
      sameIdentities hbs hcs (by dsimp only) (by dsimp only [SensorOutput.reorder])
        (by dsimp only) (by dsimp only [SensorOutput.reorder]) (by dsimp only)
        (by dsimp only [SensorOutput.reorder])⟩
  · intro hdigest
    constructor
    · intro hsame hmay
      by_contra hmust
      -- the worst and the best order of the candidate disagree
      have hworst := hsame b.findings (arrange Failing c.findings) (List.Perm.refl _)
        (arrange_perm _ _)
      have hbest := hsame b.findings (arrange (fun s => ¬ Failing s) c.findings)
        (List.Perm.refl _) (arrange_perm _ _)
      rcases deltaStatus_complete (b := b.reorder _ (List.Perm.refl _))
        (c := c.reorder _ (arrange_perm Failing _)) hdigest hid hb hc with
        ⟨hfail, -⟩ | ⟨-, hadds⟩
      case inr => exact hadds hmay.arranged
      rcases deltaStatus_complete (b := b.reorder _ (List.Perm.refl _))
        (c := c.reorder _ (arrange_perm (fun s => ¬ Failing s) _)) hdigest hid hb hc with
        ⟨-, hadds⟩ | ⟨hpass, -⟩
      case inl => exact not_addsFailing_arranged hmust hadds
      rw [hfail] at hworst
      rw [hpass, ← hworst] at hbest
      cases hbest
    · intro hmust bs cs hbs hcs
      have hinvariant : ∀ {bs cs}, bs.Perm b.findings → cs.Perm c.findings →
          (AddsFailing bs cs ↔ MayFail b.findings c.findings) := by
        intro bs cs hbs hcs
        constructor
        · exact fun h => (mayFail_perm hbs hcs).mp h.mayFail
        · intro h
          exact ((mustFail_perm hbs hcs).mpr (hmust h)).addsFailing
      have hiff := (hinvariant hbs hcs).trans
        (hinvariant (List.Perm.refl _) (List.Perm.refl _)).symm
      rcases deltaStatus_complete (b := b.reorder bs hbs) (c := c.reorder cs hcs) hdigest hid hb hc
        with ⟨h, hadds⟩ | ⟨h, hadds⟩
      · rcases deltaStatus_complete hdigest hid hb hc with ⟨h', -⟩ | ⟨-, hnot⟩
        · rw [h, h']
        · exact absurd (hiff.mp hadds) hnot
      · rcases deltaStatus_complete hdigest hid hb hc with ⟨-, hadds'⟩ | ⟨h', -⟩
        · exact absurd (hiff.mpr hadds') hadds
        · rw [h, h']

/-! ### Two findings on one span -/

/-- One span under two severities, the passing one first. -/
def infoThenHigh : SensorOutput (List Component) :=
  semgrepOutput [.sast (evalFinding 3 one_le_three .info), .sast (evalFinding 3 one_le_three .high)]

theorem infoThenHigh_swap :
    [.sast (evalFinding 3 (by decide) .high), .sast (evalFinding 3 (by decide) .info)].Perm
      infoThenHigh.findings := List.Perm.swap ..

theorem computeDelta_reorder_infoThenHigh :
    (∀ bs cs hbs hcs, ∃ delta delta',
      computeDelta id (semgrepOutput []) infoThenHigh = .ok delta ∧
      computeDelta id ((semgrepOutput []).reorder bs hbs) (infoThenHigh.reorder cs hcs) =
        .ok delta' ∧
      SameIdentities delta delta') ∧
    (Function.Injective (id : List Component → List Component) →
      ((∀ bs cs hbs hcs, deltaStatus (computeDelta id ((semgrepOutput []).reorder bs hbs)
          (infoThenHigh.reorder cs hcs)) =
          deltaStatus (computeDelta id (semgrepOutput []) infoThenHigh)) ↔
        (MayFail (semgrepOutput []).findings infoThenHigh.findings →
          MustFail (semgrepOutput []).findings infoThenHigh.findings))) :=
  computeDelta_reorder rfl rfl rfl

/-- The status of a repeated span follows the order of the sensor. -/
theorem swap_changes_status :
    deltaStatus (computeDelta id (semgrepOutput []) infoThenHigh) = some .pass ∧
      deltaStatus (computeDelta id (semgrepOutput [])
        (infoThenHigh.reorder _ infoThenHigh_swap)) = some .fail := by
  decide +kernel

end SemanticCi.Ssp
