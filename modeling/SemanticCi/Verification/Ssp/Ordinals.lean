import SemanticCi.Model.Ssp

/-! The ordinals of one side: every group is numbered from zero without a gap, and its size
only depends on which findings there are. -/

namespace SemanticCi.Ssp

open OrderedDict

variable {Digest : Type}

/-! ### The size of a group -/

def spanlessOf (findings : List (SASTFinding Digest)) (g : SastGroup) :
    List (SASTFinding Digest) :=
  findings.filter fun f => sastGroupKey f = g ∧ f.sourceSpan = none

/-- The source spans of a group, each once. -/
def spansOf (findings : List (SASTFinding Digest)) (g : SastGroup) : List SourceSpan :=
  ((findings.filter fun f => sastGroupKey f = g).filterMap (·.sourceSpan)).dedup

/-- The number of findings of a group without the repeated source spans. -/
def groupSize (findings : List (SASTFinding Digest)) (g : SastGroup) : ℕ :=
  (spanlessOf findings g).length + (spansOf findings g).length

/-! ### Enumerated findings -/

theorem enumerate_map_snd {α : Type*} (items : List α) : (enumerate items).map Prod.snd = items := by
  simp [enumerate, Function.comp_def]

theorem enumerate_map_fst {α : Type*} (items : List α) :
    (enumerate items).map Prod.fst = List.range items.length := by
  rw [enumerate, List.map_map, List.range_eq_range']
  exact List.zipIdx_map_snd ..

theorem enumerate_fst_nodup {α : Type*} (items : List α) : ((enumerate items).map Prod.fst).Nodup := by
  rw [enumerate_map_fst]
  exact List.nodup_range

/-! ### The unique findings -/

theorem sourceSpan_sortKey_injective : Function.Injective SourceSpan.sortKey := by
  rintro ⟨_, _, _, _, _, _⟩ ⟨_, _, _, _, _, _⟩ h
  simp only [SourceSpan.sortKey, EmbeddingLike.apply_eq_iff_eq, Prod.mk.injEq] at h
  obtain ⟨rfl, rfl, rfl, rfl⟩ := h
  rfl

theorem uniqueFindings_sublist (findings : List (SASTFinding Digest)) :
    (uniqueFindings findings).Sublist (enumerate findings) := values_indexBy_sublist ..

/-- A finding without a span is never dropped. -/
theorem mem_unique_of_spanless {findings : List (SASTFinding Digest)}
    {item : ℕ × SASTFinding Digest} (hitem : item ∈ enumerate findings)
    (hspan : item.2.sourceSpan = none) : item ∈ uniqueFindings findings := by
  rw [uniqueFindings, mem_values_indexBy]
  cases hfind : (enumerate findings).find?
      fun other => sastDedupKey other.2 other.1 = sastDedupKey item.2 item.1 with
  | none => exact absurd (by simp) (List.find?_eq_none.mp hfind item hitem)
  | some other =>
    have hkey : sastDedupKey other.2 other.1 = sastDedupKey item.2 item.1 := by
      simpa using List.find?_some hfind
    have hindex : other.1 = item.1 := by
      have hspanKey := (Prod.mk.inj hkey).2
      cases hother : other.2.sourceSpan with
      | none => simpa [spanKey, hspan, hother] using hspanKey
      | some span => simp [spanKey, hspan, hother] at hspanKey
    have hsame : other = item :=
      List.inj_on_of_nodup_map (enumerate_fst_nodup findings) (List.mem_of_find?_eq_some hfind)
        hitem hindex
    rw [hsame]

/-- A span of a group is kept once. -/
theorem exists_unique_of_span {findings : List (SASTFinding Digest)} {f : SASTFinding Digest}
    {span : SourceSpan} (hf : f ∈ findings) (hspan : f.sourceSpan = some span) :
    ∃ item ∈ uniqueFindings findings,
      sastGroupKey item.2 = sastGroupKey f ∧ item.2.sourceSpan = some span := by
  rw [← enumerate_map_snd findings] at hf
  obtain ⟨item, hitem, rfl⟩ := List.mem_map.mp hf
  have hsome : ((enumerate findings).find? fun other =>
      sastDedupKey other.2 other.1 = sastDedupKey item.2 item.1).isSome := by
    rw [List.find?_isSome]
    exact ⟨item, hitem, by simp⟩
  obtain ⟨first, hfirst⟩ := Option.isSome_iff_exists.mp hsome
  have hkey : sastDedupKey first.2 first.1 = sastDedupKey item.2 item.1 := by
    simpa using List.find?_some hfirst
  refine ⟨first, ?_, (Prod.mk.inj hkey).1, ?_⟩
  · rw [uniqueFindings, mem_values_indexBy, hkey]
    exact hfirst
  · have hspanKey := (Prod.mk.inj hkey).2
    cases hfound : first.2.sourceSpan with
    | none => simp [spanKey, hspan, hfound] at hspanKey
    | some found =>
      have hsort : found.sortKey = span.sortKey := by simpa [spanKey, hspan, hfound] using hspanKey
      rw [sourceSpan_sortKey_injective hsort]

/-! ### The size of a numbered group -/

def uniqueGroup (findings : List (SASTFinding Digest)) (g : SastGroup) :
    List (ℕ × SASTFinding Digest) :=
  (uniqueFindings findings).filter fun item => sastGroupKey item.2 = g

theorem enumerate_nodup {α : Type*} (items : List α) : (enumerate items).Nodup :=
  List.Nodup.of_map _ (enumerate_fst_nodup items)

theorem uniqueGroup_nodup (findings : List (SASTFinding Digest)) (g : SastGroup) :
    (uniqueGroup findings g).Nodup :=
  ((uniqueFindings_sublist findings).nodup (enumerate_nodup findings)).filter _

/-- The findings of a group without a span, in the order of the sensor. -/
theorem uniqueGroup_spanless (findings : List (SASTFinding Digest)) (g : SastGroup) :
    ((uniqueGroup findings g).filter fun item => item.2.sourceSpan = none).map Prod.snd =
      spanlessOf findings g := by
  have hsub : ((uniqueGroup findings g).filter fun item => item.2.sourceSpan = none).Sublist
      ((enumerate findings).filter fun item =>
        sastGroupKey item.2 = g ∧ item.2.sourceSpan = none) := by
    have hfilter := (uniqueFindings_sublist findings).filter fun item =>
      decide (sastGroupKey item.2 = g ∧ item.2.sourceSpan = none)
    simpa [uniqueGroup, List.filter_filter, and_comm] using hfilter
  have hall : (enumerate findings).filter (fun item =>
      sastGroupKey item.2 = g ∧ item.2.sourceSpan = none) ⊆
        (uniqueGroup findings g).filter fun item => item.2.sourceSpan = none := by
    intro item hitem
    simp only [List.mem_filter, decide_eq_true_eq] at hitem
    simp only [uniqueGroup, List.mem_filter, decide_eq_true_eq]
    exact ⟨⟨mem_unique_of_spanless hitem.1 hitem.2.2, hitem.2.1⟩, hitem.2.2⟩
  have hlength := (List.subperm_of_subset ((enumerate_nodup findings).filter _) hall).length_le
  rw [hsub.eq_of_length_le hlength, spanlessOf]
  conv_rhs => rw [← enumerate_map_snd findings]
  rw [List.filter_map]
  rfl

theorem mem_spansOf {findings : List (SASTFinding Digest)} {g : SastGroup} {span : SourceSpan} :
    span ∈ spansOf findings g ↔
      ∃ f ∈ findings, sastGroupKey f = g ∧ f.sourceSpan = some span := by
  simp [spansOf, and_assoc]

theorem mem_findings_of_unique {findings : List (SASTFinding Digest)}
    {item : ℕ × SASTFinding Digest} (h : item ∈ uniqueFindings findings) : item.2 ∈ findings := by
  rw [← enumerate_map_snd findings]
  exact List.mem_map_of_mem ((uniqueFindings_sublist findings).subset h)

/-- Two unique findings of one group have different spans. -/
theorem unique_span_inj {findings : List (SASTFinding Digest)} {a b : ℕ × SASTFinding Digest}
    {span : SourceSpan} (ha : a ∈ uniqueFindings findings) (hb : b ∈ uniqueFindings findings)
    (hgroup : sastGroupKey a.2 = sastGroupKey b.2) (hspan : a.2.sourceSpan = some span)
    (hspan' : b.2.sourceSpan = some span) : a = b := by
  refine List.inj_on_of_nodup_map (nodup_values_indexBy _ _) ha hb ?_
  simp [sastDedupKey, spanKey, hgroup, hspan, hspan']

theorem uniqueGroup_spans_perm (findings : List (SASTFinding Digest)) (g : SastGroup) :
    ((uniqueGroup findings g).filterMap fun item => item.2.sourceSpan).Perm
      (spansOf findings g) := by
  have hnodup : ((uniqueGroup findings g).filterMap fun item => item.2.sourceSpan).Nodup := by
    refine List.pairwise_filterMap.mpr ((uniqueGroup_nodup findings g).imp_of_mem ?_)
    rintro a b ha hb hne span hspan other hother rfl
    obtain ⟨ha, hgroup⟩ := List.mem_filter.mp ha
    obtain ⟨hb, hgroup'⟩ := List.mem_filter.mp hb
    exact hne (unique_span_inj ha hb
      ((of_decide_eq_true hgroup).trans (of_decide_eq_true hgroup').symm) hspan hother)
  have hspans : (spansOf findings g).Nodup := List.nodup_dedup _
  rw [List.perm_ext_iff_of_nodup hnodup hspans]
  intro span
  rw [List.mem_filterMap, mem_spansOf]
  constructor
  · rintro ⟨item, hitem, hspan⟩
    obtain ⟨hunique, hgroup⟩ := List.mem_filter.mp hitem
    exact ⟨item.2, mem_findings_of_unique hunique, of_decide_eq_true hgroup, hspan⟩
  · rintro ⟨f, hf, hgroup, hspan⟩
    obtain ⟨item, hitem, hsame, hitemSpan⟩ := exists_unique_of_span hf hspan
    exact ⟨item, List.mem_filter.mpr ⟨hitem, decide_eq_true (hsame.trans hgroup)⟩, hitemSpan⟩

theorem length_uniqueGroup (findings : List (SASTFinding Digest)) (g : SastGroup) :
    (uniqueGroup findings g).length = groupSize findings g := by
  rw [groupSize, ← uniqueGroup_spanless, ← (uniqueGroup_spans_perm findings g).length_eq,
    List.length_map]
  induction uniqueGroup findings g with
  | nil => rfl
  | cons item items ih =>
    cases hspan : item.2.sourceSpan <;> simp [hspan, ih] <;> omega

theorem exists_of_groupSize_pos {findings : List (SASTFinding Digest)} {g : SastGroup}
    (h : 0 < groupSize findings g) : ∃ f ∈ findings, sastGroupKey f = g := by
  rw [← length_uniqueGroup, List.length_pos_iff_exists_mem] at h
  obtain ⟨item, hitem⟩ := h
  obtain ⟨hunique, hgroup⟩ := List.mem_filter.mp hitem
  exact ⟨item.2, mem_findings_of_unique hunique, of_decide_eq_true hgroup⟩

/-! ### Assigned ordinals -/

variable (digest : List Component → Digest)

theorem sortGroup_perm (group : List (ℕ × SASTFinding Digest)) : (sortGroup group).Perm group :=
  List.perm_insertionSort ..

/-- The numbered findings of one group. -/
def numberedGroup (findings : List (SASTFinding Digest)) (g : SastGroup) :
    List (SASTFinding Digest) :=
  (enumerate (sortGroup (uniqueGroup findings g))).map fun item =>
    withOrdinal digest item.2.2 item.1

@[simp] theorem sastGroupKey_withOrdinal (f : SASTFinding Digest) (k : ℕ) :
    sastGroupKey (withOrdinal digest f k) = sastGroupKey f := rfl

theorem sastGroupKey_of_mem_numbered {findings : List (SASTFinding Digest)} {g : SastGroup}
    {f : SASTFinding Digest} (h : f ∈ numberedGroup digest findings g) : sastGroupKey f = g := by
  obtain ⟨item, hitem, rfl⟩ := List.mem_map.mp h
  have hsorted : item.2 ∈ sortGroup (uniqueGroup findings g) := by
    rw [← enumerate_map_snd (sortGroup (uniqueGroup findings g))]
    exact List.mem_map_of_mem hitem
  have hunique := (sortGroup_perm _).mem_iff.mp hsorted
  exact of_decide_eq_true (List.mem_filter.mp hunique).2

/-- The groups of the assigned findings, in the order of their first findings. -/
def assignedGroups (findings : List (SASTFinding Digest)) : List SastGroup :=
  (groupBy (fun item : ℕ × SASTFinding Digest => sastGroupKey item.2)
    (uniqueFindings findings)).keys

theorem assigned_perm (findings : List (SASTFinding Digest)) :
    (assignSastOrdinals digest findings).Perm
      ((assignedGroups findings).flatMap (numberedGroup digest findings)) := by
  refine ((List.perm_insertionSort _ _).map Prod.snd).trans ?_
  rw [values_groupBy, List.flatMap_map, List.map_flatMap]
  refine List.Perm.of_eq (List.flatMap_congr fun k _ => ?_)
  simp only [assignGroup, numberedGroup, uniqueGroup, List.map_map]
  rfl

/-- The findings of one group among the assigned ones are its unique findings, numbered in
the order of their spans. -/
theorem assigned_group_perm (findings : List (SASTFinding Digest)) (g : SastGroup) :
    ((assignSastOrdinals digest findings).filter fun f => sastGroupKey f = g).Perm
      (numberedGroup digest findings g) := by
  refine ((assigned_perm digest findings).filter _).trans (List.Perm.of_eq ?_)
  have hnodup : (assignedGroups findings).Nodup := nodup_keys _
  rw [filter_flatMap_keyed (fun _ _ => sastGroupKey_of_mem_numbered digest) hnodup]
  split
  case isTrue => rfl
  case isFalse hmiss =>
    have hempty : uniqueGroup findings g = [] := by
      rw [List.eq_nil_iff_forall_not_mem]
      intro item hitem
      obtain ⟨hunique, hgroup⟩ := List.mem_filter.mp hitem
      exact hmiss ((mem_keys_groupBy _ _ _).mpr ⟨item, hunique, of_decide_eq_true hgroup⟩)
    simp [numberedGroup, hempty, sortGroup, enumerate]

theorem numberedGroup_ordinals (findings : List (SASTFinding Digest)) (g : SastGroup) :
    (numberedGroup digest findings g).map (·.ordinal) =
      (List.range (groupSize findings g)).map some := by
  rw [numberedGroup, List.map_map, ← length_uniqueGroup, ← (sortGroup_perm _).length_eq,
    ← enumerate_map_fst, List.map_map]
  rfl

/-- No two assigned findings share a group and an ordinal. -/
theorem assigned_identity_nodup (findings : List (SASTFinding Digest)) :
    ((assignSastOrdinals digest findings).map fun f => (sastGroupKey f, f.ordinal)).Nodup := by
  refine (((assigned_perm digest findings).map _).nodup_iff).mpr ?_
  have hgroup : ∀ g, (numberedGroup digest findings g).map (fun f => (sastGroupKey f, f.ordinal)) =
      (List.range (groupSize findings g)).map fun k => (g, some k) := by
    intro g
    have hkey : (numberedGroup digest findings g).map (fun f => (sastGroupKey f, f.ordinal)) =
        (numberedGroup digest findings g).map fun f => (g, f.ordinal) :=
      List.map_congr_left fun f hf => by rw [sastGroupKey_of_mem_numbered digest hf]
    have hordinals := congrArg (List.map fun o => (g, o)) (numberedGroup_ordinals digest findings g)
    rw [hkey]
    simpa [List.map_map, Function.comp_def] using hordinals
  rw [List.map_flatMap]
  simp only [hgroup]
  rw [List.nodup_flatMap]
  refine ⟨fun g _ => List.nodup_range.map fun j k h => Option.some.inj (Prod.mk.inj h).2,
    (nodup_keys _).imp fun {_ _} hne => ?_⟩
  rw [Function.onFun, List.disjoint_left]
  intro item hitem hitem'
  obtain ⟨j, -, rfl⟩ := List.mem_map.mp hitem
  obtain ⟨k, -, heq⟩ := List.mem_map.mp hitem'
  exact hne (Prod.mk.inj heq).1.symm

/-- The ordinals of a group are `0 .. n - 1`. -/
theorem assigned_ordinals_perm (findings : List (SASTFinding Digest)) (g : SastGroup) :
    (((assignSastOrdinals digest findings).filter fun f => sastGroupKey f = g).map
      (·.ordinal)).Perm ((List.range (groupSize findings g)).map some) := by
  rw [← numberedGroup_ordinals digest]
  exact (assigned_group_perm digest findings g).map _

/-- The fingerprint of the finding with one ordinal in a group. -/
def groupFingerprint (g : SastGroup) (k : ℕ) : Digest :=
  sastFingerprint digest g.ruleId g.modulePath g.qualifiedName g.normalizedText k

/-- Every assigned finding carries an ordinal below the size of its group, and the
fingerprint made of the two. -/
theorem assigned_fingerprint {findings : List (SASTFinding Digest)} {f : SASTFinding Digest}
    (h : f ∈ assignSastOrdinals digest findings) :
    ∃ k < groupSize findings (sastGroupKey f), f.ordinal = some k ∧
      f.fingerprint = some (groupFingerprint digest (sastGroupKey f) k) := by
  have hmem : f ∈ numberedGroup digest findings (sastGroupKey f) :=
    (assigned_group_perm digest findings _).mem_iff.mp (List.mem_filter.mpr ⟨h, by simp⟩)
  have hordinal : f.ordinal ∈ (List.range (groupSize findings (sastGroupKey f))).map some := by
    rw [← numberedGroup_ordinals digest]
    exact List.mem_map_of_mem hmem
  obtain ⟨k, hk, heq⟩ := List.mem_map.mp hordinal
  obtain ⟨item, -, hitem⟩ := List.mem_map.mp hmem
  refine ⟨k, List.mem_range.mp hk, heq.symm, ?_⟩
  rw [← hitem] at heq ⊢
  have hindex : k = item.1 := Option.some.inj heq
  rw [hindex]
  rfl

theorem exists_assigned_of_lt {findings : List (SASTFinding Digest)} {g : SastGroup} {k : ℕ}
    (h : k < groupSize findings g) :
    ∃ f ∈ assignSastOrdinals digest findings, sastGroupKey f = g ∧ f.ordinal = some k := by
  have hmem : some k ∈ ((assignSastOrdinals digest findings).filter fun f =>
      sastGroupKey f = g).map (·.ordinal) := by
    rw [(assigned_ordinals_perm digest findings g).mem_iff]
    exact List.mem_map_of_mem (List.mem_range.mpr h)
  obtain ⟨f, hf, hordinal⟩ := List.mem_map.mp hmem
  obtain ⟨hf, hgroup⟩ := List.mem_filter.mp hf
  exact ⟨f, hf, of_decide_eq_true hgroup, hordinal⟩

end SemanticCi.Ssp
