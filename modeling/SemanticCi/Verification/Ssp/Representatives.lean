import SemanticCi.Verification.Ssp.Counts

/-! Which finding stands for which ordinal: the findings without a span in the order of the
sensor, then the first finding of every span in the order of the spans. -/

namespace SemanticCi.Ssp

open OrderedDict

variable {Digest : Type}

/-- The spans of a group from first to last. -/
def sortedSpans (findings : List (SASTFinding Digest)) (g : SastGroup) : List SourceSpan :=
  (spansOf findings g).insertionSort fun a b => a.sortKey ≤ b.sortKey

def firstWithSpan (findings : List (SASTFinding Digest)) (g : SastGroup) (span : SourceSpan) :
    Option (SASTFinding Digest) :=
  findings.find? fun f => sastGroupKey f = g ∧ f.sourceSpan = some span

/-! ### The unique finding of a span -/

def spanItem (findings : List (SASTFinding Digest)) (g : SastGroup) (span : SourceSpan) :
    Option (ℕ × SASTFinding Digest) :=
  (uniqueGroup findings g).find? fun item => item.2.sourceSpan = some span

theorem find?_enumerate {α : Type*} (items : List α) (p : α → Bool) :
    ((enumerate items).find? fun item => p item.2).map Prod.snd = items.find? p := by
  conv_rhs => rw [← enumerate_map_snd items]
  rw [List.find?_map]
  rfl

theorem mem_uniqueGroup {findings : List (SASTFinding Digest)} {g : SastGroup}
    {item : ℕ × SASTFinding Digest} :
    item ∈ uniqueGroup findings g ↔ item ∈ uniqueFindings findings ∧ sastGroupKey item.2 = g := by
  simp [uniqueGroup]

/-- A dedup key with a span asks for the group and the span. -/
theorem sastDedupKey_eq_iff {f f' : SASTFinding Digest} {i j : ℕ} {span : SourceSpan}
    (hspan : f'.sourceSpan = some span) :
    sastDedupKey f i = sastDedupKey f' j ↔
      sastGroupKey f = sastGroupKey f' ∧ f.sourceSpan = some span := by
  cases hf : f.sourceSpan with
  | none => simp [sastDedupKey, spanKey, hspan, hf]
  | some other =>
    simp [sastDedupKey, spanKey, hspan, hf, sourceSpan_sortKey_injective.eq_iff]

theorem spanItem_snd (findings : List (SASTFinding Digest)) (g : SastGroup) (span : SourceSpan) :
    (spanItem findings g span).map Prod.snd = firstWithSpan findings g span := by
  cases hitem : spanItem findings g span with
  | none =>
    symm
    rw [Option.map_none, firstWithSpan, List.find?_eq_none]
    intro f hf
    simp only [decide_eq_true_eq]
    rintro ⟨rfl, hspan⟩
    obtain ⟨item, hunique, hgroup, hitemSpan⟩ := exists_unique_of_span hf hspan
    exact absurd (by simp [hitemSpan]) (List.find?_eq_none.mp hitem item
      (mem_uniqueGroup.mpr ⟨hunique, hgroup⟩))
  | some item =>
    have hspan : item.2.sourceSpan = some span := by simpa using List.find?_some hitem
    obtain ⟨hunique, rfl⟩ := mem_uniqueGroup.mp (List.mem_of_find?_eq_some hitem)
    have hfirst := (mem_values_indexBy _ _ item).mp hunique
    simp only [sastDedupKey_eq_iff hspan] at hfirst
    rw [firstWithSpan, ← find?_enumerate]
    rw [hfirst]

theorem spanItem_isSome {findings : List (SASTFinding Digest)} {g : SastGroup}
    {span : SourceSpan} (h : span ∈ spansOf findings g) : (spanItem findings g span).isSome := by
  obtain ⟨f, hf, rfl, hspan⟩ := mem_spansOf.mp h
  obtain ⟨item, hunique, hgroup, hitemSpan⟩ := exists_unique_of_span hf hspan
  rw [spanItem, List.find?_isSome]
  exact ⟨item, mem_uniqueGroup.mpr ⟨hunique, hgroup⟩, by simp [hitemSpan]⟩

theorem mem_sortedSpans {findings : List (SASTFinding Digest)} {g : SastGroup}
    {span : SourceSpan} : span ∈ sortedSpans findings g ↔ span ∈ spansOf findings g :=
  List.mem_insertionSort _

theorem sortedSpans_nodup (findings : List (SASTFinding Digest)) (g : SastGroup) :
    (sortedSpans findings g).Nodup :=
  (List.perm_insertionSort _ _).nodup_iff.mpr (List.nodup_dedup _)

/-! ### The sorted group -/

/-- The representatives of a group in the order of their keys. -/
def representativeItems (findings : List (SASTFinding Digest)) (g : SastGroup) :
    List (ℕ × SASTFinding Digest) :=
  (uniqueGroup findings g).filter (fun item => item.2.sourceSpan = none) ++
    (sortedSpans findings g).filterMap (spanItem findings g)

theorem representativeItems_perm (findings : List (SASTFinding Digest)) (g : SastGroup) :
    (representativeItems findings g).Perm (uniqueGroup findings g) := by
  have hspanOf : ∀ {span item}, spanItem findings g span = some item →
      item ∈ uniqueGroup findings g ∧ item.2.sourceSpan = some span := fun h =>
    ⟨List.mem_of_find?_eq_some h, by simpa using List.find?_some h⟩
  have hnodup : (representativeItems findings g).Nodup := by
    refine List.nodup_append'.mpr ⟨(uniqueGroup_nodup findings g).filter _, ?_, ?_⟩
    · refine (sortedSpans_nodup findings g).filterMap fun span span' item h h' => ?_
      have hspan := (hspanOf h).2
      rw [(hspanOf h').2] at hspan
      exact (Option.some.inj hspan).symm
    · rw [List.disjoint_left]
      intro item hspanless hspanned
      obtain ⟨span, -, hspan⟩ := List.mem_filterMap.mp hspanned
      have hnone : item.2.sourceSpan = none := of_decide_eq_true (List.mem_filter.mp hspanless).2
      rw [(hspanOf hspan).2] at hnone
      cases hnone
  rw [List.perm_ext_iff_of_nodup hnodup (uniqueGroup_nodup findings g)]
  intro item
  rw [representativeItems, List.mem_append, List.mem_filter, List.mem_filterMap]
  constructor
  · rintro (⟨hitem, -⟩ | ⟨span, -, hspan⟩)
    · exact hitem
    · exact (hspanOf hspan).1
  · intro hitem
    cases hspan : item.2.sourceSpan with
    | none => exact Or.inl ⟨hitem, by simp⟩
    | some span =>
      obtain ⟨hunique, hgroup⟩ := mem_uniqueGroup.mp hitem
      have hmem : span ∈ spansOf findings g :=
        mem_spansOf.mpr ⟨item.2, mem_findings_of_unique hunique, hgroup, hspan⟩
      obtain ⟨found, hfound⟩ := Option.isSome_iff_exists.mp (spanItem_isSome hmem)
      obtain ⟨hfoundUnique, hfoundGroup⟩ := mem_uniqueGroup.mp (hspanOf hfound).1
      have hsame := unique_span_inj hunique hfoundUnique (hgroup.trans hfoundGroup.symm) hspan
        (hspanOf hfound).2
      exact Or.inr ⟨span, mem_sortedSpans.mpr hmem, hsame ▸ hfound⟩

theorem spanSortKey_none {f : SASTFinding Digest} (h : f.sourceSpan = none) (i : ℕ) :
    spanSortKey f i = toLex (toLex (0, toLex (0, toLex (0, 0))), i) := by
  rw [spanSortKey, h]

theorem spanSortKey_some {f : SASTFinding Digest} {span : SourceSpan}
    (h : f.sourceSpan = some span) (i : ℕ) : spanSortKey f i = toLex (span.sortKey, i) := by
  rw [spanSortKey, h]

theorem spanSortKey_index (f : SASTFinding Digest) (i : ℕ) : (ofLex (spanSortKey f i)).2 = i := by
  cases h : f.sourceSpan with
  | none => rw [spanSortKey_none h, ofLex_toLex]
  | some span => rw [spanSortKey_some h, ofLex_toLex]

/-- No span starts before line 1. -/
theorem zero_lt_sortKey (span : SourceSpan) :
    (toLex (0, toLex (0, toLex (0, 0))) : ℕ ×ₗ ℕ ×ₗ ℕ ×ₗ ℕ) < span.sortKey :=
  Prod.Lex.toLex_lt_toLex.mpr (Or.inl span.startLine_pos)

theorem enumerate_pairwise {α : Type*} (items : List α) :
    (enumerate items).Pairwise fun a b => a.1 < b.1 := by
  have hrange : ((enumerate items).map Prod.fst).Pairwise (· < ·) := by
    rw [enumerate_map_fst]
    exact List.pairwise_lt_range
  exact List.pairwise_map.mp hrange

theorem representativeItems_pairwise (findings : List (SASTFinding Digest)) (g : SastGroup) :
    (representativeItems findings g).Pairwise fun a b =>
      spanSortKey a.2 a.1 ≤ spanSortKey b.2 b.1 := by
  have hspanOf : ∀ {span item}, spanItem findings g span = some item →
      item.2.sourceSpan = some span := fun h => by simpa using List.find?_some h
  refine List.pairwise_append.mpr ⟨?_, ?_, ?_⟩
  · -- without spans the index decides
    have hsub := (List.filter_sublist (p := fun item : ℕ × SASTFinding Digest =>
      item.2.sourceSpan = none) (l := uniqueGroup findings g)).trans
        ((List.filter_sublist).trans (uniqueFindings_sublist findings))
    refine ((enumerate_pairwise findings).sublist hsub).imp_of_mem ?_
    intro a b ha hb hlt
    have hnone : ∀ {item}, item ∈ (uniqueGroup findings g).filter
        (fun item => item.2.sourceSpan = none) → item.2.sourceSpan = none :=
      fun h => of_decide_eq_true (List.mem_filter.mp h).2
    rw [spanSortKey_none (hnone ha), spanSortKey_none (hnone hb), Prod.Lex.toLex_le_toLex]
    exact Or.inr ⟨rfl, hlt.le⟩
  · have hsorted : (sortedSpans findings g).Pairwise fun a b => a.sortKey ≤ b.sortKey :=
      List.pairwise_insertionSort _ _
    refine List.pairwise_filterMap.mpr ((hsorted.and (sortedSpans_nodup findings g)).imp ?_)
    rintro span span' ⟨hle, hne⟩ a ha b hb
    rw [spanSortKey_some (hspanOf ha), spanSortKey_some (hspanOf hb), Prod.Lex.toLex_le_toLex]
    exact Or.inl (lt_of_le_of_ne hle fun h => hne (sourceSpan_sortKey_injective h))
  · intro a ha b hb
    obtain ⟨span, -, hspan⟩ := List.mem_filterMap.mp hb
    have hnone : a.2.sourceSpan = none := of_decide_eq_true (List.mem_filter.mp ha).2
    rw [spanSortKey_none hnone, spanSortKey_some (hspanOf hspan), Prod.Lex.toLex_le_toLex]
    exact Or.inl (zero_lt_sortKey span)

theorem sortGroup_eq (findings : List (SASTFinding Digest)) (g : SastGroup) :
    sortGroup (uniqueGroup findings g) = representativeItems findings g := by
  have hsorted : (sortGroup (uniqueGroup findings g)).Pairwise fun a b =>
      spanSortKey a.2 a.1 ≤ spanSortKey b.2 b.1 := by
    have : IsTrans (ℕ × SASTFinding Digest) fun a b =>
        spanSortKey a.2 a.1 ≤ spanSortKey b.2 b.1 := ⟨fun _ _ _ => le_trans⟩
    have : Std.Total fun a b : ℕ × SASTFinding Digest =>
        spanSortKey a.2 a.1 ≤ spanSortKey b.2 b.1 := ⟨fun _ _ => le_total _ _⟩
    exact List.pairwise_insertionSort _ _
  refine List.Perm.eq_of_pairwise ?_ hsorted (representativeItems_pairwise findings g)
    ((sortGroup_perm _).trans (representativeItems_perm findings g).symm)
  intro a b ha hb hab hba
  -- equal keys have equal indices
  have hkey := le_antisymm hab hba
  have hindex : a.1 = b.1 := by
    rw [← spanSortKey_index a.2 a.1, hkey, spanSortKey_index]
  have hunique : ∀ {item}, item ∈ uniqueGroup findings g → item ∈ enumerate findings := fun h =>
    (uniqueFindings_sublist findings).subset (mem_uniqueGroup.mp h).1
  exact List.inj_on_of_nodup_map (enumerate_fst_nodup findings)
    (hunique ((sortGroup_perm _).mem_iff.mp ha))
    (hunique ((representativeItems_perm findings g).mem_iff.mp hb)) hindex

/-- The findings of a group that stand for the ordinals from zero on. -/
def representatives (findings : List (SASTFinding Digest)) (g : SastGroup) :
    List (SASTFinding Digest) :=
  spanlessOf findings g ++ (sortedSpans findings g).filterMap (firstWithSpan findings g)

theorem sortGroup_map_snd (findings : List (SASTFinding Digest)) (g : SastGroup) :
    (sortGroup (uniqueGroup findings g)).map Prod.snd = representatives findings g := by
  rw [sortGroup_eq, representativeItems, List.map_append, uniqueGroup_spanless,
    List.map_filterMap, representatives]
  simp only [spanItem_snd]

/-- A property of a severity holds of an added ordinal when it holds of a representative
from there on. -/
theorem exists_numbered_iff (digest : List Component → Digest)
    (findings : List (SASTFinding Digest)) (g : SastGroup) (n : ℕ) (p : Severity → Prop) :
    (∃ f ∈ numberedGroup digest findings g, (∃ k, f.ordinal = some k ∧ n ≤ k) ∧ p f.severity) ↔
      ∃ f ∈ (representatives findings g).drop n, p f.severity := by
  have hmem : ∀ k x, (k, x) ∈ enumerate (sortGroup (uniqueGroup findings g)) ↔
      (sortGroup (uniqueGroup findings g))[k]? = some x := by
    intro k x
    simp [enumerate, List.mem_zipIdx_iff_getElem?]
  rw [← sortGroup_map_snd, ← List.map_drop]
  constructor
  · rintro ⟨f, hf, ⟨k, hk, hn⟩, hp⟩
    obtain ⟨⟨j, item⟩, hitem, rfl⟩ := List.mem_map.mp hf
    obtain rfl : j = k := Option.some.inj hk
    refine ⟨item.2, List.mem_map_of_mem ?_, hp⟩
    rw [List.mem_iff_getElem?]
    exact ⟨j - n, by rw [List.getElem?_drop, Nat.add_sub_cancel' hn, (hmem j item).mp hitem]⟩
  · rintro ⟨f, hf, hp⟩
    obtain ⟨item, hitem, rfl⟩ := List.mem_map.mp hf
    obtain ⟨k, hk⟩ := List.mem_iff_getElem?.mp hitem
    rw [List.getElem?_drop] at hk
    refine ⟨withOrdinal digest item.2 (n + k),
      List.mem_map.mpr ⟨(n + k, item), (hmem _ _).mpr hk, rfl⟩, ⟨n + k, rfl, by omega⟩, hp⟩

end SemanticCi.Ssp
