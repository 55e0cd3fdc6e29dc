import SemanticCi.Verification.Delta.Computed
import SemanticCi.Verification.Operators

/-! A lock on a dimension of the state is at least as strict as the delta engine: what the
lock accepts leaves the matching part of the delta empty. -/

namespace SemanticCi.Delta

open SemanticCi.Python SemanticCi.StateSchema SemanticCi.Framework SemanticCi.PathResolver
  SemanticCi.Operators OrderedDict

/-! ## Locks and the parts of a delta -/

/-- A baseline operator is satisfied on a state target. -/
def LockHolds (operator : Operator) (target : TargetPath) (b c : CodeState) : Prop :=
  ∃ vb vc o, resolveState b target = some vb ∧ resolveState c target = some vc ∧
    evaluateBaselineOperator operator vb.toPy vc.toPy = .ok o ∧ o.status = .satisfied

/-- The dimensions with a keyed part in the delta. -/
inductive Dimension where
  | apiSurface
  | effects
  | imports
  | testSurface
  | moduleGraph
  | complexity
deriving DecidableEq

namespace Dimension

def target : Dimension → TargetPath
  | apiSurface => ["api_surface"]
  | effects => ["effects"]
  | imports => ["imports"]
  | testSurface => ["test_surface"]
  | moduleGraph => ["module_graph"]
  | complexity => ["complexity"]

def addedTargets : Dimension → List TargetPath
  | apiSurface => [["api_surface_delta", "added"]]
  | effects => [["effect_changes", "added"]]
  | imports => [["imports_delta", "added"]]
  | testSurface => [["test_surface_delta", "new_files"], ["test_surface_delta", "new_cases"]]
  | moduleGraph => [["python_specific", "module_graph_delta", "added_edges"]]
  | complexity => [["python_specific", "complexity_changes", "added"]]

def removedTargets : Dimension → List TargetPath
  | apiSurface => [["api_surface_delta", "removed"]]
  | effects => [["effect_changes", "removed"]]
  | imports => [["imports_delta", "removed"]]
  | testSurface => [["test_surface_delta", "removed_cases"]]
  | moduleGraph => [["python_specific", "module_graph_delta", "removed_edges"]]
  | complexity => [["python_specific", "complexity_changes", "removed"]]

/-- Everything that the delta says about the dimension. -/
def deltaTargets : Dimension → List TargetPath
  | apiSurface =>
      [["api_surface_delta", "added"], ["api_surface_delta", "removed"],
        ["api_surface_delta", "changed"], ["decorators_delta", "added"],
        ["decorators_delta", "removed"], ["decorators_delta", "changed"]]
  | effects => [["effect_changes", "added"], ["effect_changes", "removed"]]
  | imports => [["imports_delta", "added"], ["imports_delta", "removed"]]
  | testSurface =>
      [["test_surface_delta", "new_files"], ["test_surface_delta", "new_cases"],
        ["test_surface_delta", "removed_cases"], ["python_specific", "test_surface_changes"]]
  | moduleGraph => [["python_specific", "module_graph_delta"]]
  | complexity =>
      [["complexity_delta", "cyclomatic"], ["complexity_delta", "cognitive"],
        ["python_specific", "complexity_changes"]]

end Dimension

/-- Nothing to report: an empty list or a zero. -/
def isBlank : JsonValue → Bool
  | .array [] => true
  | .int i => i = 0
  | _ => false

/-- Whatever the delta has under the target is blank. -/
def BlankAt (d : CodeStateDelta) (target : TargetPath) : Prop :=
  ∀ v, resolveDelta d target = some v → isBlank v = true

def Silent (d : CodeStateDelta) (targets : List TargetPath) : Prop :=
  ∀ target ∈ targets, BlankAt d target

/-! ## What a satisfied lock says about the records -/

section Records

variable {α : Type} {dump : α → JsonMapping} {target : TargetPath} {b c : CodeState}
  {bs cs : List α}

theorem lockHolds_records (hb : resolveState b target = some (records dump bs))
    (hc : resolveState c target = some (records dump cs)) {operator : Operator}
    (hop : operator ∈ baselineOperators) :
    LockHolds operator target b c ↔ BaselineHolds operator (jsonNorm (records dump bs))
      (jsonNorm (records dump cs)) := by
  obtain ⟨w, hw, hwnorm⟩ := canon_toPy (records dump bs)
  obtain ⟨u, hu, hunorm⟩ := canon_toPy (records dump cs)
  have hcoll : IsCollection w.norm ∧ IsCollection u.norm := by
    rw [hwnorm, hunorm]
    exact ⟨trivial, trivial⟩
  have hdecides := (decides_baselineOperator hop hw hu fun _ => hcoll).evaluateBaselineOperator
  rw [hwnorm, hunorm] at hdecides
  constructor
  · rintro ⟨vb, vc, o, hvb, hvc, ho, hstatus⟩
    obtain rfl := Option.some.inj (hb.symm.trans hvb)
    obtain rfl := Option.some.inj (hc.symm.trans hvc)
    by_contra hno
    obtain ⟨o', ho', hviolated, -⟩ := hdecides.violated hno
    obtain rfl := Except.ok.inj (ho.symm.trans ho')
    rw [hstatus] at hviolated
    cases hviolated
  · intro hholds
    obtain ⟨o, ho, hstatus, -⟩ := hdecides.satisfied hholds
    exact ⟨_, _, o, hb, hc, ho, hstatus⟩

/-- No new items: every candidate record shows as one of the baseline. -/
theorem noNewItems_iff (hb : resolveState b target = some (records dump bs))
    (hc : resolveState c target = some (records dump cs)) :
    LockHolds .noNewItems target b c ↔
      ∀ e ∈ cs, ∃ f ∈ bs, jsonNorm (.object (dump f)) = jsonNorm (.object (dump e)) := by
  rw [lockHolds_records hb hc (by decide)]
  simp [BaselineHolds, jsonNorm_records]

theorem noRemovedItems_iff (hb : resolveState b target = some (records dump bs))
    (hc : resolveState c target = some (records dump cs)) :
    LockHolds .noRemovedItems target b c ↔
      ∀ e ∈ bs, ∃ f ∈ cs, jsonNorm (.object (dump f)) = jsonNorm (.object (dump e)) := by
  rw [lockHolds_records hb hc (by decide)]
  simp [BaselineHolds, jsonNorm_records]

theorem unchanged_iff (hb : resolveState b target = some (records dump bs))
    (hc : resolveState c target = some (records dump cs)) :
    LockHolds .unchanged target b c ↔ cs.map (fun e => jsonNorm (.object (dump e))) =
      bs.map fun e => jsonNorm (.object (dump e)) := by
  rw [lockHolds_records hb hc (by decide)]
  simp [BaselineHolds, jsonNorm_records]

theorem equalsBaseline_iff (hb : resolveState b target = some (records dump bs))
    (hc : resolveState c target = some (records dump cs)) :
    LockHolds .equalsBaseline target b c ↔ cs.map (fun e => jsonNorm (.object (dump e))) =
      bs.map fun e => jsonNorm (.object (dump e)) := by
  rw [lockHolds_records hb hc (by decide)]
  simp [BaselineHolds, jsonNorm_records]

end Records

/-- Where the canonical form loses nothing, records that show as listed are listed. -/
theorem subset_of_norm {α : Type} {dump : α → JsonMapping} {xs ys : List α}
    (hinj : ∀ {x y}, jsonNorm (.object (dump x)) = jsonNorm (.object (dump y)) → x = y)
    (h : ∀ x ∈ xs, ∃ y ∈ ys, jsonNorm (.object (dump y)) = jsonNorm (.object (dump x))) :
    xs ⊆ ys := by
  intro x hx
  obtain ⟨y, hy, hnorm⟩ := h x hx
  rwa [← hinj hnorm]

theorem eq_of_norms {α : Type} {dump : α → JsonMapping} {xs ys : List α}
    (hinj : ∀ {x y}, jsonNorm (.object (dump x)) = jsonNorm (.object (dump y)) → x = y)
    (h : xs.map (fun x => jsonNorm (.object (dump x))) =
      ys.map fun y => jsonNorm (.object (dump y))) : xs = ys :=
  List.map_injective_iff.mpr (fun _ _ => hinj) h

/-! ## Effects -/

/-- Evidence as the extractor leaves it. -/
def ObjectOrNull (evidence : JsonValue) : Prop :=
  evidence = .null ∨ ∃ items, evidence = .object items

/-- The text that a normal form shows, as the effect key reads it. -/
def normText : Option Norm → String
  | some (.scalar (.str s)) => s
  | _ => ""

theorem effectResolvedCall_object {e : EffectEntry} {items : JsonMapping}
    (h : e.evidence = .object items) :
    effectResolvedCall e = normText ((JsonValue.get? items "resolved_call").map jsonNorm) := by
  rw [effectResolvedCall, h]
  cases hget : JsonValue.get? items "resolved_call" with
  | none => simp [hget, normText]
  | some v => cases v <;> simp [hget, normText, jsonNorm]

theorem effectResolvedCall_of_norm {a b : EffectEntry} (ha : ObjectOrNull a.evidence)
    (hb : ObjectOrNull b.evidence) (h : jsonNorm a.evidence = jsonNorm b.evidence) :
    effectResolvedCall a = effectResolvedCall b := by
  rcases ha with ha | ⟨xs, hxs⟩ <;> rcases hb with hb | ⟨ys, hys⟩
  · simp [effectResolvedCall, ha, hb]
  · rw [ha, hys, jsonNorm_object] at h
    simp at h
  · rw [hxs, hb, jsonNorm_object] at h
    simp at h
  · rw [hxs, hys] at h
    rw [effectResolvedCall_object hxs, effectResolvedCall_object hys,
      get?_of_jsonNorm_eq h "resolved_call"]

theorem effectKey_of_norm {a b : EffectEntry} (ha : ObjectOrNull a.evidence)
    (hb : ObjectOrNull b.evidence)
    (h : jsonNorm (.object a.dump) = jsonNorm (.object b.dump)) : effectKey a = effectKey b := by
  obtain ⟨hfqn, hclass, hevidence⟩ := effectEntry_norm_fields h
  simp only [effectKey, hfqn, hclass, effectResolvedCall_of_norm ha hb hevidence]

/-! ## Blank parts of a computed delta -/

theorem blankAt_of_resolve {d : CodeStateDelta} {target : TargetPath} {items : List JsonValue}
    (h : resolveDelta d target = some (.array items)) (hitems : items = []) :
    BlankAt d target := by
  intro v hv
  obtain rfl := Option.some.inj (h.symm.trans hv)
  rw [hitems]
  rfl

section Details

variable {b c : CodeState}

/-- A list inside one detail that is empty whenever the detail is there. -/
theorem blankAt_detailField {name key : String} {value : Option JsonMapping}
    (hdetail : JsonValue.get? (details b c) name = value.map .object)
    (h : ∀ items, value = some items → JsonValue.get? items key = some (.array [])) :
    BlankAt (computeCodeStateDelta b c) ["python_specific", name, key] := by
  intro v hv
  rw [resolveDelta_detail, hdetail] at hv
  cases value with
  | none => cases hv
  | some items =>
      rw [Option.map_some, Option.bind_some, resolveFrom_detailField, h items rfl] at hv
      obtain rfl := Option.some.inj hv
      rfl

theorem blankAt_detail {name : String} (hdetail : JsonValue.get? (details b c) name = none) :
    BlankAt (computeCodeStateDelta b c) ["python_specific", name] := by
  intro v hv
  rw [resolveDelta_detail, hdetail] at hv
  cases hv

theorem moduleGraphDelta_eq_some {b c : List ModuleGraphEntry} {items : JsonMapping}
    (h : moduleGraphDelta b c = some items) :
    items = [("added_edges",
        .array ((sortedDifference (moduleEdges c) (moduleEdges b)).map edgeValue)),
      ("removed_edges",
        .array ((sortedDifference (moduleEdges b) (moduleEdges c)).map edgeValue))] := by
  simp only [moduleGraphDelta] at h
  split at h
  · cases h
  · exact (Option.some.inj h).symm

theorem complexityChanges_eq_some {b c : List ComplexityEntry} {items : JsonMapping}
    (h : complexityChanges b c = some items) :
    JsonValue.get? items "added" = some (records ComplexityEntry.dump
        (missingValues (indexBy complexityKey c) (indexBy complexityKey b))) ∧
      JsonValue.get? items "removed" = some (records ComplexityEntry.dump
        (missingValues (indexBy complexityKey b) (indexBy complexityKey c))) := by
  simp only [complexityChanges] at h
  split at h
  · cases h
  · obtain rfl := Option.some.inj h
    exact ⟨rfl, rfl⟩

theorem moduleEdges_subset {xs ys : List ModuleGraphEntry} (h : xs ⊆ ys) :
    ∀ e ∈ moduleEdges xs, e ∈ moduleEdges ys := by
  intro e he
  obtain ⟨entry, hentry, himported⟩ := List.mem_flatMap.mp he
  exact List.mem_flatMap.mpr ⟨entry, h hentry, himported⟩

theorem missingComplexity_eq_nil {xs ys : List ComplexityEntry} (h : xs ⊆ ys) :
    missingValues (indexBy complexityKey xs) (indexBy complexityKey ys) = [] :=
  (missingValues_indexBy_eq_nil_iff _ _ _).mpr fun e he => ⟨e, h he, rfl⟩

theorem sortedDifference_map_eq_nil {α : Type} {β : Type*} [DecidableEq β] [LE β] [DecidableLE β]
    (f : α → β) {xs ys : List α} (h : xs ⊆ ys) :
    sortedDifference (xs.map f) (ys.map f) = [] :=
  (sortedDifference_eq_nil_iff _ _).mpr fun _ hx => List.map_subset f h hx

end Details

/-! ## The three locks -/

section Locks

variable {b c : CodeState} (hb : ∀ e ∈ b.effects, ObjectOrNull e.evidence)
  (hc : ∀ e ∈ c.effects, ObjectOrNull e.evidence)

include hb hc

theorem silent_of_noNewItems (x : Dimension) (h : LockHolds .noNewItems x.target b c) :
    Silent (computeCodeStateDelta b c) x.addedTargets := by
  intro target htarget
  cases x with
  | apiSurface =>
      obtain rfl := List.mem_singleton.mp htarget
      have hsub := subset_of_norm apiSurfaceEntry_norm_inj ((noNewItems_iff rfl rfl).mp h)
      refine blankAt_of_resolve rfl (List.eq_nil_iff_forall_not_mem.mpr fun v hv => ?_)
      obtain ⟨e, he, hmiss, -⟩ := (mem_apiAdded _ _ _).mp hv
      exact hmiss e (hsub he) rfl
  | effects =>
      obtain rfl := List.mem_singleton.mp htarget
      refine blankAt_of_resolve rfl ((effectAdded_eq_nil_iff _ _).mpr fun e he => ?_)
      obtain ⟨f, hf, hnorm⟩ := (noNewItems_iff rfl rfl).mp h e he
      exact ⟨f, hf, effectKey_of_norm (hb f hf) (hc e he) hnorm⟩
  | imports =>
      obtain rfl := List.mem_singleton.mp htarget
      have hsub := subset_of_norm importEntry_norm_inj ((noNewItems_iff rfl rfl).mp h)
      exact blankAt_of_resolve rfl
        ((importsAdded_eq_nil_iff _ _).mpr fun e he => ⟨e, hsub he, rfl⟩)
  | testSurface =>
      have hsub := subset_of_norm testSurfaceEntry_norm_inj ((noNewItems_iff rfl rfl).mp h)
      simp only [Dimension.addedTargets, List.mem_cons, List.not_mem_nil, or_false] at htarget
      rcases htarget with rfl | rfl
      · exact blankAt_of_resolve rfl
          (congrArg (List.map JsonValue.str) (sortedDifference_map_eq_nil _ hsub))
      · exact blankAt_of_resolve rfl
          (congrArg (List.map JsonValue.str) (sortedDifference_map_eq_nil _ hsub))
  | moduleGraph =>
      obtain rfl := List.mem_singleton.mp htarget
      have hsub := subset_of_norm moduleGraphEntry_norm_inj ((noNewItems_iff rfl rfl).mp h)
      refine blankAt_detailField (get?_details b c).1 fun items hitems => ?_
      rw [moduleGraphDelta_eq_some hitems,
        (sortedDifference_eq_nil_iff _ _).mpr (moduleEdges_subset hsub)]
      rfl
  | complexity =>
      obtain rfl := List.mem_singleton.mp htarget
      have hsub := subset_of_norm complexityEntry_norm_inj ((noNewItems_iff rfl rfl).mp h)
      refine blankAt_detailField (get?_details b c).2.1 fun items hitems => ?_
      rw [(complexityChanges_eq_some hitems).1, missingComplexity_eq_nil hsub]
      rfl

theorem silent_of_noRemovedItems (x : Dimension) (h : LockHolds .noRemovedItems x.target b c) :
    Silent (computeCodeStateDelta b c) x.removedTargets := by
  intro target htarget
  cases x with
  | apiSurface =>
      obtain rfl := List.mem_singleton.mp htarget
      have hsub := subset_of_norm apiSurfaceEntry_norm_inj ((noRemovedItems_iff rfl rfl).mp h)
      refine blankAt_of_resolve rfl (List.eq_nil_iff_forall_not_mem.mpr fun v hv => ?_)
      obtain ⟨e, he, hmiss, -⟩ := (mem_apiRemoved _ _ _).mp hv
      exact hmiss e (hsub he) rfl
  | effects =>
      obtain rfl := List.mem_singleton.mp htarget
      refine blankAt_of_resolve rfl ((effectRemoved_eq_nil_iff _ _).mpr fun e he => ?_)
      obtain ⟨f, hf, hnorm⟩ := (noRemovedItems_iff rfl rfl).mp h e he
      exact ⟨f, hf, effectKey_of_norm (hc f hf) (hb e he) hnorm⟩
  | imports =>
      obtain rfl := List.mem_singleton.mp htarget
      have hsub := subset_of_norm importEntry_norm_inj ((noRemovedItems_iff rfl rfl).mp h)
      exact blankAt_of_resolve rfl
        ((importsRemoved_eq_nil_iff _ _).mpr fun e he => ⟨e, hsub he, rfl⟩)
  | testSurface =>
      obtain rfl := List.mem_singleton.mp htarget
      have hsub := subset_of_norm testSurfaceEntry_norm_inj ((noRemovedItems_iff rfl rfl).mp h)
      exact blankAt_of_resolve rfl
        (congrArg (List.map JsonValue.str) (sortedDifference_map_eq_nil _ hsub))
  | moduleGraph =>
      obtain rfl := List.mem_singleton.mp htarget
      have hsub := subset_of_norm moduleGraphEntry_norm_inj ((noRemovedItems_iff rfl rfl).mp h)
      refine blankAt_detailField (get?_details b c).1 fun items hitems => ?_
      rw [moduleGraphDelta_eq_some hitems,
        (sortedDifference_eq_nil_iff _ _).mpr (moduleEdges_subset hsub)]
      rfl
  | complexity =>
      obtain rfl := List.mem_singleton.mp htarget
      have hsub := subset_of_norm complexityEntry_norm_inj ((noRemovedItems_iff rfl rfl).mp h)
      refine blankAt_detailField (get?_details b c).2.1 fun items hitems => ?_
      rw [(complexityChanges_eq_some hitems).2, missingComplexity_eq_nil hsub]
      rfl

/-- An unchanged dimension leaves no trace in the delta. Effects are only equal up to their
evidence, everything else is equal record by record. -/
theorem silent_of_unchanged (x : Dimension) (h : LockHolds .unchanged x.target b c) :
    Silent (computeCodeStateDelta b c) x.deltaTargets := by
  intro target htarget
  cases x with
  | apiSurface =>
      have heq := eq_of_norms apiSurfaceEntry_norm_inj ((unchanged_iff rfl rfl).mp h)
      have hdelta : (computeCodeStateDelta b c).apiSurfaceDelta = {} := by
        simp only [computeCodeStateDelta, heq, apiSurfaceDelta_self]
      have hdecorators : (computeCodeStateDelta b c).decoratorsDelta = {} := by
        simp only [computeCodeStateDelta, heq, decoratorsDelta_of_public_eq]
      simp only [Dimension.deltaTargets, List.mem_cons, List.not_mem_nil, or_false] at htarget
      rcases htarget with rfl | rfl | rfl | rfl | rfl | rfl
      · exact blankAt_of_resolve rfl (congrArg SymbolDelta.added hdelta)
      · exact blankAt_of_resolve rfl (congrArg SymbolDelta.removed hdelta)
      · exact blankAt_of_resolve rfl (congrArg SymbolDelta.changed hdelta)
      · exact blankAt_of_resolve rfl (congrArg SymbolDelta.added hdecorators)
      · exact blankAt_of_resolve rfl (congrArg SymbolDelta.removed hdecorators)
      · exact blankAt_of_resolve rfl (congrArg SymbolDelta.changed hdecorators)
  | effects =>
      have hnorms := (unchanged_iff rfl rfl).mp h
      have hadded : LockHolds .noNewItems ["effects"] b c := by
        rw [noNewItems_iff rfl rfl]
        intro e he
        have hmem : jsonNorm (.object e.dump) ∈ c.effects.map fun e => jsonNorm (.object e.dump) :=
          List.mem_map_of_mem he
        rw [hnorms] at hmem
        exact List.mem_map.mp hmem
      have hremoved : LockHolds .noRemovedItems ["effects"] b c := by
        rw [noRemovedItems_iff rfl rfl]
        intro e he
        have hmem : jsonNorm (.object e.dump) ∈ b.effects.map fun e => jsonNorm (.object e.dump) :=
          List.mem_map_of_mem he
        rw [← hnorms] at hmem
        exact List.mem_map.mp hmem
      simp only [Dimension.deltaTargets, List.mem_cons, List.not_mem_nil, or_false] at htarget
      rcases htarget with rfl | rfl
      · exact silent_of_noNewItems hb hc .effects hadded _ (List.mem_singleton.mpr rfl)
      · exact silent_of_noRemovedItems hb hc .effects hremoved _ (List.mem_singleton.mpr rfl)
  | imports =>
      have heq := eq_of_norms importEntry_norm_inj ((unchanged_iff rfl rfl).mp h)
      have hdelta : (computeCodeStateDelta b c).importsDelta = {} := by
        simp only [computeCodeStateDelta, heq, importsDelta_self]
      simp only [Dimension.deltaTargets, List.mem_cons, List.not_mem_nil, or_false] at htarget
      rcases htarget with rfl | rfl
      · exact blankAt_of_resolve rfl (congrArg ImportDelta.added hdelta)
      · exact blankAt_of_resolve rfl (congrArg ImportDelta.removed hdelta)
  | testSurface =>
      have heq := eq_of_norms testSurfaceEntry_norm_inj ((unchanged_iff rfl rfl).mp h)
      have hdelta : (computeCodeStateDelta b c).testSurfaceDelta = {} := by
        simp only [computeCodeStateDelta, heq, testSurfaceDelta_self]
      simp only [Dimension.deltaTargets, List.mem_cons, List.not_mem_nil, or_false] at htarget
      rcases htarget with rfl | rfl | rfl | rfl
      · exact blankAt_of_resolve rfl (congrArg (fun d => d.newFiles.map JsonValue.str) hdelta)
      · exact blankAt_of_resolve rfl (congrArg (fun d => d.newCases.map JsonValue.str) hdelta)
      · exact blankAt_of_resolve rfl (congrArg (fun d => d.removedCases.map JsonValue.str) hdelta)
      · exact blankAt_detail (by rw [(get?_details b c).2.2, heq, testSurfaceChanges_self]; rfl)
  | moduleGraph =>
      have heq := eq_of_norms moduleGraphEntry_norm_inj ((unchanged_iff rfl rfl).mp h)
      obtain rfl := List.mem_singleton.mp htarget
      exact blankAt_detail (by rw [(get?_details b c).1, heq, moduleGraphDelta_self]; rfl)
  | complexity =>
      have heq := eq_of_norms complexityEntry_norm_inj ((unchanged_iff rfl rfl).mp h)
      have hdelta : (computeCodeStateDelta b c).complexityDelta = {} := by
        simp only [computeCodeStateDelta, heq, complexityDelta_self]
      have hzero {field : String} {i : ℤ} (hresolve : resolveDelta (computeCodeStateDelta b c)
          ["complexity_delta", field] = some (.int i)) (hi : i = 0) :
          BlankAt (computeCodeStateDelta b c) ["complexity_delta", field] := by
        intro v hv
        obtain rfl := Option.some.inj (hresolve.symm.trans hv)
        simp [isBlank, hi]
      simp only [Dimension.deltaTargets, List.mem_cons, List.not_mem_nil, or_false] at htarget
      rcases htarget with rfl | rfl | rfl
      · exact hzero rfl (congrArg ComplexityDelta.cyclomatic hdelta)
      · exact hzero rfl (congrArg ComplexityDelta.cognitive hdelta)
      · exact blankAt_detail (by rw [(get?_details b c).2.1, heq, complexityChanges_self]; rfl)

end Locks

/-! ## The lock on the public surface -/

/-- The records that one side of a changed entry lists. -/
def payloadRecords : JsonValue → List JsonValue
  | .array items => items
  | payload => [payload]

def variantsBefore (entry : JsonValue) : List JsonValue :=
  payloadRecords ((field entry "before").getD .null)

def variantsAfter (entry : JsonValue) : List JsonValue :=
  payloadRecords ((field entry "after").getD .null)

theorem isPublic_apiVariantDump (e : APISurfaceEntry) :
    isPublic (apiVariantDump e) = decide (e.visibility = some "public") := by
  have hfield : field (apiVariantDump e) "visibility" = some (.ofOption .str e.visibility) := rfl
  rw [isPublic, hfield]
  cases e.visibility <;> simp [JsonValue.ofOption]

theorem payloadRecords_apiChangedPayload (entries : List APISurfaceEntry) (forceList : Bool)
    (hlist : forceList = false → entries.length = 1) :
    payloadRecords (apiChangedPayload entries forceList) =
      (sortApiEntries entries).map apiVariantDump := by
  cases forceList with
  | true => rfl
  | false =>
      have hlength : (sortApiEntries entries).length = 1 := by
        rw [(sortApiEntries_perm entries).length_eq]
        exact hlist rfl
      obtain ⟨e, he⟩ := List.length_eq_one_iff.mp hlength
      simp only [apiChangedPayload, he]
      rfl

/-- A changed entry lists the variants of both groups. -/
theorem variants_apiChangedEntry (key : String ×ₗ String) (bs cs : List APISurfaceEntry) :
    variantsBefore (apiChangedEntry key bs cs) = (sortApiEntries bs).map apiVariantDump ∧
      variantsAfter (apiChangedEntry key bs cs) = (sortApiEntries cs).map apiVariantDump := by
  constructor
  · refine payloadRecords_apiChangedPayload bs _ fun h => ?_
    by_contra hne
    simp [hne] at h
  · refine payloadRecords_apiChangedPayload cs _ fun h => ?_
    by_contra hne
    simp [hne] at h

/-- The public variants of a group, in any order. -/
theorem publicVariants_perm (entries : List APISurfaceEntry) :
    (((sortApiEntries entries).map apiVariantDump).filter isPublic).Perm
      ((publicEntries entries).map apiVariantDump) := by
  have hfilter : (entries.map apiVariantDump).filter isPublic =
      (publicEntries entries).map apiVariantDump := by
    rw [List.filter_map, publicEntries]
    congr 1
    exact List.filter_congr fun e _ => isPublic_apiVariantDump e
  rw [← hfilter]
  exact ((sortApiEntries_perm entries).map _).filter _

theorem publicEntries_filter (entries : List APISurfaceEntry) (key : String ×ₗ String) :
    publicEntries (entries.filter fun e => apiKey e = key) =
      (publicEntries entries).filter fun e => apiKey e = key := List.filter_comm ..

theorem publicEntries_eq_self {entries : List APISurfaceEntry}
    (h : ∀ e ∈ entries, e.visibility = some "public") : publicEntries entries = entries :=
  List.filter_eq_self.mpr (by simpa using h)

/-- What a changed entry may say under a lock on the public surface: its public variants are
the same on both sides, and what changed is a variant that is not public. -/
structure PublicPartKept (entry : JsonValue) : Prop where
  same : ((variantsBefore entry).filter isPublic).Perm ((variantsAfter entry).filter isPublic)
  beside : ∃ r ∈ variantsBefore entry ++ variantsAfter entry, isPublic r = false

section PublicSurface

variable {b c : CodeState}

theorem publicEntries_eq_of_lock (h : LockHolds .equalsBaseline ["api_surface_public"] b c) :
    publicEntries c.apiSurface = publicEntries b.apiSurface :=
  eq_of_norms apiSurfaceEntry_norm_inj ((equalsBaseline_iff (resolveState_apiSurfacePublic b)
    (resolveState_apiSurfacePublic c)).mp h)

/-- A public record whose key one side lacks would be missing among its public records. -/
theorem missing_not_public {left right : List APISurfaceEntry} {v : JsonValue}
    (hpublic : publicEntries left = publicEntries right)
    (hv : ∃ e ∈ left, (∀ f ∈ right, apiKey f ≠ apiKey e) ∧ v = apiVariantDump e) :
    isPublic v = false := by
  obtain ⟨e, he, hmiss, rfl⟩ := hv
  rw [isPublic_apiVariantDump, decide_eq_false_iff_not]
  intro hvisibility
  have hmem : e ∈ publicEntries left := List.mem_filter.mpr ⟨he, by simpa using hvisibility⟩
  rw [hpublic] at hmem
  exact hmiss e (List.mem_filter.mp hmem).1 rfl

theorem changed_publicPartKept {bs cs : List APISurfaceEntry}
    (hpublic : publicEntries cs = publicEntries bs) :
    ∀ entry ∈ (apiSurfaceDelta bs cs).changed, PublicPartKept entry := by
  intro entry hentry
  obtain ⟨key, -, -, hdiff, rfl⟩ := (mem_apiChanged _ _ _).mp hentry
  obtain ⟨hbefore, hafter⟩ := variants_apiChangedEntry key (bs.filter fun e => apiKey e = key)
    (cs.filter fun e => apiKey e = key)
  have hgroup : publicEntries (cs.filter fun e => apiKey e = key) =
      publicEntries (bs.filter fun e => apiKey e = key) := by
    rw [publicEntries_filter, publicEntries_filter, hpublic]
  constructor
  · rw [hbefore, hafter]
    have hperm := publicVariants_perm (cs.filter fun e => apiKey e = key)
    rw [hgroup] at hperm
    exact (publicVariants_perm _).trans hperm.symm
  · by_contra hall
    push Not at hall
    rw [hbefore, hafter] at hall
    -- with public variants only, the two groups are equal and nothing changed
    have hshown (entries : List APISurfaceEntry)
        (hentries : ∀ r ∈ (sortApiEntries entries).map apiVariantDump, isPublic r ≠ false) :
        publicEntries entries = entries := by
      refine publicEntries_eq_self fun e he => ?_
      have hmem := List.mem_map_of_mem (f := apiVariantDump)
        ((sortApiEntries_perm entries).mem_iff.mpr he)
      simpa [isPublic_apiVariantDump] using hentries _ hmem
    have hbs := hshown _ fun r hr => hall r (List.mem_append_left _ hr)
    have hcs := hshown _ fun r hr => hall r (List.mem_append_right _ hr)
    rw [hbs, hcs] at hgroup
    exact hdiff (by rw [hgroup])

end PublicSurface

/-- Every state lock bounds the delta of the two states it was evaluated on. -/
theorem state_locks_bound_delta (b c : CodeState)
    (hb : ∀ e ∈ b.effects, ObjectOrNull e.evidence)
    (hc : ∀ e ∈ c.effects, ObjectOrNull e.evidence) :
    (∀ x : Dimension, LockHolds .noNewItems x.target b c →
        Silent (computeCodeStateDelta b c) x.addedTargets) ∧
      (∀ x : Dimension, LockHolds .noRemovedItems x.target b c →
        Silent (computeCodeStateDelta b c) x.removedTargets) ∧
      (∀ x : Dimension, LockHolds .unchanged x.target b c →
        Silent (computeCodeStateDelta b c) x.deltaTargets) ∧
      (LockHolds .equalsBaseline ["api_surface_public"] b c →
        Silent (computeCodeStateDelta b c) [["api_surface_delta", "removed_public"],
            ["decorators_delta", "added"], ["decorators_delta", "removed"],
            ["decorators_delta", "changed"]] ∧
          (∀ r ∈ (computeCodeStateDelta b c).apiSurfaceDelta.added, isPublic r = false) ∧
          ∀ entry ∈ (computeCodeStateDelta b c).apiSurfaceDelta.changed,
            PublicPartKept entry) := by
  refine ⟨silent_of_noNewItems hb hc, silent_of_noRemovedItems hb hc, silent_of_unchanged hb hc,
    fun h => ?_⟩
  have hpublic := publicEntries_eq_of_lock h
  refine ⟨fun target htarget => ?_, fun r hr => ?_, changed_publicPartKept hpublic⟩
  · have hdecorators : (computeCodeStateDelta b c).decoratorsDelta = {} :=
      decoratorsDelta_of_public_eq hpublic
    simp only [List.mem_cons, List.not_mem_nil, or_false] at htarget
    rcases htarget with rfl | rfl | rfl | rfl
    · refine blankAt_of_resolve rfl (List.filter_eq_nil_iff.mpr fun v hv => ?_)
      simp [missing_not_public hpublic.symm ((mem_apiRemoved _ _ _).mp hv)]
    · exact blankAt_of_resolve rfl (congrArg SymbolDelta.added hdecorators)
    · exact blankAt_of_resolve rfl (congrArg SymbolDelta.removed hdecorators)
    · exact blankAt_of_resolve rfl (congrArg SymbolDelta.changed hdecorators)
  · exact missing_not_public hpublic ((mem_apiAdded _ _ _).mp hr)

/-- One function with a public and a private variant, and a network call. -/
def overloaded (privateSignature : String) : CodeState where
  apiSurface := [
    { fqn := "f", kind := "function", signature := some "()", visibility := some "public" },
    { fqn := "f", kind := "function", signature := some privateSignature,
      visibility := some "private" }]
  effects := [{
    fqn := "f"
    effectClass := .net
    evidence := .object [("resolved_call", .str "requests.get")] }]

/-- The lock on the public surface holds, and a changed entry still lists a public record. -/
theorem overloaded_lists_public :
    (∀ e ∈ (overloaded "(x)").effects ++ (overloaded "(y)").effects, ObjectOrNull e.evidence) ∧
      LockHolds .equalsBaseline ["api_surface_public"] (overloaded "(x)") (overloaded "(y)") ∧
      ∃ entry ∈
        (computeCodeStateDelta (overloaded "(x)") (overloaded "(y)")).apiSurfaceDelta.changed,
        ∃ r ∈ variantsBefore entry ++ variantsAfter entry, isPublic r = true := by
  refine ⟨by simp [overloaded, ObjectOrNull], ?_, ?_⟩
  · rw [equalsBaseline_iff (resolveState_apiSurfacePublic _) (resolveState_apiSurfacePublic _)]
    exact congrArg _ (by decide)
  · have hany : ((computeCodeStateDelta (overloaded "(x)")
        (overloaded "(y)")).apiSurfaceDelta.changed.any fun entry =>
          (variantsBefore entry ++ variantsAfter entry).any isPublic) = true := by
      decide +kernel
    simpa only [List.any_eq_true] using hany

/-- A private variant changes behind the lock, and the effects stay as they are. -/
theorem state_locks_bound_delta_overloaded :
    Silent (computeCodeStateDelta (overloaded "(x)") (overloaded "(y)"))
        Dimension.effects.deltaTargets ∧
      ∀ entry ∈
        (computeCodeStateDelta (overloaded "(x)") (overloaded "(y)")).apiSurfaceDelta.changed,
        PublicPartKept entry := by
  obtain ⟨-, -, hunchanged, hpublic⟩ := state_locks_bound_delta (overloaded "(x)")
    (overloaded "(y)") (by simp [overloaded, ObjectOrNull]) (by simp [overloaded, ObjectOrNull])
  refine ⟨hunchanged .effects ((unchanged_iff rfl rfl).mpr rfl), (hpublic ?_).2.2⟩
  rw [equalsBaseline_iff (resolveState_apiSurfacePublic _) (resolveState_apiSurfacePublic _)]
  exact congrArg _ (by decide)

end SemanticCi.Delta
