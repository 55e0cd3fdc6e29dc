import SemanticCi.Verification.Delta.Computed
import SemanticCi.Verification.Evaluator.AllowRules
import SemanticCi.Verification.Evaluator.UnknownCause
import Mathlib.Data.Finset.Lattice.Lemmas

/-! Timed-out dimensions: which values a constraint reads from a dimension, and for which
targets the evaluator notices that the dimension timed out. -/

namespace SemanticCi.Evaluator

open SemanticCi.Python SemanticCi.StateSchema SemanticCi.Framework SemanticCi.Compiler
  SemanticCi.Operators SemanticCi.PathResolver SemanticCi.Delta ExceptRules

/-! ## What a target reads -/

/-- The dimension whose extractor fills a field of the code state. -/
def fieldDimension (field : String) : Option String :=
  if field ∈ ["api_surface", "api_surface_public"] then some "api_surface"
  else if field ∈ ["effects", "imports", "complexity", "test_surface", "module_graph",
      "type_relations", "control_flow", "data_flow", "coverage", "typescript_specific"] then
    some field
  else none

/-- The dimensions from which a field of the computed delta is computed. -/
def deltaFieldDimensions (field : String) : List String :=
  if field ∈ ["api_surface_delta", "decorators_delta"] then ["api_surface"]
  else if field = "effect_changes" then ["effects"]
  else if field = "imports_delta" then ["imports"]
  else if field = "complexity_delta" then ["complexity"]
  else if field = "test_surface_delta" then ["test_surface"]
  else []

/-- The dimension behind a detail under `python_specific`. -/
def detailDimensions (detail : String) : List String :=
  if detail = "module_graph_delta" then ["module_graph"]
  else if detail = "complexity_changes" then ["complexity"]
  else if detail = "test_surface_changes" then ["test_surface"]
  else []

/-- The dimensions from which a constraint on the target takes its values. -/
def readDimensions (kind : ConstraintKind) (target : TargetPath) : List String :=
  if kind = .state ∨ target.first ∉ codeStateDeltaFields then (fieldDimension target.first).toList
  else
    match target with
    | ["python_specific"] => ["module_graph", "complexity", "test_surface"]
    | "python_specific" :: detail :: _ => detailDimensions detail
    | target => deltaFieldDimensions target.first

theorem readDimensions_detail (name : String) (rest : List String) :
    readDimensions .delta ("python_specific" :: name :: rest) = detailDimensions name := rfl

theorem readDimensions_deltaField {field : String} {rest : List String}
    (hfield : field ∈ codeStateDeltaFields) (hopen : field ≠ "python_specific") :
    readDimensions .delta (field :: rest) = deltaFieldDimensions field := by
  have hdelta : ¬ (ConstraintKind.delta = .state ∨
      TargetPath.first (field :: rest) ∉ codeStateDeltaFields) := by
    simp [TargetPath.first, hfield]
  rw [readDimensions, if_neg hdelta]
  · rfl
  · intro heq
    exact hopen (List.cons.inj heq).1
  · intro detail _ heq
    exact hopen (List.cons.inj heq).1

theorem readDimensions_stateField {kind : ConstraintKind} {target : TargetPath}
    (h : kind = .state ∨ target.first ∉ codeStateDeltaFields) :
    readDimensions kind target = (fieldDimension target.first).toList := if_pos h

/-- Two states that differ at most in fields extracted for the dimensions. -/
structure AgreeOff (dimensions : Finset String) (s s' : CodeState) : Prop where
  apiSurface : "api_surface" ∉ dimensions → s.apiSurface = s'.apiSurface
  typeRelations : "type_relations" ∉ dimensions → s.typeRelations = s'.typeRelations
  effects : "effects" ∉ dimensions → s.effects = s'.effects
  controlFlow : "control_flow" ∉ dimensions → s.controlFlow = s'.controlFlow
  dataFlow : "data_flow" ∉ dimensions → s.dataFlow = s'.dataFlow
  imports : "imports" ∉ dimensions → s.imports = s'.imports
  complexity : "complexity" ∉ dimensions → s.complexity = s'.complexity
  testSurface : "test_surface" ∉ dimensions → s.testSurface = s'.testSurface
  coverage : "coverage" ∉ dimensions → s.coverage = s'.coverage
  moduleGraph : "module_graph" ∉ dimensions → s.moduleGraph = s'.moduleGraph
  pythonSpecific : s.pythonSpecific = s'.pythonSpecific
  typescriptSpecific : "typescript_specific" ∉ dimensions →
    s.typescriptSpecific = s'.typescriptSpecific

theorem AgreeOff.refl (dimensions : Finset String) (s : CodeState) : AgreeOff dimensions s s := by
  constructor <;> intros <;> rfl

theorem AgreeOff.mono {dimensions wider : Finset String} (hsub : dimensions ⊆ wider)
    {s s' : CodeState} (h : AgreeOff dimensions s s') : AgreeOff wider s s' where
  apiSurface hno := h.apiSurface fun hd => hno (hsub hd)
  typeRelations hno := h.typeRelations fun hd => hno (hsub hd)
  effects hno := h.effects fun hd => hno (hsub hd)
  controlFlow hno := h.controlFlow fun hd => hno (hsub hd)
  dataFlow hno := h.dataFlow fun hd => hno (hsub hd)
  imports hno := h.imports fun hd => hno (hsub hd)
  complexity hno := h.complexity fun hd => hno (hsub hd)
  testSurface hno := h.testSurface fun hd => hno (hsub hd)
  coverage hno := h.coverage fun hd => hno (hsub hd)
  moduleGraph hno := h.moduleGraph fun hd => hno (hsub hd)
  pythonSpecific := h.pythonSpecific
  typescriptSpecific hno := h.typescriptSpecific fun hd => hno (hsub hd)

/-! ## Frame lemmas -/

/-- A path starts with a plain lookup of its first field. -/
theorem resolveState_cons (s : CodeState) {field : String} (rest : List String)
    (h : field ≠ "api_surface_public") :
    resolveState s (field :: rest) =
      (JsonValue.get? s.dump field).bind fun v => resolveFrom false v [field] rest := by
  have hplain : [field] ∉ projectionPaths := by simp [projectionPaths, flatProjectionAliases]
  rw [resolveState, resolveFrom, List.nil_append, resolveSegment_object (fun _ => h) hplain]
  cases JsonValue.get? s.dump field <;> rfl

theorem resolveDelta_cons (d : CodeStateDelta) (field : String) (rest : List String) :
    resolveDelta d (field :: rest) =
      (JsonValue.get? d.dump field).bind fun v => resolveFrom false v [field] rest := by
  have hplain : [field] ∉ projectionPaths := by simp [projectionPaths, flatProjectionAliases]
  rw [resolveDelta, resolveFrom, List.nil_append, resolveSegment_object (fun h => by cases h) hplain]
  cases JsonValue.get? d.dump field <;> rfl

section Frame

variable {dimensions : Finset String} {s s' : CodeState} (h : AgreeOff dimensions s s')

include h

theorem get?_stateDump_congr {field : String} (hfield : field ∈ CodeState.modelFields.map Prod.fst)
    (hread : ∀ d ∈ fieldDimension field, d ∉ dimensions) :
    JsonValue.get? s.dump field = JsonValue.get? s'.dump field := by
  simp only [CodeState.modelFields, List.map_cons, List.map_nil, List.mem_cons, List.not_mem_nil,
    or_false] at hfield
  rcases hfield with rfl | rfl | rfl | rfl | rfl | rfl | rfl | rfl | rfl | rfl | rfl | rfl
  · exact congrArg (fun x => some (records APISurfaceEntry.dump x)) (h.apiSurface (hread _ rfl))
  · exact congrArg (fun x => some (records TypeRelation.dump x)) (h.typeRelations (hread _ rfl))
  · exact congrArg (fun x => some (records EffectEntry.dump x)) (h.effects (hread _ rfl))
  · exact congrArg (fun x => some (records ControlFlowEntry.dump x)) (h.controlFlow (hread _ rfl))
  · exact congrArg (fun x => some (records DataFlowEntry.dump x)) (h.dataFlow (hread _ rfl))
  · exact congrArg (fun x => some (records ImportEntry.dump x)) (h.imports (hread _ rfl))
  · exact congrArg (fun x => some (records ComplexityEntry.dump x)) (h.complexity (hread _ rfl))
  · exact congrArg (fun x => some (records TestSurfaceEntry.dump x)) (h.testSurface (hread _ rfl))
  · exact congrArg (fun x => some (JsonValue.ofOption (records CoverageEntry.dump) x))
      (h.coverage (hread _ rfl))
  · exact congrArg (fun x => some (records ModuleGraphEntry.dump x)) (h.moduleGraph (hread _ rfl))
  · exact congrArg (fun x => some (JsonValue.ofOption .object x)) h.pythonSpecific
  · exact congrArg (fun x => some (JsonValue.ofOption .object x))
      (h.typescriptSpecific (hread _ rfl))

theorem resolveState_congr {target : TargetPath} (hfirst : target.first ∈ codeStateFields)
    (hread : ∀ d ∈ fieldDimension target.first, d ∉ dimensions) :
    resolveState s target = resolveState s' target := by
  cases target with
  | nil => exact absurd hfirst (by decide)
  | cons field rest =>
      by_cases hpublic : field = "api_surface_public"
      · subst hpublic
        have happly (state : CodeState) : resolveState state ("api_surface_public" :: rest) =
            resolveFrom false (publicApiEntries (records APISurfaceEntry.dump state.apiSurface))
              ["api_surface_public"] rest := rfl
        rw [happly, happly, h.apiSurface (hread _ rfl)]
      · have hfield : field ∈ CodeState.modelFields.map Prod.fst := by
          have hfirst : field ∈ codeStateFields := hfirst
          simpa [codeStateFields, hpublic] using hfirst
        rw [resolveState_cons s rest hpublic, resolveState_cons s' rest hpublic,
          get?_stateDump_congr h hfield hread]

end Frame

section DeltaFrame

variable {dimensions : Finset String} {b b' c c' : CodeState} (hb : AgreeOff dimensions b b')
  (hc : AgreeOff dimensions c c')

include hb hc

theorem get?_details_congr {name : String} (hread : ∀ d ∈ detailDimensions name, d ∉ dimensions) :
    JsonValue.get? (details b c) name = JsonValue.get? (details b' c') name := by
  by_cases hgraph : name = "module_graph_delta"
  · subst hgraph
    have hno := hread "module_graph" (by decide)
    rw [(get?_details b c).1, (get?_details b' c').1, hb.moduleGraph hno, hc.moduleGraph hno]
  by_cases hcomplexity : name = "complexity_changes"
  · subst hcomplexity
    have hno := hread "complexity" (by decide)
    rw [(get?_details b c).2.1, (get?_details b' c').2.1, hb.complexity hno, hc.complexity hno]
  by_cases htests : name = "test_surface_changes"
  · subst htests
    have hno := hread "test_surface" (by decide)
    rw [(get?_details b c).2.2, (get?_details b' c').2.2, hb.testSurface hno, hc.testSurface hno]
  · simp [details, get?_append, get?_detailItem, Ne.symm hgraph, Ne.symm hcomplexity,
      Ne.symm htests]

theorem get?_deltaDump_congr {field : String} (hfield : field ∈ codeStateDeltaFields)
    (hopen : field ≠ "python_specific")
    (hread : ∀ d ∈ deltaFieldDimensions field, d ∉ dimensions) :
    JsonValue.get? (computeCodeStateDelta b c).dump field =
      JsonValue.get? (computeCodeStateDelta b' c').dump field := by
  simp only [codeStateDeltaFields, CodeStateDelta.modelFields, List.map_cons, List.map_nil,
    List.mem_cons, List.not_mem_nil, or_false] at hfield
  rcases hfield with rfl | rfl | rfl | rfl | rfl | rfl | rfl | rfl | rfl | rfl | rfl | rfl | rfl |
    rfl
  · have hno := hread "api_surface" (by decide)
    have heq : apiSurfaceDelta b.apiSurface c.apiSurface =
        apiSurfaceDelta b'.apiSurface c'.apiSurface := by
      rw [hb.apiSurface hno, hc.apiSurface hno]
    exact congrArg (fun d => some (JsonValue.object (SymbolDelta.dump d))) heq
  · have hno := hread "api_surface" (by decide)
    have heq : decoratorsDelta b.apiSurface c.apiSurface =
        decoratorsDelta b'.apiSurface c'.apiSurface := by
      rw [hb.apiSurface hno, hc.apiSurface hno]
    exact congrArg (fun d => some (JsonValue.object (SymbolDelta.dump d))) heq
  · rfl
  · have hno := hread "effects" (by decide)
    have heq : effectChanges b.effects c.effects = effectChanges b'.effects c'.effects := by
      rw [hb.effects hno, hc.effects hno]
    exact congrArg (fun d => some (JsonValue.object (EffectChanges.dump d))) heq
  · rfl
  · have hno := hread "imports" (by decide)
    have heq : importsDelta b.imports c.imports = importsDelta b'.imports c'.imports := by
      rw [hb.imports hno, hc.imports hno]
    exact congrArg (fun d => some (JsonValue.object (ImportDelta.dump d))) heq
  · have hno := hread "complexity" (by decide)
    have heq : complexityDelta b.complexity c.complexity =
        complexityDelta b'.complexity c'.complexity := by
      rw [hb.complexity hno, hc.complexity hno]
    exact congrArg (fun d => some (JsonValue.object (ComplexityDelta.dump d))) heq
  · have hno := hread "test_surface" (by decide)
    have heq : testSurfaceDelta b.testSurface c.testSurface =
        testSurfaceDelta b'.testSurface c'.testSurface := by
      rw [hb.testSurface hno, hc.testSurface hno]
    exact congrArg (fun d => some (JsonValue.object (TestSurfaceDelta.dump d))) heq
  · rfl
  · rfl
  · rfl
  · rfl
  · exact absurd rfl hopen
  · rfl

theorem resolveDelta_congr {target : TargetPath} (hfirst : target.first ∈ codeStateDeltaFields)
    (hread : ∀ d ∈ readDimensions .delta target, d ∉ dimensions) :
    resolveDelta (computeCodeStateDelta b c) target =
      resolveDelta (computeCodeStateDelta b' c') target := by
  cases target with
  | nil => exact absurd hfirst (by decide)
  | cons field rest =>
      by_cases hopen : field = "python_specific"
      · subst hopen
        cases rest with
        | nil =>
            have hgraph := hread "module_graph" (by decide)
            have hcomplexity := hread "complexity" (by decide)
            have htests := hread "test_surface" (by decide)
            have heq : buildPythonSpecific b c = buildPythonSpecific b' c' := by
              simp only [buildPythonSpecific, hb.moduleGraph hgraph, hc.moduleGraph hgraph,
                hb.complexity hcomplexity, hc.complexity hcomplexity, hb.testSurface htests,
                hc.testSurface htests]
            exact congrArg (fun d => some (JsonValue.ofOption .object d)) heq
        | cons name rest =>
            rw [readDimensions_detail] at hread
            rw [resolveDelta_detail, resolveDelta_detail, get?_details_congr hb hc hread]
      · have hfield : field ∈ codeStateDeltaFields := hfirst
        rw [readDimensions_deltaField hfield hopen] at hread
        rw [resolveDelta_cons, resolveDelta_cons, get?_deltaDump_congr hb hc hfield hopen hread]

end DeltaFrame

/-! ## One constraint -/

/-- Two inputs whose states differ at most in the fields of the given dimensions, each with
the delta of its own states. -/
structure SameOff (baseDimensions candDimensions : Finset String)
    (input input' : EvaluationInput) : Prop where
  baseline : AgreeOff baseDimensions input.baseline input'.baseline
  candidate : AgreeOff candDimensions input.candidate input'.candidate
  delta : input.delta = computeCodeStateDelta input.baseline input.candidate
  delta' : input'.delta = computeCodeStateDelta input'.baseline input'.candidate
  extracted : input.extractedDimensions = input'.extractedDimensions
  baselineTimedOut : input.baselineTimedOutDimensions = input'.baselineTimedOutDimensions
  candidateTimedOut : input.candidateTimedOutDimensions = input'.candidateTimedOutDimensions

section Congruence

variable {baseDimensions candDimensions : Finset String} {input input' : EvaluationInput}
  (h : SameOff baseDimensions candDimensions input input') {c : CompiledConstraint}
  (eff : List EffectAllowRule) (api : List APISurfaceAllowRule)

include h

theorem evaluateStateConstraint_congr
    (hread : ∀ d ∈ readDimensions .state c.target, d ∉ candDimensions) :
    evaluateStateConstraint c input.candidate = evaluateStateConstraint c input'.candidate := by
  unfold evaluateStateConstraint
  by_cases hfirst : c.target.first ∈ codeStateFields
  · rw [readDimensions_stateField (.inl rfl)] at hread
    rw [resolveState_congr h.candidate hfirst fun d hd => hread d (by simpa using hd)]
  · rw [if_pos hfirst, if_pos hfirst]

theorem evaluateDeltaConstraint_congr
    (hread : ∀ d ∈ readDimensions .delta c.target, d ∉ baseDimensions ∪ candDimensions) :
    evaluateDeltaConstraint c input.delta input.baseline input.candidate =
      evaluateDeltaConstraint c input'.delta input'.baseline input'.candidate := by
  have hbaseline := h.baseline.mono (@Finset.subset_union_left _ _ _ candDimensions)
  have hcandidate := h.candidate.mono (@Finset.subset_union_right _ _ baseDimensions _)
  unfold evaluateDeltaConstraint
  by_cases hdelta : c.target.first ∈ codeStateDeltaFields
  · rw [if_pos hdelta, if_pos hdelta, h.delta, h.delta',
      resolveDelta_congr hbaseline hcandidate hdelta hread]
  · rw [if_neg hdelta, if_neg hdelta]
    by_cases hfirst : c.target.first ∈ codeStateFields
    · rw [readDimensions_stateField (.inr hdelta)] at hread
      have hfield : ∀ d ∈ fieldDimension c.target.first, d ∉ baseDimensions ∪ candDimensions :=
        fun d hd => hread d (by simpa using hd)
      rw [resolveState_congr hbaseline hfirst hfield, resolveState_congr hcandidate hfirst hfield]
    · rw [if_neg hfirst, if_neg hfirst]

theorem apiSurface_congr (hno : "api_surface" ∉ baseDimensions ∪ candDimensions) :
    input.baseline.apiSurface = input'.baseline.apiSurface ∧
      input.candidate.apiSurface = input'.candidate.apiSurface := by
  simp only [Finset.mem_union, not_or] at hno
  exact ⟨h.baseline.apiSurface hno.1, h.candidate.apiSurface hno.2⟩

theorem evaluateResolved_congr
    (hstate : c.kind = .state → ∀ d ∈ readDimensions .state c.target, d ∉ candDimensions)
    (hdelta : c.kind = .delta →
      ∀ d ∈ readDimensions .delta c.target, d ∉ baseDimensions ∪ candDimensions)
    (hkind : c.kind ≠ .repair) :
    evaluateResolved eff api input c = evaluateResolved eff api input' c := by
  cases hcase : c.kind with
  | repair => exact absurd hcase hkind
  | state =>
      simp only [evaluateResolved, hcase]
      exact evaluateStateConstraint_congr h (hstate hcase)
  | delta =>
      have hread := hdelta hcase
      by_cases hremoved : ReadsRemovedApi c
      · rw [hremoved.target] at hread
        obtain ⟨hb, hc⟩ := apiSurface_congr h (hread "api_surface" (by decide))
        rw [evaluateResolved_removedApi eff api input hremoved hcase,
          evaluateResolved_removedApi eff api input' hremoved hcase, h.delta, h.delta']
        simp only [computeCodeStateDelta, hb, hc]
      by_cases heffects : ReadsNewEffects c
      · rw [heffects.target] at hread
        have hno := hread "effects" (by decide)
        simp only [Finset.mem_union, not_or] at hno
        rw [evaluateResolved_filteredEffects eff api input heffects hcase,
          evaluateResolved_filteredEffects eff api input' heffects hcase, h.delta, h.delta']
        simp only [computeCodeStateDelta, h.baseline.effects hno.1, h.candidate.effects hno.2]
      by_cases hpublic : ReadsPublicApi c
      · rw [hpublic.target] at hread
        obtain ⟨hb, hc⟩ := apiSurface_congr h (hread "api_surface" (by decide))
        rw [evaluateResolved_publicApi eff api input hpublic hcase,
          evaluateResolved_publicApi eff api input' hpublic hcase]
        simp only [lockedApi, filterCodeStateApiSurface, hb, hc]
      · rw [← evaluateResolved_other eff api input hremoved heffects hpublic [] [],
          ← evaluateResolved_other eff api input' hremoved heffects hpublic [] []]
        have hplain (input : EvaluationInput) : evaluateResolved [] [] input c =
            evaluateDeltaConstraint c input.delta input.baseline input.candidate := by
          simp [evaluateResolved, hcase, deltaForConstraint, statesForConstraint]
        rw [hplain, hplain]
        exact evaluateDeltaConstraint_congr h hread

end Congruence

/-! ## Which reads the evaluator notices -/

/-- The details whose dimensions a bare `python_specific` target reads. -/
def openDimensions : List String := ["module_graph", "complexity", "test_surface"]

/-- The target table knows every given dimension that the target reads: no decorator target
when the API surface is among them, and no bare `python_specific`. -/
structure Noticed (dimensions : Finset String) (target : TargetPath) : Prop where
  decorators : target.first = "decorators_delta" → "api_surface" ∉ dimensions
  openBase : target = ["python_specific"] → ∀ d ∈ openDimensions, d ∉ dimensions

theorem Noticed.mono {dimensions narrower : Finset String} (hsub : narrower ⊆ dimensions)
    {target : TargetPath} (h : Noticed dimensions target) : Noticed narrower target where
  decorators hfirst hd := h.decorators hfirst (hsub hd)
  openBase htarget d hd hmem := h.openBase htarget d hd (hsub hmem)

theorem dimensionForTarget_of_fieldDimension {target : TargetPath} {d : String}
    (h : d ∈ fieldDimension target.first) : dimensionForTarget target = some d := by
  cases target with
  | nil =>
      have hnone : fieldDimension (TargetPath.first []) = none := by decide
      rw [hnone] at h
      cases h
  | cons field rest =>
      have h : d ∈ fieldDimension field := h
      unfold fieldDimension at h
      split at h
      · rename_i hfield
        obtain rfl := Option.some.inj h
        simp only [List.mem_cons, List.not_mem_nil, or_false] at hfield
        rcases hfield with rfl | rfl <;> rfl
      split at h
      · rename_i hfield
        obtain rfl := Option.some.inj h
        simp only [List.mem_cons, List.not_mem_nil, or_false] at hfield
        rcases hfield with rfl | rfl | rfl | rfl | rfl | rfl | rfl | rfl | rfl | rfl <;> rfl
      · cases h

theorem dimensionForTarget_of_reads {target : TargetPath} {dimensions : Finset String}
    (hnoticed : Noticed dimensions target) {d : String} (hread : d ∈ readDimensions .delta target)
    (hd : d ∈ dimensions) : dimensionForTarget target = some d := by
  by_cases hfield : target.first ∈ codeStateDeltaFields
  · cases target with
    | nil => exact absurd hfield (by decide)
    | cons field rest =>
        by_cases hopen : field = "python_specific"
        · subst hopen
          cases rest with
          | nil => exact absurd hd (hnoticed.openBase rfl d hread)
          | cons name rest =>
              rw [readDimensions_detail] at hread
              unfold detailDimensions at hread
              split at hread
              · simp_all [dimensionForTarget]
              split at hread
              · simp_all [dimensionForTarget]
              split at hread
              · simp_all [dimensionForTarget]
              · cases hread
        · have hfield : field ∈ codeStateDeltaFields := hfield
          rw [readDimensions_deltaField hfield hopen] at hread
          unfold deltaFieldDimensions at hread
          split at hread
          · rename_i hapi
            simp only [List.mem_cons, List.not_mem_nil, or_false] at hapi hread
            subst hread
            rcases hapi with rfl | rfl
            · simp [dimensionForTarget]
            · exact absurd hd (hnoticed.decorators rfl)
          split at hread
          · simp_all [dimensionForTarget]
          split at hread
          · simp_all [dimensionForTarget]
          split at hread
          · simp_all [dimensionForTarget]
          split at hread
          · simp_all [dimensionForTarget]
          · cases hread
  · rw [readDimensions_stateField (.inr hfield)] at hread
    exact dimensionForTarget_of_fieldDimension (by simpa using hread)

theorem timedOutDimension_eq_none {c : CompiledConstraint} {input : EvaluationInput}
    (h : timedOutDimension c input = none) {d : String}
    (hd : dimensionForTarget c.target = some d) : d ∉ timedOutDimensions c.kind input := by
  intro hmem
  rw [timedOutDimension, hd] at h
  simp only [hmem, if_true] at h
  cases h

section TwoRuns

variable {baseDimensions candDimensions : Finset String} {input input' : EvaluationInput}
  (h : SameOff baseDimensions candDimensions input input')
  (hbase : baseDimensions ⊆ input.baselineTimedOutDimensions.getD ∅)
  (hcand : candDimensions ⊆ input.candidateTimedOutDimensions.getD ∅)

include h hbase hcand

/-- The step lemma: a constraint does not tell the two inputs apart. -/
theorem evaluateConstraint_congr (eff : List EffectAllowRule) (api : List APISurfaceAllowRule)
    {c : CompiledConstraint} (hnoticed : c.kind = .delta → c.operator ≠ .changedOnlyIn →
      Noticed (baseDimensions ∪ candDimensions) c.target) :
    evaluateConstraint eff api input c = evaluateConstraint eff api input' c := by
  have htimes : timedOutDimension c input' = timedOutDimension c input := by
    unfold timedOutDimension timedOutDimensions
    rw [h.baselineTimedOut, h.candidateTimedOut]
  unfold evaluateConstraint
  by_cases hkind : c.kind = .repair
  · rw [if_pos hkind, if_pos hkind]
  by_cases hop : c.operator = .changedOnlyIn
  · rw [if_neg hkind, if_neg hkind, if_pos hop, if_pos hop]
  rw [if_neg hkind, if_neg hkind, if_neg hop, if_neg hop, h.extracted, htimes]
  cases htimed : timedOutDimension c input with
  | some dimension => rfl
  | none =>
      have hinTime {d : String} (hd : dimensionForTarget c.target = some d) :=
        timedOutDimension_eq_none htimed hd
      have hresolved := evaluateResolved_congr h eff api (c := c) ?_ ?_ hkind
      · rw [hresolved]
      · intro hstate d hread hd
        rw [readDimensions_stateField (.inl rfl)] at hread
        have hlate := hinTime (dimensionForTarget_of_fieldDimension (by simpa using hread))
        rw [hstate] at hlate
        exact hlate (hcand hd)
      · intro hdelta d hread hd
        have hlate := hinTime (dimensionForTarget_of_reads (hnoticed hdelta hop) hread hd)
        rw [hdelta] at hlate
        exact hlate (Finset.union_subset_union hbase hcand hd)

end TwoRuns

/-! ## Whole runs -/

/-- The statuses of the results, in order. -/
def statuses (compiled : CompiledTarget) (input : EvaluationInput) : List ResultStatus :=
  (evaluateConstraints compiled input).results.map (·.status)

theorem matchesPattern_of_mem {svp : TargetSVP} {compiled : CompiledTarget}
    (h : compileTargetSvp svp = .ok compiled) {c : CompiledConstraint}
    (hc : c ∈ compiled.constraints) (hkind : c.kind ≠ .repair) :
    matchesTargetPattern c.target = true := by
  cases hsource : c.source with
  | user => exact (admitted_of_user h hc hsource).matchesPattern hkind
  | template =>
      have hmem := mem_templateConstraints_of_template h hc hsource
      have hall : ∀ kind, ∀ c ∈ templateConstraints kind,
          matchesTargetPattern c.target = true := by
        intro kind
        cases kind <;> simp only [templateConstraints, List.forall_mem_cons] <;> decide +kernel
      exact hall _ _ hmem

/-- A dimension that the target table names makes the constraint an extraction `UNKNOWN`. -/
theorem concludes_of_timedOut {compiled : CompiledTarget} {c : CompiledConstraint}
    {input : EvaluationInput} {d : String} (hkind : c.kind ≠ .repair)
    (hop : c.operator ≠ .changedOnlyIn) (hpattern : matchesTargetPattern c.target = true)
    (hd : dimensionForTarget c.target = some d) (htimed : d ∈ timedOutDimensions c.kind input)
    (hextracted : ∀ extracted ∈ input.extractedDimensions, d ∈ extracted) :
    Concludes (independentResult compiled input c) .unknown (some .extraction) := by
  have hskipped : skippedDimension c.target input.extractedDimensions = none := by
    unfold skippedDimension
    rw [hd]
    cases hcase : input.extractedDimensions with
    | none => rfl
    | some extracted => simp [hextracted extracted hcase]
  have htime : timedOutDimension c input = some d := by simp [timedOutDimension, hd, htimed]
  rw [independentResult, evaluateConstraint, if_neg hkind, if_neg hop]
  simp only [hpattern, hskipped, htime]
  exact ⟨rfl, rfl⟩

/-- An operator never reports a failed extraction on a value that is there. -/
theorem pure_not_extraction {c : CompiledConstraint} (hc : Admitted c) (hkind : c.kind ≠ .repair)
    (hop : c.operator ∈ pureOperators) (v : JsonValue) :
    (catchInternal c (evaluatePure c (some v))).unknownCause ≠ some .extraction := by
  obtain ⟨w, hw, hnorm⟩ := canon_toPy v
  rw [evaluatePure_some]
  cases pure_outcome hc hkind hw hnorm hop with
  | decides p h =>
      by_cases hp : p
      · rw [(concludes_satisfied h hp).cause]
        simp
      · rw [(concludes_violated h hp).cause]
        simp
  | raises e h =>
      rw [(concludes_of_error h).cause]
      simp
  | mismatch h _ =>
      rw [(concludes_of_judged h (by simp)).cause, retag]
      split <;> simp

/-- The run lemma: every constraint has the same result in both runs. -/
theorem results_congr {compiled : CompiledTarget} {baseDimensions candDimensions : Finset String}
    {input input' : EvaluationInput} (h : SameOff baseDimensions candDimensions input input')
    (hbase : baseDimensions ⊆ input.baselineTimedOutDimensions.getD ∅)
    (hcand : candDimensions ⊆ input.candidateTimedOutDimensions.getD ∅)
    (hnoticed : ∀ c ∈ compiled.constraints, c.kind = .delta → c.operator ≠ .changedOnlyIn →
      Noticed (baseDimensions ∪ candDimensions) c.target) :
    (evaluateConstraints compiled input).results = (evaluateConstraints compiled input').results := by
  have hstep : ∀ c ∈ compiled.constraints,
      independentResult compiled input c = independentResult compiled input' c :=
    fun c hc => evaluateConstraint_congr h hbase hcand _ _ (hnoticed c hc)
  rw [evaluateConstraints_results, evaluateConstraints_results, ← List.forall₂_eq_eq_eq]
  refine EarlyExit.forall₂_run (fun _ => rfl) hstep (fun c hc => ?_) false
  rw [hstep c hc]

/-- What the evaluator is given for two states, one of which may lack some dimensions. -/
def extractedInput (baseline candidate : CodeState)
    (extracted baselineTimedOut candidateTimedOut : Option (Finset String)) : EvaluationInput where
  delta := computeCodeStateDelta baseline candidate
  baseline := baseline
  candidate := candidate
  extractedDimensions := extracted
  baselineTimedOutDimensions := baselineTimedOut
  candidateTimedOutDimensions := candidateTimedOut

/-- Timed-out dimensions decide nothing: what a state holds in their fields changes no status,
and a delta constraint that reads one of them is an extraction `UNKNOWN`. -/
structure TimeoutSafe (compiled : CompiledTarget) (dimensions : Finset String) : Prop where
  candidate : ∀ extracted baselineTimedOut b c c', AgreeOff dimensions c c' →
    statuses compiled (extractedInput b c extracted baselineTimedOut (some dimensions)) =
      statuses compiled (extractedInput b c' extracted baselineTimedOut (some dimensions))
  baseline : ∀ extracted candidateTimedOut b b' c, AgreeOff dimensions b b' →
    statuses compiled (extractedInput b c extracted (some dimensions) candidateTimedOut) =
      statuses compiled (extractedInput b' c extracted (some dimensions) candidateTimedOut)
  undecided : ∀ k ∈ compiled.constraints, k.kind = .delta → k.operator ≠ .changedOnlyIn →
    (∃ d ∈ readDimensions .delta k.target, d ∈ dimensions) →
    ∀ b c extracted baselineTimedOut candidateTimedOut,
      dimensions ⊆ baselineTimedOut.getD ∅ ∪ candidateTimedOut.getD ∅ →
      (∀ present ∈ extracted, dimensions ⊆ present) →
      Concludes (independentResult compiled
        (extractedInput b c extracted baselineTimedOut candidateTimedOut) k)
        .unknown (some .extraction)

theorem timeoutSafe_of_noticed {svp : TargetSVP} {compiled : CompiledTarget}
    (h : compileTargetSvp svp = .ok compiled) {dimensions : Finset String}
    (hnoticed : ∀ k ∈ compiled.constraints, k.kind = .delta → k.operator ≠ .changedOnlyIn →
      Noticed dimensions k.target) : TimeoutSafe compiled dimensions where
  candidate extracted baselineTimedOut b c c' hagree := by
    have hsame : SameOff ∅ dimensions
        (extractedInput b c extracted baselineTimedOut (some dimensions))
        (extractedInput b c' extracted baselineTimedOut (some dimensions)) :=
      ⟨.refl _ _, hagree, rfl, rfl, rfl, rfl, rfl⟩
    unfold statuses
    rw [results_congr hsame (Finset.empty_subset _) (Finset.Subset.refl _)
      (by rwa [Finset.empty_union])]
  baseline extracted candidateTimedOut b b' c hagree := by
    have hsame : SameOff dimensions ∅
        (extractedInput b c extracted (some dimensions) candidateTimedOut)
        (extractedInput b' c extracted (some dimensions) candidateTimedOut) :=
      ⟨hagree, .refl _ _, rfl, rfl, rfl, rfl, rfl⟩
    unfold statuses
    rw [results_congr hsame (Finset.Subset.refl _) (Finset.empty_subset _)
      (by rwa [Finset.union_empty])]
  undecided k hk hkind hop hreads b c extracted baselineTimedOut candidateTimedOut htimed
      hpresent := by
    obtain ⟨d, hread, hd⟩ := hreads
    have hrepair : k.kind ≠ .repair := by
      rw [hkind]
      decide
    have hlate : d ∈ timedOutDimensions k.kind
        (extractedInput b c extracted baselineTimedOut candidateTimedOut) := by
      rw [hkind]
      exact htimed hd
    exact concludes_of_timedOut hrepair hop (matchesPattern_of_mem h hk hrepair)
      (dimensionForTarget_of_reads (hnoticed k hk hkind hop) hread hd) hlate
      fun present hmem => hpresent present hmem hd

/-! ## The targets that the table misses -/

theorem decoratorPaths_resolve : ∀ path ∈ validDeltaTargetPaths,
    path.first = "decorators_delta" → dimensionForTarget path = none ∧
      (resolveDelta (computeCodeStateDelta {} {}) path).isSome = true := by
  decide +kernel

/-- A read that the table misses is judged as if it had been extracted. -/
theorem judged_of_missed {compiled : CompiledTarget} {c : CompiledConstraint} (hc : Admitted c)
    (hkind : c.kind = .delta) (hop : c.operator ≠ .changedOnlyIn)
    (htarget : c.target.first = "decorators_delta" ∨ c.target = ["python_specific"])
    (dimensions : Option (Finset String)) :
    ¬ Concludes (independentResult compiled (extractedInput {} {} none none dimensions) c)
      .unknown (some .extraction) := by
  have hrepair : c.kind ≠ .repair := by
    rw [hkind]
    decide
  have hstate : c.kind ≠ .state := by
    rw [hkind]
    decide
  have hmissed : dimensionForTarget c.target = none ∧ c.target.first ∈ codeStateDeltaFields ∧
      ∃ v, resolveDelta (computeCodeStateDelta {} {}) c.target = some v := by
    rcases htarget with hfirst | htarget
    · have hclosed : isOpenPath c.target = false := by
        simp [isOpenPath, openPrefixes, hfirst]
      obtain ⟨hdimension, hresolves⟩ :=
        decoratorPaths_resolve _ (hc.schemaValid hrepair hclosed) hfirst
      exact ⟨hdimension, by rw [hfirst]; decide, Option.isSome_iff_exists.mp hresolves⟩
    · rw [htarget]
      exact ⟨by decide, by decide, .null, rfl⟩
  obtain ⟨hdimension, hfield, v, hv⟩ := hmissed
  have hevaluated : Evaluated c (extractedInput {} {} none none dimensions) :=
    ⟨hrepair, hop, rfl, by rw [timedOutDimension, hdimension]⟩
  have hreading : reading c (extractedInput {} {} none none dimensions) = .one (some v) := by
    rw [reading, if_neg hstate, if_pos hfield]
    exact congrArg Reading.one hv
  have hpure : c.operator ∈ pureOperators := by
    have hfits := hc.operatorFits hevaluated
    rwa [hreading] at hfits
  intro hconcludes
  rw [hc.independentResult_eq hevaluated, hreading] at hconcludes
  exact pure_not_extraction hc hrepair hpure v hconcludes.cause

theorem noticed_of_template {kind : ChangeKind} {c : CompiledConstraint}
    (hc : c ∈ templateConstraints kind) (dimensions : Finset String) :
    Noticed dimensions c.target := by
  have hall : ∀ kind, ∀ c ∈ templateConstraints kind,
      c.target.first ≠ "decorators_delta" ∧ c.target ≠ ["python_specific"] := by
    intro kind
    cases kind <;> simp only [templateConstraints, List.forall_mem_cons] <;> decide
  obtain ⟨hdecorators, hopen⟩ := hall kind c hc
  exact ⟨fun h => absurd h hdecorators, fun h => absurd h hopen⟩

/-- Timed-out dimensions decide nothing exactly when no delta constraint reads one of them
through `decorators_delta` or through the whole of `python_specific`. -/
theorem timeoutSafe_iff_noticed {svp : TargetSVP} {compiled : CompiledTarget}
    (h : compileTargetSvp svp = .ok compiled) (dimensions : Finset String) :
    TimeoutSafe compiled dimensions ↔ ∀ k ∈ compiled.constraints, k.kind = .delta →
      k.operator ≠ .changedOnlyIn → Noticed dimensions k.target := by
  refine ⟨fun hsafe k hk hkind hop => ?_, timeoutSafe_of_noticed h⟩
  cases hsource : k.source with
  | template => exact noticed_of_template (mem_templateConstraints_of_template h hk hsource) _
  | user =>
      have hc := admitted_of_user h hk hsource
      have hundecided (hreads : ∃ d ∈ readDimensions .delta k.target, d ∈ dimensions) :=
        hsafe.undecided k hk hkind hop hreads {} {} none none (some dimensions) (by simp)
          (by simp)
      constructor
      · intro hfirst hd
        refine judged_of_missed hc hkind hop (.inl hfirst) _ (hundecided ⟨_, ?_, hd⟩)
        cases hcase : k.target with
        | nil =>
            rw [hcase] at hfirst
            exact absurd hfirst (by decide)
        | cons field rest =>
            rw [hcase] at hfirst
            obtain rfl : field = "decorators_delta" := hfirst
            rw [readDimensions_deltaField (by decide) (by decide)]
            decide
      · intro htarget d hd hmem
        refine judged_of_missed hc hkind hop (.inr htarget) _ (hundecided ⟨d, ?_, hmem⟩)
        rw [htarget]
        exact hd

/-- A target that locks the decorators of the public API. -/
def decoratorLock : TargetSVP where
  intent := ""
  change := { primaryKind := .generic }
  constraints := [{
    id := "decorators"
    kind := .delta
    target := ["decorators_delta", "added"]
    operator := .equals
    expected := .list [] }]

def compiledDecoratorLock : CompiledTarget where
  intent := ""
  primaryKind := .generic
  allowedSecondaryKinds := []
  scope := []
  constraints := [{
    id := "decorators"
    kind := .delta
    target := ["decorators_delta", "added"]
    operator := .equals
    expected := .tuple []
    severity := .hard
    unknownPolicy := .fail
    tolerance := none
    evidenceRequired := false
    scope := .none
    source := .user }]

def decoratedHandler : CodeState where
  apiSurface := [{
    fqn := "app.handler"
    kind := "function"
    visibility := some "public"
    decorators := ["app.csrf_exempt"] }]

/-- The fallback of a timed-out extractor satisfies a lock that the real surface violates. -/
theorem decoratorLock_trusts_timeout :
    compileTargetSvp decoratorLock = .ok compiledDecoratorLock ∧
      AgreeOff {"api_surface"} decoratedHandler {} ∧
      statuses compiledDecoratorLock
        (extractedInput {} decoratedHandler none none (some {"api_surface"})) = [.violated] ∧
      statuses compiledDecoratorLock
        (extractedInput {} {} none none (some {"api_surface"})) = [.satisfied] := by
  refine ⟨rfl, ?_, by decide +kernel, by decide +kernel⟩
  constructor <;> intros
  case apiSurface hno => exact absurd (Finset.mem_singleton_self _) hno
  all_goals rfl

/-- The lock is safe when the effects time out, and not when the API surface does. -/
theorem decoratorLock_timeoutSafe_effects_only :
    TimeoutSafe compiledDecoratorLock {"effects"} ∧
      ¬ TimeoutSafe compiledDecoratorLock {"api_surface"} := by
  have haccepted : compileTargetSvp decoratorLock = .ok compiledDecoratorLock := rfl
  constructor
  · refine (timeoutSafe_iff_noticed haccepted _).mpr fun k hk _ _ => ?_
    obtain rfl := List.mem_singleton.mp hk
    exact ⟨fun _ => by decide, fun h => absurd h (by decide)⟩
  · intro hsafe
    have hnoticed := (timeoutSafe_iff_noticed haccepted _).mp hsafe _ (List.mem_singleton_self _)
      rfl (by decide)
    exact hnoticed.decorators rfl (Finset.mem_singleton_self _)

end SemanticCi.Evaluator
