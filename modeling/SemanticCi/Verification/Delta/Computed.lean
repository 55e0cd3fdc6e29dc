import SemanticCi.Model.CodeStateDelta
import SemanticCi.Verification.Records
import SemanticCi.Verification.Resolver

/-! What the computed delta contains, record by record, and where its parts are found again
under their targets. -/

namespace SemanticCi.Delta

open SemanticCi.Python SemanticCi.StateSchema SemanticCi.PathResolver SemanticCi.Operators
  OrderedDict

/-! ## API surface -/

theorem sortApiEntries_perm (entries : List APISurfaceEntry) :
    (sortApiEntries entries).Perm entries := List.perm_insertionSort ..

/-- The records whose `(fqn, kind)` only one side has. -/
theorem mem_missingApi (left right : List APISurfaceEntry) (v : JsonValue) :
    (v ∈ (missingValues (groupBy apiKey left) (groupBy apiKey right)).flatMap fun group =>
        (sortApiEntries group).map apiVariantDump) ↔
      ∃ e ∈ left, (∀ f ∈ right, apiKey f ≠ apiKey e) ∧ v = apiVariantDump e := by
  simp only [List.mem_flatMap, mem_missingValues_groupBy, mem_keys_groupBy, List.mem_map,
    (sortApiEntries_perm _).mem_iff, not_exists, not_and]
  constructor
  · rintro ⟨group, ⟨r, -, hmiss, rfl⟩, e, he, rfl⟩
    obtain ⟨he, hkey⟩ := List.mem_filter.mp he
    have hkey : apiKey e = apiKey r := by simpa using hkey
    exact ⟨e, he, fun f hf => by rw [hkey]; exact hmiss f hf, rfl⟩
  · rintro ⟨e, he, hmiss, rfl⟩
    exact ⟨_, ⟨e, he, hmiss, rfl⟩, e, by simp [he], rfl⟩

theorem mem_apiAdded (b c : List APISurfaceEntry) (v : JsonValue) :
    v ∈ (apiSurfaceDelta b c).added ↔
      ∃ e ∈ c, (∀ f ∈ b, apiKey f ≠ apiKey e) ∧ v = apiVariantDump e := mem_missingApi c b v

theorem mem_apiRemoved (b c : List APISurfaceEntry) (v : JsonValue) :
    v ∈ (apiSurfaceDelta b c).removed ↔
      ∃ e ∈ b, (∀ f ∈ c, apiKey f ≠ apiKey e) ∧ v = apiVariantDump e := mem_missingApi b c v

/-- A changed entry compares the two groups of a shared key. -/
theorem mem_apiChanged (b c : List APISurfaceEntry) (v : JsonValue) :
    v ∈ (apiSurfaceDelta b c).changed ↔
      ∃ key, (∃ e ∈ b, apiKey e = key) ∧ (∃ e ∈ c, apiKey e = key) ∧
        apiGroupShape (b.filter fun e => apiKey e = key) ≠
          apiGroupShape (c.filter fun e => apiKey e = key) ∧
        v = apiChangedEntry key (b.filter fun e => apiKey e = key)
          (c.filter fun e => apiKey e = key) := by
  have hgroup (entries : List APISurfaceEntry) (key : String ×ₗ String) :
      ((groupBy apiKey entries).get? key).getD [] = entries.filter fun e => apiKey e = key := by
    rw [get?_groupBy]
    split
    · rename_i hnil
      exact hnil.symm
    · rfl
  simp only [apiSurfaceDelta, List.mem_filterMap, mem_sortedCommonKeys, mem_keys_groupBy, hgroup]
  refine exists_congr fun key => ?_
  split
  · rename_i hdiff
    constructor
    · rintro ⟨⟨hb, hc⟩, hv⟩
      exact ⟨hb, hc, hdiff, (Option.some.inj hv).symm⟩
    · rintro ⟨hb, hc, -, rfl⟩
      exact ⟨⟨hb, hc⟩, rfl⟩
  · rename_i hsame
    constructor
    · rintro ⟨-, hv⟩
      cases hv
    · rintro ⟨-, -, hdiff, -⟩
      exact absurd hdiff hsame

theorem apiSurfaceDelta_self (entries : List APISurfaceEntry) :
    apiSurfaceDelta entries entries = {} := by
  have hadded : (apiSurfaceDelta entries entries).added = [] := by
    rw [List.eq_nil_iff_forall_not_mem]
    intro v hv
    obtain ⟨e, he, hmiss, -⟩ := (mem_apiAdded _ _ _).mp hv
    exact hmiss e he rfl
  have hchanged : (apiSurfaceDelta entries entries).changed = [] := by
    rw [List.eq_nil_iff_forall_not_mem]
    intro v hv
    obtain ⟨key, -, -, hdiff, -⟩ := (mem_apiChanged _ _ _).mp hv
    exact hdiff rfl
  have hremoved : (apiSurfaceDelta entries entries).removed = [] := hadded
  rw [show apiSurfaceDelta entries entries = ⟨(apiSurfaceDelta entries entries).added,
    (apiSurfaceDelta entries entries).removed, (apiSurfaceDelta entries entries).changed⟩ from rfl,
    hadded, hremoved, hchanged]

/-! ## Decorators -/

/-- The decorators of an API surface are read off its public records. -/
theorem publicDecoratorPairs_eq (entries : List APISurfaceEntry) :
    publicDecoratorPairs entries = (publicEntries entries).flatMap fun entry =>
      entry.decorators.map fun decorator => toLex (entry.fqn, decorator) := rfl

theorem sortedDifference_self {α : Type*} [DecidableEq α] [LE α] [DecidableLE α] (xs : List α) :
    sortedDifference xs xs = [] := (sortedDifference_eq_nil_iff xs xs).mpr fun _ h => h

theorem decoratorsDelta_of_public_eq {b c : List APISurfaceEntry}
    (h : publicEntries c = publicEntries b) : decoratorsDelta b c = {} := by
  have hpairs : publicDecoratorPairs c = publicDecoratorPairs b := by
    rw [publicDecoratorPairs_eq, publicDecoratorPairs_eq, h]
  simp [decoratorsDelta, hpairs, sortedDifference_self]

/-! ## Effects, imports, complexity and tests -/

theorem missing_eq_nil_iff {T K : Type} [DecidableEq K] [LE K] [DecidableLE K] (key : T → K)
    (dump : T → JsonValue) (left right : List T) :
    (missingValues (indexBy key left) (indexBy key right)).map dump = [] ↔
      ∀ e ∈ left, ∃ f ∈ right, key f = key e := by
  rw [List.map_eq_nil_iff, missingValues_indexBy_eq_nil_iff]

theorem effectAdded_eq_nil_iff (b c : List EffectEntry) :
    (effectChanges b c).added = [] ↔ ∀ e ∈ c, ∃ f ∈ b, effectKey f = effectKey e :=
  missing_eq_nil_iff ..

theorem effectRemoved_eq_nil_iff (b c : List EffectEntry) :
    (effectChanges b c).removed = [] ↔ ∀ e ∈ b, ∃ f ∈ c, effectKey f = effectKey e :=
  missing_eq_nil_iff ..

theorem importsAdded_eq_nil_iff (b c : List ImportEntry) :
    (importsDelta b c).added = [] ↔ ∀ e ∈ c, ∃ f ∈ b, importKey f = importKey e :=
  missing_eq_nil_iff ..

theorem importsRemoved_eq_nil_iff (b c : List ImportEntry) :
    (importsDelta b c).removed = [] ↔ ∀ e ∈ b, ∃ f ∈ c, importKey f = importKey e :=
  missing_eq_nil_iff ..

theorem effectChanges_self (entries : List EffectEntry) : effectChanges entries entries = {} := by
  have hnil : (effectChanges entries entries).added = [] :=
    (effectAdded_eq_nil_iff _ _).mpr fun e he => ⟨e, he, rfl⟩
  rw [show effectChanges entries entries = ⟨(effectChanges entries entries).added,
    (effectChanges entries entries).added⟩ from rfl, hnil]

theorem importsDelta_self (entries : List ImportEntry) : importsDelta entries entries = {} := by
  have hnil : (importsDelta entries entries).added = [] :=
    (importsAdded_eq_nil_iff _ _).mpr fun e he => ⟨e, he, rfl⟩
  rw [show importsDelta entries entries = ⟨(importsDelta entries entries).added,
    (importsDelta entries entries).added⟩ from rfl, hnil]

theorem complexityDelta_self (entries : List ComplexityEntry) :
    complexityDelta entries entries = {} := by
  simp [complexityDelta]

theorem testSurfaceDelta_self (entries : List TestSurfaceEntry) :
    testSurfaceDelta entries entries = {} := by
  simp [testSurfaceDelta, sortedDifference_self]

/-! ## Details under `python_specific` -/

theorem moduleGraphDelta_self (entries : List ModuleGraphEntry) :
    moduleGraphDelta entries entries = none := by
  simp [moduleGraphDelta, sortedDifference_self]

theorem changedPairs_self {K T : Type} [DecidableEq K] [LE K] [DecidableLE K]
    (d : OrderedDict K T) {differs : T → T → Bool} (h : ∀ x, differs x x = false) :
    changedPairs d d differs = [] := by
  rw [changedPairs, List.filterMap_eq_nil_iff]
  intro key _
  cases d.get? key <;> simp [h]

theorem complexityChanges_self (entries : List ComplexityEntry) :
    complexityChanges entries entries = none := by
  have hnil : missingValues (indexBy complexityKey entries) (indexBy complexityKey entries) = [] :=
    (missingValues_indexBy_eq_nil_iff _ _ _).mpr fun e he => ⟨e, he, rfl⟩
  simp [complexityChanges, hnil, changedPairs_self]

theorem testSurfaceChanges_self (entries : List TestSurfaceEntry) :
    testSurfaceChanges entries entries = none := by
  simp [testSurfaceChanges, changedPairs_self]

theorem buildPythonSpecific_self (s : CodeState) : buildPythonSpecific s s = none := by
  simp [buildPythonSpecific, moduleGraphDelta_self, complexityChanges_self,
    testSurfaceChanges_self]

/-- A state does not differ from itself. -/
theorem computeCodeStateDelta_self (s : CodeState) : computeCodeStateDelta s s = {} := by
  simp only [computeCodeStateDelta, apiSurfaceDelta_self, decoratorsDelta_of_public_eq rfl,
    effectChanges_self, importsDelta_self, complexityDelta_self, testSurfaceDelta_self,
    buildPythonSpecific_self]

/-! ## Where the details are found -/

theorem get?_append (front back : JsonMapping) (key : String) :
    JsonValue.get? (front ++ back) key =
      (JsonValue.get? front key).or (JsonValue.get? back key) := by
  cases h : front.find? (fun item => item.1 = key) <;>
    simp [JsonValue.get?, List.find?_append, h]

/-- A detail that is there only when it is not empty. -/
def detailItem (name : String) (value : Option JsonMapping) : JsonMapping :=
  (value.map fun items => (name, JsonValue.object items)).toList

theorem get?_detailItem (name key : String) (value : Option JsonMapping) :
    JsonValue.get? (detailItem name value) key =
      if name = key then value.map .object else none := by
  by_cases h : name = key <;> cases value <;> simp [detailItem, JsonValue.get?, h]

/-- The three details, each under its own name. -/
def details (b c : CodeState) : JsonMapping :=
  detailItem "module_graph_delta" (moduleGraphDelta b.moduleGraph c.moduleGraph) ++
    detailItem "complexity_changes" (complexityChanges b.complexity c.complexity) ++
    detailItem "test_surface_changes" (testSurfaceChanges b.testSurface c.testSurface)

theorem buildPythonSpecific_eq (b c : CodeState) :
    buildPythonSpecific b c = if details b c = [] then none else some (details b c) := rfl

/-- A detail that is not there is not under `python_specific` either. -/
theorem pythonSpecific_detail (b c : CodeState) (name : String) :
    ((computeCodeStateDelta b c).pythonSpecific.bind fun items => JsonValue.get? items name) =
      JsonValue.get? (details b c) name := by
  simp only [computeCodeStateDelta, buildPythonSpecific_eq]
  by_cases hempty : details b c = []
  · simp [hempty, JsonValue.get?]
  · simp [hempty]

/-- Below `python_specific` a target reads one detail. -/
theorem resolveDelta_detail (b c : CodeState) (name : String) (rest : List String) :
    resolveDelta (computeCodeStateDelta b c) ("python_specific" :: name :: rest) =
      (JsonValue.get? (details b c) name).bind fun v =>
        resolveFrom false v ["python_specific", name] rest := by
  have hroot : resolveSegment false (.object (computeCodeStateDelta b c).dump) ["python_specific"]
      "python_specific" = some (.ofOption .object (buildPythonSpecific b c)) := rfl
  have hplain : ["python_specific", name] ∉ projectionPaths := by
    simp [projectionPaths, flatProjectionAliases]
  simp only [resolveDelta, resolveFrom, List.nil_append, List.cons_append, hroot,
    buildPythonSpecific_eq]
  by_cases hempty : details b c = []
  · rw [if_pos hempty, hempty]
    rfl
  · rw [if_neg hempty]
    have hlookup : resolveSegment false (.object (details b c)) ["python_specific", name] name =
        JsonValue.get? (details b c) name :=
      resolveSegment_object (fun h => by cases h) hplain
    simp only [JsonValue.ofOption, hlookup]
    cases JsonValue.get? (details b c) name <;> rfl

/-- A field of one detail. -/
theorem resolveFrom_detailField (items : JsonMapping) (name key : String) :
    resolveFrom false (.object items) ["python_specific", name] [key] =
      JsonValue.get? items key := by
  have hplain : ["python_specific", name, key] ∉ projectionPaths := by
    simp [projectionPaths, flatProjectionAliases]
  have hlookup : resolveSegment false (.object items) ["python_specific", name, key] key =
      JsonValue.get? items key := resolveSegment_object (fun h => by cases h) hplain
  simp only [resolveFrom, List.cons_append, List.nil_append, hlookup]
  cases JsonValue.get? items key <;> rfl

theorem get?_details (b c : CodeState) :
    JsonValue.get? (details b c) "module_graph_delta" =
        (moduleGraphDelta b.moduleGraph c.moduleGraph).map .object ∧
      JsonValue.get? (details b c) "complexity_changes" =
        (complexityChanges b.complexity c.complexity).map .object ∧
      JsonValue.get? (details b c) "test_surface_changes" =
        (testSurfaceChanges b.testSurface c.testSurface).map .object := by
  simp [details, get?_append, get?_detailItem]

end SemanticCi.Delta
