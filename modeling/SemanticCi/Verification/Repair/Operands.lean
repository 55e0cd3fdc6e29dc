import SemanticCi.Verification.Repair.Faithful
import SemanticCi.Verification.Evaluator.ShortCircuit
import SemanticCi.Model.PathResolver

/-! The values that a constraint compares are JSON data of the states, and every result stems
from them. -/

namespace SemanticCi.PathResolver

open SemanticCi.Python SemanticCi.StateSchema SemanticCi.Operators

/-! ## Resolution keeps keys distinct -/

theorem distinct_object_iff {fields : JsonMapping} :
    DistinctFields (.object fields) ↔
      (fields.map Prod.fst).Nodup ∧ ∀ f ∈ fields, DistinctFields f.2 := by
  constructor
  · intro h
    cases h with
    | object hkeys hvalues => exact ⟨hkeys, hvalues⟩
  · intro h
    exact .object h.1 h.2

theorem distinct_array_iff {items : List JsonValue} :
    DistinctFields (.array items) ↔ ∀ x ∈ items, DistinctFields x := by
  constructor
  · intro h
    cases h with
    | array hitems => exact hitems
  · exact .array

theorem distinct_get? {fields : JsonMapping} (h : DistinctFields (.object fields)) {key : String}
    {v : JsonValue} (hv : JsonValue.get? fields key = some v) : DistinctFields v := by
  obtain ⟨f, hf, rfl⟩ := Option.map_eq_some_iff.mp hv
  exact (distinct_object_iff.mp h).2 f (List.mem_of_find?_eq_some hf)

theorem distinct_getD {fields : JsonMapping} (h : DistinctFields (.object fields)) (key : String) :
    DistinctFields ((JsonValue.get? fields key).getD .null) := by
  cases hv : JsonValue.get? fields key with
  | none => exact .null
  | some v => exact distinct_get? h hv

theorem distinct_publicApiEntries {entries : JsonValue} (h : DistinctFields entries) :
    DistinctFields (publicApiEntries entries) := by
  cases entries with
  | array items =>
      apply distinct_array_iff.mpr
      intro x hx
      exact distinct_array_iff.mp h x (List.mem_of_mem_filter hx)
  | _ => exact .array (by simp)

theorem distinct_projectField (entries : JsonValue) (key : String) :
    DistinctFields (projectField entries key) := by
  cases entries with
  | array items =>
      apply distinct_array_iff.mpr
      intro x hx
      obtain ⟨entry, -, hfield⟩ := List.mem_filterMap.mp hx
      split at hfield
      · cases hfield
        exact .str _
      · cases hfield
  | _ => exact .array (by simp)

theorem distinct_resolveSegment {isState : Bool} {current next : JsonValue} {upTo : List String}
    {segment : String} (h : DistinctFields current)
    (hnext : resolveSegment isState current upTo segment = some next) : DistinctFields next := by
  have hproject : ∀ {aliased : Option String}, aliased.map (projectField current) = some next →
      DistinctFields next := by
    intro aliased haliased
    obtain ⟨key, -, rfl⟩ := Option.map_eq_some_iff.mp haliased
    exact distinct_projectField _ _
  cases current with
  | null => cases hnext
  | object fields =>
      simp only [resolveSegment] at hnext
      split_ifs at hnext with hpublic hremoved
      · cases hnext
        exact distinct_publicApiEntries (distinct_getD h _)
      · cases hnext
        exact distinct_publicApiEntries (distinct_getD h _)
      · split at hnext
        · cases hnext
          exact distinct_projectField _ _
        · exact distinct_get? h hnext
  | _ => exact hproject hnext

theorem distinct_resolveFrom {isState : Bool} {current value : JsonValue}
    {seen segments : List String} (h : DistinctFields current)
    (hvalue : resolveFrom isState current seen segments = some value) : DistinctFields value := by
  induction segments generalizing isState current seen with
  | nil =>
      cases hvalue
      exact h
  | cons segment rest ih =>
      rw [resolveFrom] at hvalue
      split at hvalue
      · cases hvalue
      · next next hnext => exact ih (distinct_resolveSegment h hnext) hvalue

end SemanticCi.PathResolver

namespace SemanticCi.Repair

open SemanticCi.Python SemanticCi.StateSchema SemanticCi.Framework SemanticCi.Compiler
  SemanticCi.Operators SemanticCi.PathResolver SemanticCi.Evaluator ExceptRules

/-! ## JSON states -/

/-- The states and the delta hold JSON data, with no key repeated in an object. -/
structure JsonInput (input : EvaluationInput) : Prop where
  delta : DistinctFields (.object input.delta.dump)
  baseline : DistinctFields (.object input.baseline.dump)
  candidate : DistinctFields (.object input.candidate.dump)

theorem distinct_filterCodeStateApiSurface {state : CodeState}
    (h : DistinctFields (.object state.dump)) (rules : List APISurfaceAllowRule) :
    DistinctFields (.object (filterCodeStateApiSurface state rules).dump) := by
  obtain ⟨hkeys, hvalues⟩ := distinct_object_iff.mp h
  refine distinct_object_iff.mpr ⟨hkeys, ?_⟩
  simp only [CodeState.dump, List.forall_mem_cons] at hvalues
  simp only [filterCodeStateApiSurface, CodeState.dump, List.forall_mem_cons]
  refine ⟨?_, hvalues.2⟩
  apply distinct_array_iff.mpr
  intro x hx
  obtain ⟨entry, hentry, rfl⟩ := List.mem_map.mp hx
  exact distinct_array_iff.mp hvalues.1 _
    (List.mem_map_of_mem (List.mem_of_mem_filter hentry))

theorem distinct_statesForConstraint {input : EvaluationInput} (h : JsonInput input)
    (c : CompiledConstraint) (rules : List APISurfaceAllowRule) :
    DistinctFields (.object
        (statesForConstraint c input.baseline input.candidate rules).1.dump) ∧
      DistinctFields (.object
        (statesForConstraint c input.baseline input.candidate rules).2.dump) := by
  rw [statesForConstraint]
  split
  · exact ⟨h.baseline, h.candidate⟩
  · exact ⟨distinct_filterCodeStateApiSurface h.baseline rules,
      distinct_filterCodeStateApiSurface h.candidate rules⟩

theorem filterEffects_sublist {rules : List EffectAllowRule} {effects kept : List JsonValue}
    (h : filterEffects rules effects = .ok kept) : kept.Sublist effects := by
  induction effects generalizing kept with
  | nil =>
      cases h
      exact .slnil
  | cons effect rest ih =>
      obtain ⟨allowed, -, h⟩ := bind_eq_ok_iff.mp h
      obtain ⟨tail, htail, h⟩ := bind_eq_ok_iff.mp h
      cases h
      split
      · exact (ih htail).cons effect
      · exact (ih htail).cons_cons effect

/-- Fewer removed symbols and fewer added effects are JSON data too. -/
theorem distinct_delta_of_sublist {delta : CodeStateDelta}
    (h : DistinctFields (.object delta.dump)) {removed added : List JsonValue}
    (hremoved : removed.Sublist delta.apiSurfaceDelta.removed)
    (hadded : added.Sublist delta.effectChanges.added) :
    DistinctFields (.object (CodeStateDelta.dump { delta with
      apiSurfaceDelta := { delta.apiSurfaceDelta with removed := removed }
      effectChanges := { delta.effectChanges with added := added } })) := by
  obtain ⟨hkeys, hvalues⟩ := distinct_object_iff.mp h
  refine distinct_object_iff.mpr ⟨hkeys, ?_⟩
  simp only [CodeStateDelta.dump, List.forall_mem_cons] at hvalues ⊢
  obtain ⟨hapi, hdecorators, htypes, heffects, hrest⟩ := hvalues
  refine ⟨?_, hdecorators, htypes, ?_, hrest⟩
  · obtain ⟨hnames, hlists⟩ := distinct_object_iff.mp hapi
    refine distinct_object_iff.mpr ⟨hnames, ?_⟩
    simp only [SymbolDelta.dump, List.forall_mem_cons] at hlists ⊢
    refine ⟨hlists.1, ?_, hlists.2.2⟩
    exact distinct_array_iff.mpr fun x hx =>
      distinct_array_iff.mp hlists.2.1 x (hremoved.subset hx)
  · obtain ⟨hnames, hlists⟩ := distinct_object_iff.mp heffects
    refine distinct_object_iff.mpr ⟨hnames, ?_⟩
    simp only [EffectChanges.dump, List.forall_mem_cons] at hlists ⊢
    refine ⟨?_, hlists.2⟩
    exact distinct_array_iff.mpr fun x hx =>
      distinct_array_iff.mp hlists.1 x (hadded.subset hx)

theorem distinct_deltaForConstraint {delta view : CodeStateDelta}
    (h : DistinctFields (.object delta.dump)) {c : CompiledConstraint}
    {eff : List EffectAllowRule} {api : List APISurfaceAllowRule}
    (hview : deltaForConstraint c delta eff api = .ok view) :
    DistinctFields (.object view.dump) := by
  rw [deltaForConstraint] at hview
  have hfilter : (filterApiSurfaceEntries delta.apiSurfaceDelta.removed api).Sublist
      delta.apiSurfaceDelta.removed := List.filter_sublist
  split_ifs at hview with heffects hapi hapi
  · obtain ⟨added, hadded, hview⟩ := bind_eq_ok_iff.mp hview
    cases hview
    exact distinct_delta_of_sublist h hfilter (filterEffects_sublist hadded)
  · obtain ⟨added, hadded, hview⟩ := bind_eq_ok_iff.mp hview
    cases hview
    exact distinct_delta_of_sublist h (List.Sublist.refl _) (filterEffects_sublist hadded)
  · cases hview
    exact distinct_delta_of_sublist h hfilter (List.Sublist.refl _)
  · cases hview
    exact h

/-! ## Compared values -/

/-- The two values that the operator of a constraint compares. -/
inductive Compares (compiled : CompiledTarget) (input : EvaluationInput)
    (c : CompiledConstraint) : PyValue → PyValue → Prop where
  | state {x : JsonValue} (hkind : c.kind = .state) (hop : c.operator ∉ baselineOperators)
      (hx : resolveState input.candidate c.target = some x) :
      Compares compiled input c x.toPy c.expected
  | delta {view : CodeStateDelta} {x : JsonValue} (hkind : c.kind ≠ .state)
      (hop : c.operator ∉ baselineOperators)
      (hview : deltaForConstraint c input.delta compiled.effectAllowNew
        compiled.apiSurfaceAllowChanges = .ok view)
      (hx : resolveDelta view c.target = some x) : Compares compiled input c x.toPy c.expected
  | baseline {x y : JsonValue} (hkind : c.kind ≠ .state) (hop : c.operator ∈ baselineOperators)
      (hx : resolveState (statesForConstraint c input.baseline input.candidate
        compiled.apiSurfaceAllowChanges).1 c.target = some x)
      (hy : resolveState (statesForConstraint c input.baseline input.candidate
        compiled.apiSurfaceAllowChanges).2 c.target = some y) :
      Compares compiled input c x.toPy y.toPy

/-- The results of an evaluation, each with the operands it stems from. -/
structure Traces (compiled : CompiledTarget) (input : EvaluationInput)
    (traced : List (ConstraintResult × Option (JsonValue × JsonValue))) : Prop where
  results : (evaluateConstraints compiled input).results = traced.map Prod.fst
  stems : List.Forall₂ (fun c p => StemsFrom c (Compares compiled input c) p.1 p.2)
    compiled.constraints traced

section Stems

variable {c : CompiledConstraint} {compares : PyValue → PyValue → Prop} {r : ConstraintResult}

theorem stemsFrom_result {status : ResultStatus} {errorCode : Option ErrorCode} {extra : Evidence}
    {cause : Option UnknownCause} (hnodup : (extra.map Prod.fst).Nodup)
    (hitems : ∀ item ∈ extra, item.1 ∈ ["target", "reason", "dimension", "error"] ∧
      ∃ s, item.2 = .str s) :
    StemsFrom c compares (result c status errorCode extra cause) none := by
  have hperm : (result c status errorCode extra cause).evidence.Perm extra := by
    rw [result, List.nil_append]
    exact (List.perm_insertionSort _ _).trans (List.perm_insertionSort _ _)
  constructor
  · exact (hperm.map Prod.fst).nodup_iff.mpr hnodup
  · intro item hitem
    exact hitems item (hperm.mem_iff.mp hitem)

/-- A result with one or two texts as its evidence. -/
theorem stemsFrom_text {status : ResultStatus} {errorCode : Option ErrorCode} {key text : String}
    {cause : Option UnknownCause} (hkey : key ∈ ["target", "reason", "dimension", "error"]) :
    StemsFrom c compares (result c status errorCode [(key, .str text)] cause) none := by
  apply stemsFrom_result
  · simp
  · intro item hitem
    obtain rfl := List.mem_singleton.mp hitem
    exact ⟨hkey, text, rfl⟩

theorem stemsFrom_dimension {status : ResultStatus} {errorCode : Option ErrorCode}
    {reason dimension : String} {cause : Option UnknownCause} :
    StemsFrom c compares (result c status errorCode
      [("reason", .str reason), ("dimension", .str dimension)] cause) none := by
  apply stemsFrom_result
  · simp
  · intro item hitem
    rcases List.mem_pair.mp hitem with rfl | rfl
    · exact ⟨by simp, reason, rfl⟩
    · exact ⟨by simp, dimension, rfl⟩

theorem stemsFrom_evaluatePure {resolved : Option JsonValue} {y : JsonValue}
    (hop : c.operator ∉ baselineOperators) (hy : HoldsData c.expected y)
    (hcompares : ∀ x, resolved = some x → compares x.toPy c.expected ∧ DistinctFields x)
    (h : evaluatePure c resolved = .ok r) : ∃ operands, StemsFrom c compares r operands := by
  cases resolved with
  | none =>
      cases h
      exact ⟨none, stemsFrom_text (by simp)⟩
  | some x =>
      obtain ⟨outcome, houtcome, h⟩ := bind_eq_ok_iff.mp h
      cases h
      obtain ⟨hx, hdistinct⟩ := hcompares x rfl
      exact ⟨some (x, y), .pure hx hop ⟨holdsJson_toPy x, hdistinct⟩ hy houtcome⟩

theorem stemsFrom_evaluateBaseline {b v : Option JsonValue}
    (hop : c.operator ∈ baselineOperators)
    (hcompares : ∀ x y, b = some x → v = some y →
      compares x.toPy y.toPy ∧ DistinctFields x ∧ DistinctFields y)
    (h : evaluateBaseline c b v = .ok r) : ∃ operands, StemsFrom c compares r operands := by
  unfold evaluateBaseline at h
  split at h
  case h_1 x y =>
      obtain ⟨outcome, houtcome, h⟩ := bind_eq_ok_iff.mp h
      cases h
      obtain ⟨hxy, hx, hy⟩ := hcompares x y rfl rfl
      exact ⟨some (x, y), .baseline hxy hop ⟨holdsJson_toPy x, hx⟩ ⟨holdsJson_toPy y, hy⟩
        houtcome⟩
  case h_2 =>
      cases h
      exact ⟨none, stemsFrom_text (by simp)⟩

end Stems

section Evaluation

variable {compiled : CompiledTarget} {input : EvaluationInput} {c : CompiledConstraint}
  {r : ConstraintResult} {y : JsonValue}

theorem stemsFrom_evaluateResolved (hinput : JsonInput input) (hy : HoldsData c.expected y)
    (h : evaluateResolved compiled.effectAllowNew compiled.apiSurfaceAllowChanges input c = .ok r) :
    ∃ operands, StemsFrom c (Compares compiled input c) r operands := by
  unfold evaluateResolved at h
  split at h
  · next hkind =>
      unfold evaluateStateConstraint at h
      split at h
      · cases h
        exact ⟨none, stemsFrom_text (by simp)⟩
      · split at h
        · cases h
          exact ⟨none, stemsFrom_text (by simp)⟩
        · next hop =>
            refine stemsFrom_evaluatePure hop hy (fun x hx => ⟨.state hkind hop hx, ?_⟩) h
            exact distinct_resolveFrom hinput.candidate hx
  · next hkind =>
      obtain ⟨view, hview, h⟩ := bind_eq_ok_iff.mp h
      change evaluateDeltaConstraint c view _ _ = .ok r at h
      unfold evaluateDeltaConstraint at h
      obtain ⟨hbaseline, hcandidate⟩ :=
        distinct_statesForConstraint hinput c compiled.apiSurfaceAllowChanges
      split at h
      · split at h
        · cases h
          exact ⟨none, stemsFrom_text (by simp)⟩
        · next hop =>
            refine stemsFrom_evaluatePure hop hy (fun x hx => ⟨.delta hkind hop hview hx, ?_⟩) h
            exact distinct_resolveFrom (distinct_deltaForConstraint hinput.delta hview) hx
      · split at h
        · split at h
          · cases h
            exact ⟨none, stemsFrom_text (by simp)⟩
          · next hop =>
              have hop := not_not.mp hop
              refine stemsFrom_evaluateBaseline hop
                (fun x y hx hy => ⟨.baseline hkind hop hx hy, ?_, ?_⟩) h
              · exact distinct_resolveFrom hbaseline hx
              · exact distinct_resolveFrom hcandidate hy
        · cases h
          exact ⟨none, stemsFrom_text (by simp)⟩

theorem stemsFrom_independentResult (hinput : JsonInput input) (hy : HoldsData c.expected y) :
    ∃ operands, StemsFrom c (Compares compiled input c) (independentResult compiled input c)
      operands := by
  unfold independentResult evaluateConstraint
  split_ifs with hrepair hchanged hpattern
  · exact ⟨none, stemsFrom_text (by simp)⟩
  · exact ⟨none, stemsFrom_text (by simp)⟩
  · exact ⟨none, stemsFrom_text (by simp)⟩
  · split
    · exact ⟨none, stemsFrom_dimension⟩
    · split
      · exact ⟨none, stemsFrom_dimension⟩
      · cases hresolved : evaluateResolved compiled.effectAllowNew
            compiled.apiSurfaceAllowChanges input c with
        | ok r => exact stemsFrom_evaluateResolved hinput hy hresolved
        | error e => exact ⟨none, stemsFrom_text (by simp)⟩

/-- Every result of an evaluation of JSON data stems from what its constraint compares. -/
theorem exists_traces (hinput : JsonInput input)
    (hexpected : ∀ c ∈ compiled.constraints, ∃ y, HoldsData c.expected y) :
    ∃ traced, Traces compiled input traced := by
  have hrun (stopped : Bool) (cs : List CompiledConstraint)
      (hcs : ∀ c ∈ cs, ∃ y, HoldsData c.expected y) :
      ∃ traced, EarlyExit.run (independentResult compiled input) shortCircuitSkippedResult
          shouldShortCircuit stopped cs = traced.map Prod.fst ∧
        List.Forall₂ (fun c p => StemsFrom c (Compares compiled input c) p.1 p.2) cs traced := by
    induction cs generalizing stopped with
    | nil => exact ⟨[], by simp, .nil⟩
    | cons c rest ih =>
        obtain ⟨⟨y, hy⟩, hrest⟩ := List.forall_mem_cons.mp hcs
        cases stopped with
        | true =>
            obtain ⟨traced, hresults, hstems⟩ := ih true hrest
            refine ⟨(shortCircuitSkippedResult c, none) :: traced, ?_, .cons ?_ hstems⟩
            · rw [EarlyExit.run, hresults]
              rfl
            · exact stemsFrom_text (by simp)
        | false =>
            obtain ⟨operands, hoperands⟩ : ∃ operands, StemsFrom c (Compares compiled input c)
                (independentResult compiled input c) operands :=
              stemsFrom_independentResult hinput hy
            obtain ⟨traced, hresults, hstems⟩ := ih _ hrest
            refine ⟨(independentResult compiled input c, operands) :: traced, ?_,
              .cons hoperands hstems⟩
            rw [EarlyExit.run_cons, hresults]
            rfl
  obtain ⟨traced, hresults, hstems⟩ := hrun false compiled.constraints hexpected
  exact ⟨traced, hresults, hstems⟩

end Evaluation

/-! ## The plan of an evaluation -/

/-- The JSON of the plan is restored and written again as it was, it has one instruction for each
result that asks for one, with its fields and all of its evidence, and the objects and arrays
of the operands are objects and arrays there. -/
def FaithfulJson (verdict : Verdict)
    (traced : List (ConstraintResult × Option (JsonValue × JsonValue))) : Prop :=
  ∃ payloads, RoundTrips verdict payloads ∧
    List.Forall₂ (fun p payload => InstructionJson p.1 payload ∧ KindsKept p.1 p.2 payload)
      (traced.filter fun p => Actionable p.1) payloads

section Plan

variable {compiled : CompiledTarget} {input : EvaluationInput}
  {traced : List (ConstraintResult × Option (JsonValue × JsonValue))}

theorem Traces.shape (h : Traces compiled input traced) :
    ∀ p ∈ traced, EvidenceShape p.1.evidence := by
  intro p hp
  obtain ⟨c, -, hstems⟩ := exists_of_mem_forall₂ h.stems hp
  exact hstems.shape

/-- What is written of the results that ask for an instruction. -/
theorem Traces.written (h : Traces compiled input traced) :
    ∃ payloads, RoundTrips (evaluateConstraints compiled input) payloads ∧
      List.Forall₂ (fun p payload => InstructionJson p.1 payload)
        (traced.filter fun p => Actionable p.1) payloads := by
  have hshape : ∀ r ∈ (evaluateConstraints compiled input).results, EvidenceShape r.evidence := by
    rw [h.results]
    exact List.forall_mem_map.mpr h.shape
  obtain ⟨payloads, hroundTrips, hinstructions⟩ := exists_writtenPlan hshape
  refine ⟨payloads, hroundTrips, ?_⟩
  rw [h.results, List.filter_map, List.forall₂_map_left_iff] at hinstructions
  exact hinstructions

/-- One instruction keeps the kinds of its operands exactly when they are uniform. -/
theorem Traces.kindsKept_iff (h : Traces compiled input traced)
    {p : ConstraintResult × Option (JsonValue × JsonValue)} (hp : p ∈ traced)
    (hactionable : Actionable p.1) {payload : PyValue} (hjson : InstructionJson p.1 payload) :
    KindsKept p.1 p.2 payload ↔ ∀ x y, p.2 = some (x, y) → Collects p.1.operator x y →
      Uniform x ∧ Uniform y := by
  obtain ⟨c, -, hstems⟩ := exists_of_mem_forall₂ h.stems hp
  obtain ⟨r, operands⟩ := p
  cases operands with
  | none => exact iff_of_true (fun _ _ hnone => by cases hnone) (fun _ _ hnone => by cases hnone)
  | some operands =>
      obtain ⟨x, y⟩ := operands
      have hiff : KindsKept r (some (x, y)) payload ↔
          (Collects r.operator x y → Uniform x ∧ Uniform y) :=
        hstems.form.kindsKept_iff hactionable hjson.evidence
      change KindsKept r (some (x, y)) payload ↔ _
      rw [hiff]
      constructor
      · intro hkept x' y' hoperands
        obtain ⟨rfl, rfl⟩ := Prod.mk.inj (Option.some.inj hoperands)
        exact hkept
      · intro hall
        exact hall x y rfl

theorem Traces.faithfulJson_iff (h : Traces compiled input traced) :
    FaithfulJson (evaluateConstraints compiled input) traced ↔
      ∀ p ∈ traced, Actionable p.1 → ∀ x y, p.2 = some (x, y) → Collects p.1.operator x y →
        Uniform x ∧ Uniform y := by
  constructor
  · intro hfaithful p hp hactionable
    obtain ⟨payloads, -, hinstructions⟩ := hfaithful
    have hmem : p ∈ traced.filter fun p => Actionable p.1 :=
      List.mem_filter.mpr ⟨hp, by simpa using hactionable⟩
    obtain ⟨payload, -, hjson, hkept⟩ := exists_of_mem_forall₂ hinstructions.flip hmem
    exact (h.kindsKept_iff hp hactionable hjson).mp hkept
  · intro huniform
    obtain ⟨payloads, hroundTrips, hinstructions⟩ := h.written
    refine ⟨payloads, hroundTrips, ?_⟩
    have hkept : ∀ p ∈ traced.filter fun p => Actionable p.1, p ∈ traced ∧ Actionable p.1 := by
      intro p hp
      obtain ⟨hmem, hactionable⟩ := List.mem_filter.mp hp
      exact ⟨hmem, by simpa using hactionable⟩
    refine ((List.forall₂_and_left _ _).mpr ⟨hkept, hinstructions⟩).imp ?_
    intro p payload hp
    obtain ⟨⟨hmem, hactionable⟩, hjson⟩ := hp
    exact ⟨hjson, (h.kindsKept_iff hmem hactionable hjson).mpr (huniform p hmem hactionable)⟩

end Plan

/-- The JSON of the plan of an evaluation is always restored and written again as it was, and
it is faithful to the operands exactly when no instruction stems from a set operator on an
object, or on an array with two equal items of different kinds. -/
theorem repair_plan_json_faithful_iff (compiled : CompiledTarget) (input : EvaluationInput)
    (hinput : JsonInput input)
    (hexpected : ∀ c ∈ compiled.constraints, ∃ y, HoldsData c.expected y) :
    (∃ payloads, WrittenPlan (evaluateConstraints compiled input) payloads) ∧
      (∃ traced, Traces compiled input traced) ∧
      ∀ traced, Traces compiled input traced →
        (FaithfulJson (evaluateConstraints compiled input) traced ↔
          ∀ p ∈ traced, Actionable p.1 → ∀ x y, p.2 = some (x, y) →
            Collects p.1.operator x y → Uniform x ∧ Uniform y) := by
  obtain ⟨traced, htraced⟩ := exists_traces hinput hexpected
  refine ⟨?_, ⟨traced, htraced⟩, fun traced htraced => htraced.faithfulJson_iff⟩
  apply exists_writtenPlan
  rw [htraced.results]
  exact List.forall_mem_map.mpr htraced.shape

/-- A target that asks for an owner of the web module. -/
def ownersCheck : TargetSVP where
  intent := ""
  change := { primaryKind := .generic }
  constraints := [{
    id := "owners"
    kind := .state
    target := ["python_specific", "owners"]
    operator := .includesAll
    expected := .list [.list [.str "web", .str "core"]] }]

def ownersConstraint : CompiledConstraint where
  id := "owners"
  kind := .state
  target := ["python_specific", "owners"]
  operator := .includesAll
  expected := .tuple [.tuple [.str "web", .str "core"]]
  severity := .hard
  unknownPolicy := .fail
  tolerance := none
  evidenceRequired := false
  scope := .none
  source := .user

def compiledOwnersCheck : CompiledTarget where
  intent := ""
  primaryKind := .generic
  allowedSecondaryKinds := []
  scope := []
  constraints := [ownersConstraint]

def ownersInput (owners : JsonValue) : EvaluationInput where
  delta := {}
  baseline := {}
  candidate := { pythonSpecific := some [("owners", owners)] }

/-- The owner that the target asks for. -/
def webOwner : JsonValue := .array [.array [.str "web", .str "core"]]

/-- The same kind of list, with another owner. -/
def apiOwners : JsonValue := .array [.array [.str "api", .str "core"]]

/-- The owner in an object. -/
def apiOwnerTable : JsonValue := .object [("api", .str "core")]

theorem holdsData_webOwner : HoldsData ownersConstraint.expected webOwner := by
  refine ⟨.array (by decide) rfl fun i v x hv hx => ?_, ?_⟩
  · cases i with
    | succ i => simp at hv
    | zero =>
        cases hv
        cases hx
        refine .array (by decide) rfl fun i v x hv hx => ?_
        match i with
        | 0 => cases hv; cases hx; exact .str _
        | 1 => cases hv; cases hx; exact .str _
        | i + 2 => simp at hv
  · simp [webOwner, distinct_array_iff, DistinctFields.str]

theorem jsonInput_owners {j : JsonValue} (h : DistinctFields j) : JsonInput (ownersInput j) := by
  constructor <;>
    simp [ownersInput, CodeStateDelta.dump, CodeState.dump, distinct_object_iff, distinct_array_iff,
      SymbolDelta.dump, EffectChanges.dump, CFGDelta.dump, ImportDelta.dump, ComplexityDelta.dump,
      TestSurfaceDelta.dump, LocDelta.dump, records, JsonValue.ofOption, JsonValue.strings,
      DistinctFields.null, DistinctFields.int, h]

theorem traces_owners {j : JsonValue} (h : DistinctFields j) {o : OperatorOutcome}
    (houtcome : evaluatePureOperator .includesAll j.toPy ownersConstraint.expected none = .ok o) :
    Traces compiledOwnersCheck (ownersInput j)
      [(fromOperatorOutcome ownersConstraint o, some (j, webOwner))] := by
  have hresult : independentResult compiledOwnersCheck (ownersInput j) ownersConstraint =
      fromOperatorOutcome ownersConstraint o := by
    change catchInternal ownersConstraint
      (evaluatePureOperator .includesAll j.toPy ownersConstraint.expected none >>= fun o =>
        pure (fromOperatorOutcome ownersConstraint o)) = _
    rw [houtcome]
    rfl
  constructor
  · change [independentResult compiledOwnersCheck (ownersInput j) ownersConstraint] = _
    rw [hresult]
    rfl
  · refine .cons ?_ .nil
    exact .pure (.state rfl (by decide) rfl) (by decide) ⟨holdsJson_toPy j, h⟩
      holdsData_webOwner houtcome

/-- An object of owners is shown as an array. -/
theorem repair_plan_json_flattens_object :
    compileTargetSvp ownersCheck = .ok compiledOwnersCheck ∧
      JsonInput (ownersInput apiOwnerTable) ∧
      ∃ traced, Traces compiledOwnersCheck (ownersInput apiOwnerTable) traced ∧
        ¬ FaithfulJson (evaluateConstraints compiledOwnersCheck (ownersInput apiOwnerTable))
          traced := by
  have hdistinct : DistinctFields apiOwnerTable := by
    simp [apiOwnerTable, distinct_object_iff, DistinctFields.str]
  obtain ⟨o, houtcome, hstatus⟩ : ∃ o, evaluatePureOperator .includesAll apiOwnerTable.toPy
      ownersConstraint.expected none = .ok o ∧ o.status = .violated := ⟨_, rfl, rfl⟩
  have htraces := traces_owners hdistinct houtcome
  refine ⟨rfl, jsonInput_owners hdistinct, _, htraces, fun hfaithful => ?_⟩
  have hactionable : Actionable (fromOperatorOutcome ownersConstraint o) := by
    simp [Actionable, fromOperatorOutcome, result, hstatus]
  have hcollects : Collects .includesAll apiOwnerTable webOwner :=
    ⟨by decide, trivial, trivial⟩
  obtain ⟨⟨xs, hxs, -⟩, -⟩ := htraces.faithfulJson_iff.mp hfaithful _
    (List.mem_singleton_self _) hactionable _ _
    rfl hcollects
  cases hxs

/-- A list of owners, each an array of two texts, is shown as it is. -/
theorem repair_plan_json_keeps_pairs :
    ∃ traced, Traces compiledOwnersCheck (ownersInput apiOwners) traced ∧
      FaithfulJson (evaluateConstraints compiledOwnersCheck (ownersInput apiOwners)) traced := by
  have hdistinct : DistinctFields apiOwners := by
    simp [apiOwners, distinct_array_iff, DistinctFields.str]
  obtain ⟨o, houtcome⟩ : ∃ o, evaluatePureOperator .includesAll apiOwners.toPy
      ownersConstraint.expected none = .ok o := ⟨_, rfl⟩
  have htraces := traces_owners hdistinct houtcome
  have hexpected : ∀ c ∈ compiledOwnersCheck.constraints, ∃ y, HoldsData c.expected y := by
    intro c hc
    obtain rfl := List.mem_singleton.mp hc
    exact ⟨webOwner, holdsData_webOwner⟩
  have hsingle (j : JsonValue) : Unmixed [j] := by
    intro a ha b hb _
    rw [List.mem_singleton.mp ha, List.mem_singleton.mp hb]
    rfl
  refine ⟨_, htraces, ((repair_plan_json_faithful_iff compiledOwnersCheck (ownersInput apiOwners)
    (jsonInput_owners hdistinct) hexpected).2.2 _ htraces).mpr ?_⟩
  intro p hp _ x y hoperands _
  obtain rfl := List.mem_singleton.mp hp
  obtain ⟨rfl, rfl⟩ := Prod.mk.inj (Option.some.inj hoperands)
  exact ⟨⟨_, rfl, hsingle _⟩, ⟨_, rfl, hsingle _⟩⟩

end SemanticCi.Repair
