import SemanticCi.Verification.Compiler
import SemanticCi.Verification.Resolver
import SemanticCi.Verification.Evaluator.ShortCircuit

/-! How one user constraint of a compiled target is evaluated: which values it reads, and the
status and cause that follow from them. -/

namespace SemanticCi.Evaluator

open SemanticCi.Python SemanticCi.StateSchema SemanticCi.Framework SemanticCi.Compiler
  SemanticCi.Matching SemanticCi.Operators SemanticCi.PathResolver ExceptRules

/-! ## Facts about targets and operators -/

theorem closed_paths_match : ∀ path ∈ validDeltaTargetPaths, matchesTargetPattern path = true := by
  decide +kernel

theorem statePaths_subset {path : TargetPath} (h : path ∈ validStateTargetPaths) :
    path ∈ validDeltaTargetPaths := by
  simp only [validDeltaTargetPaths, List.mem_append]
  exact .inl (.inl h)

theorem closed_statePaths_first : ∀ path ∈ validStateTargetPaths, isOpenPath path = false →
    path.first ∈ codeStateFields ∧ path.first ∉ codeStateDeltaFields := by
  decide +kernel

theorem closed_deltaPaths_first : ∀ path ∈ deltaTargetPaths, isOpenPath path = false →
    path.first ∈ codeStateDeltaFields := by
  decide +kernel

theorem open_first {path : TargetPath} (h : isOpenPath path = true) :
    path.first ∈ codeStateFields ∧ path.first ∈ codeStateDeltaFields ∧
      isOpenTarget path = true := by
  obtain ⟨-, hopen⟩ := (Bool.and_eq_true _ _).mp h
  refine ⟨?_, ?_, hopen⟩
  all_goals
    simp only [openPrefixes, List.contains_eq_mem, decide_eq_true_eq, List.mem_cons,
      List.not_mem_nil, or_false] at hopen
    rcases hopen with hopen | hopen <;> rw [hopen] <;> decide

theorem isOpenTarget_eq_isOpenPath {path : TargetPath} (h : matchesTargetPattern path = true) :
    isOpenTarget path = isOpenPath path := by
  simp [isOpenTarget, isOpenPath, h]

theorem operator_cases (operator : Operator) :
    operator = .changedOnlyIn ∨ operator ∈ pureOperators ∨ operator ∈ baselineOperators := by
  cases operator <;> decide

/-! ## Readings -/

/-- The values that a constraint reads: one for a pure operator, two for a baseline operator;
`none` stands for a path that does not resolve. -/
inductive Reading where
  | one (value : Option JsonValue)
  | two (baseline candidate : Option JsonValue)

def Reading.values : Reading → List (Option JsonValue)
  | .one value => [value]
  | .two baseline candidate => [baseline, candidate]

def reading (c : CompiledConstraint) (input : EvaluationInput) : Reading :=
  if c.kind = .state then .one (resolveState input.candidate c.target)
  else if c.target.first ∈ codeStateDeltaFields then .one (resolveDelta input.delta c.target)
  else .two (resolveState input.baseline c.target) (resolveState input.candidate c.target)

theorem reading_one {c : CompiledConstraint} {input : EvaluationInput} {value : Option JsonValue}
    (h : reading c input = .one value) :
    (c.kind = .state ∧ value = resolveState input.candidate c.target) ∨
      (c.kind ≠ .state ∧ c.target.first ∈ codeStateDeltaFields ∧
        value = resolveDelta input.delta c.target) := by
  unfold reading at h
  by_cases hstate : c.kind = .state
  · rw [if_pos hstate] at h
    exact .inl ⟨hstate, (Reading.one.inj h).symm⟩
  · rw [if_neg hstate] at h
    by_cases hfirst : c.target.first ∈ codeStateDeltaFields
    · rw [if_pos hfirst] at h
      exact .inr ⟨hstate, hfirst, (Reading.one.inj h).symm⟩
    · rw [if_neg hfirst] at h
      cases h

theorem reading_two {c : CompiledConstraint} {input : EvaluationInput} {b v : Option JsonValue}
    (h : reading c input = .two b v) :
    c.target.first ∉ codeStateDeltaFields ∧ b = resolveState input.baseline c.target ∧
      v = resolveState input.candidate c.target := by
  unfold reading at h
  by_cases hstate : c.kind = .state
  · rw [if_pos hstate] at h
    cases h
  · rw [if_neg hstate] at h
    by_cases hfirst : c.target.first ∈ codeStateDeltaFields
    · rw [if_pos hfirst] at h
      cases h
    · rw [if_neg hfirst] at h
      obtain ⟨hb, hv⟩ := Reading.two.inj h
      exact ⟨hfirst, hb.symm, hv.symm⟩

/-- The evaluator gets past its guards and reads the values of the constraint. -/
structure Evaluated (c : CompiledConstraint) (input : EvaluationInput) : Prop where
  kind : c.kind ≠ .repair
  operator : c.operator ≠ .changedOnlyIn
  extracted : skippedDimension c.target input.extractedDimensions = none
  inTime : timedOutDimension c input = none

instance (c : CompiledConstraint) (input : EvaluationInput) : Decidable (Evaluated c input) :=
  decidable_of_iff (c.kind ≠ .repair ∧ c.operator ≠ .changedOnlyIn ∧
      skippedDimension c.target input.extractedDimensions = none ∧
      timedOutDimension c input = none)
    ⟨fun ⟨h₁, h₂, h₃, h₄⟩ => ⟨h₁, h₂, h₃, h₄⟩, fun ⟨h₁, h₂, h₃, h₄⟩ => ⟨h₁, h₂, h₃, h₄⟩⟩

def evaluateReading (c : CompiledConstraint) : Reading → Except PyError ConstraintResult
  | .one value => evaluatePure c value
  | .two baseline candidate => evaluateBaseline c baseline candidate

/-- The operator class fits the reading. -/
def OperatorFits (operator : Operator) : Reading → Prop
  | .one _ => operator ∈ pureOperators
  | .two _ _ => operator ∈ baselineOperators

end SemanticCi.Evaluator

namespace SemanticCi.Compiler.Admitted

open SemanticCi.Python SemanticCi.Framework SemanticCi.Operators SemanticCi.PathResolver
  SemanticCi.Evaluator ExceptRules

variable {c : CompiledConstraint} (hc : Admitted c)

include hc

theorem target_cases (hkind : c.kind ≠ .repair) :
    isOpenPath c.target = true ∨ (isOpenPath c.target = false ∧
      (c.target ∈ validStateTargetPaths ∨ (c.kind = .delta ∧ c.target ∈ deltaTargetPaths))) := by
  obtain ⟨_, _, hchecked, -, -⟩ := hc.checked hkind
  cases hopen : isOpenPath c.target with
  | true => exact .inl rfl
  | false =>
      refine .inr ⟨rfl, ?_⟩
      have htarget := hchecked.target_exists.resolve_right (by simp [hopen])
      cases hstate : c.kind with
      | repair => exact absurd hstate hkind
      | state =>
          rw [if_pos hstate] at htarget
          exact .inl htarget
      | delta =>
          rw [if_neg (by simp [hstate]), validDeltaTargetPaths, List.append_assoc,
            List.mem_append] at htarget
          exact htarget.imp id fun h => ⟨rfl, h⟩

theorem matchesPattern (hkind : c.kind ≠ .repair) : matchesTargetPattern c.target = true := by
  rcases hc.target_cases hkind with hopen | ⟨-, hstate | ⟨-, hdelta⟩⟩
  · exact ((Bool.and_eq_true _ _).mp hopen).1
  · exact closed_paths_match _ (statePaths_subset hstate)
  · refine closed_paths_match _ ?_
    rw [validDeltaTargetPaths, List.append_assoc]
    exact List.mem_append_right _ hdelta

theorem schemaValid (hkind : c.kind ≠ .repair) (hclosed : isOpenPath c.target = false) :
    c.target ∈ validDeltaTargetPaths := by
  rcases hc.target_cases hkind with hopen | ⟨-, hstate | ⟨-, hdelta⟩⟩
  · rw [hclosed] at hopen
    cases hopen
  · exact statePaths_subset hstate
  · rw [validDeltaTargetPaths, List.append_assoc]
    exact List.mem_append_right _ hdelta

/-- The compiler never lets a baseline operator read a single value, or a pure one read two. -/
theorem operatorFits {input : EvaluationInput} (h : Evaluated c input) :
    OperatorFits c.operator (reading c input) := by
  obtain ⟨_, _, hchecked, -, -⟩ := hc.checked h.kind
  have hdomain := hchecked.domain
  have hchanged : c.operator ∉ p1UnsupportedOperators := by
    simpa [p1UnsupportedOperators] using h.operator
  have hclass := (operator_cases c.operator).resolve_left h.operator
  rw [checkOperatorTargetCompatibility, if_neg h.kind, if_neg hchanged] at hdomain
  unfold reading
  by_cases hstate : c.kind = .state
  · rw [if_pos hstate]
    refine hclass.resolve_right fun hbaseline => ?_
    have hbaseline' : c.operator ∈ operatorSchemaBaseline := hbaseline
    rw [if_pos hstate, if_pos hbaseline'] at hdomain
    cases hdomain
  · rw [if_neg hstate]
    rw [if_neg hstate] at hdomain
    by_cases hfirst : c.target.first ∈ codeStateDeltaFields
    · rw [if_pos hfirst]
      refine hclass.resolve_right fun hbaseline => ?_
      have hbaseline' : c.operator ∈ operatorSchemaBaseline := hbaseline
      rw [if_pos hfirst, if_pos hbaseline'] at hdomain
      cases hdomain
    · rw [if_neg hfirst]
      have hfields : c.target.first ∈ codeStateFields := by
        rcases hc.target_cases h.kind with hopen | ⟨hclosed, hpath | ⟨-, hpath⟩⟩
        · exact (open_first hopen).1
        · exact (closed_statePaths_first _ hpath hclosed).1
        · exact absurd (closed_deltaPaths_first _ hpath hclosed) hfirst
      refine hclass.resolve_left fun hpure => ?_
      have hpure' : c.operator ∈ operatorSchemaPure := hpure
      rw [if_neg hfirst, if_pos hfields, if_pos hpure'] at hdomain
      cases hdomain

/-- A user constraint that is evaluated at all is evaluated on its reading. -/
theorem independentResult_eq {compiled : CompiledTarget} {input : EvaluationInput}
    (h : Evaluated c input) :
    independentResult compiled input c =
      catchInternal c (evaluateReading c (reading c input)) := by
  have hpattern := hc.matchesPattern h.kind
  have hfits := hc.operatorFits h
  have hpure (hop : c.operator ∈ pureOperators) : c.operator ∉ baselineOperators := by
    revert hop
    cases c.operator <;> decide
  have hdelta : deltaForConstraint c input.delta compiled.effectAllowNew
      compiled.apiSurfaceAllowChanges = .ok input.delta := by
    simp [deltaForConstraint, hc.source]
  have hstates : statesForConstraint c input.baseline input.candidate
      compiled.apiSurfaceAllowChanges = (input.baseline, input.candidate) := by
    simp [statesForConstraint, hc.source]
  have hresolved : evaluateResolved compiled.effectAllowNew compiled.apiSurfaceAllowChanges input c =
      evaluateReading c (reading c input) := by
    unfold reading at hfits ⊢
    cases hkind : c.kind with
    | repair => exact absurd hkind h.kind
    | state =>
        simp only [hkind, if_true] at hfits
        simp only [evaluateResolved, hkind, if_true, evaluateReading]
        have hfields : c.target.first ∈ codeStateFields := by
          rcases hc.target_cases h.kind with hopen | ⟨hclosed, hpath | ⟨hdelta, -⟩⟩
          · exact (open_first hopen).1
          · exact (closed_statePaths_first _ hpath hclosed).1
          · rw [hkind] at hdelta
            cases hdelta
        rw [evaluateStateConstraint, if_neg (not_not.mpr hfields), if_neg (hpure hfits)]
    | delta =>
        simp only [hkind, reduceCtorEq, if_false] at hfits
        simp only [evaluateResolved, hkind, hdelta, hstates, ok_bind, reduceCtorEq, if_false]
        by_cases hfirst : c.target.first ∈ codeStateDeltaFields
        · rw [if_pos hfirst] at hfits
          rw [evaluateDeltaConstraint, if_pos hfirst, if_neg (hpure hfits), if_pos hfirst]
          rfl
        · rw [if_neg hfirst] at hfits
          have hfields : c.target.first ∈ codeStateFields := by
            rcases hc.target_cases h.kind with hopen | ⟨hclosed, hpath | ⟨-, hpath⟩⟩
            · exact (open_first hopen).1
            · exact (closed_statePaths_first _ hpath hclosed).1
            · exact absurd (closed_deltaPaths_first _ hpath hclosed) hfirst
          have hbaseline : ¬ c.operator ∉ baselineOperators := not_not.mpr hfits
          rw [evaluateDeltaConstraint, if_neg hfirst, if_pos hfields, if_neg hbaseline,
            if_neg hfirst]
          rfl
  rw [independentResult, evaluateConstraint, if_neg h.kind, if_neg h.operator]
  simp only [hpattern, Bool.not_true, Bool.false_eq_true, if_false, h.extracted, h.inTime,
    hresolved]

end SemanticCi.Compiler.Admitted

namespace SemanticCi.Evaluator

open SemanticCi.Python SemanticCi.StateSchema SemanticCi.Framework SemanticCi.Compiler
  SemanticCi.Matching SemanticCi.Operators SemanticCi.PathResolver ExceptRules

/-! ## Status and cause -/

/-- The cause after the re-tagging for open targets. -/
def retag (target : TargetPath) (cause : Option UnknownCause) : Option UnknownCause :=
  if cause = some .authoring ∧ isOpenTarget target = true then some .openRuntime else cause

/-- The result has this status and cause. -/
structure Concludes (r : ConstraintResult) (status : ResultStatus)
    (cause : Option UnknownCause) : Prop where
  status : r.status = status
  cause : r.unknownCause = cause

theorem concludes_of_judged {c : CompiledConstraint} {x : Except PyError OperatorOutcome}
    {status : ResultStatus} {cause : Option UnknownCause} (h : Judged x status cause)
    (hcause : status ≠ .unknown → cause = none) :
    Concludes (catchInternal c (x >>= fun o => pure (fromOperatorOutcome c o))) status
      (retag c.target cause) := by
  obtain ⟨o, rfl, rfl, rfl⟩ := h
  refine ⟨rfl, ?_⟩
  simp only [ok_bind, pure_eq_ok, catchInternal, fromOperatorOutcome, result, retag]
  by_cases hunknown : o.status = .unknown
  · simp [hunknown]
  · simp [hunknown, hcause hunknown]

theorem concludes_satisfied {c : CompiledConstraint} {x : Except PyError OperatorOutcome}
    {p : Prop} (h : Decides x p) (hp : p) :
    Concludes (catchInternal c (x >>= fun o => pure (fromOperatorOutcome c o))) .satisfied none :=
  concludes_of_judged (h.satisfied hp) fun _ => rfl

theorem concludes_violated {c : CompiledConstraint} {x : Except PyError OperatorOutcome}
    {p : Prop} (h : Decides x p) (hp : ¬ p) :
    Concludes (catchInternal c (x >>= fun o => pure (fromOperatorOutcome c o))) .violated none :=
  concludes_of_judged (h.violated hp) fun _ => rfl

theorem concludes_of_error {c : CompiledConstraint} {x : Except PyError OperatorOutcome}
    {e : PyError} (h : x = .error e) :
    Concludes (catchInternal c (x >>= fun o => pure (fromOperatorOutcome c o))) .unknown
      (some .evaluatorInternal) := by
  subst h
  exact ⟨rfl, rfl⟩

theorem evaluatePure_some (c : CompiledConstraint) (v : JsonValue) :
    evaluatePure c (some v) =
      evaluatePureOperator c.operator v.toPy c.expected c.tolerance >>= fun o =>
        pure (fromOperatorOutcome c o) := rfl

theorem evaluateBaseline_some (c : CompiledConstraint) (b v : JsonValue) :
    evaluateBaseline c (some b) (some v) =
      evaluateBaselineOperator c.operator b.toPy v.toPy >>= fun o =>
        pure (fromOperatorOutcome c o) := rfl

/-- The cause of a value that is not there. -/
def missingCause (target : TargetPath) : UnknownCause :=
  if isOpenPath target then .openRuntime else .extraction

theorem resolvedUnknownCause_eq {target : TargetPath} (hpattern : matchesTargetPattern target = true)
    (hvalid : isOpenPath target = false → target ∈ validDeltaTargetPaths) :
    resolvedUnknownCause target = missingCause target := by
  unfold resolvedUnknownCause missingCause
  rw [isOpenTarget_eq_isOpenPath hpattern]
  cases hopen : isOpenPath target with
  | true => rfl
  | false =>
      have hschema : isSchemaValidTarget target = true := by
        simp [isSchemaValidTarget, hvalid hopen]
      simp [hschema]

theorem concludes_unresolved {c : CompiledConstraint} (hc : Admitted c) (hkind : c.kind ≠ .repair) :
    Concludes (unresolvedResult c) .unknown (some (missingCause c.target)) := by
  refine ⟨rfl, ?_⟩
  rw [← resolvedUnknownCause_eq (hc.matchesPattern hkind) (hc.schemaValid hkind)]
  rfl

end SemanticCi.Evaluator
