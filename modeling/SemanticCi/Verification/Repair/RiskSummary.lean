import SemanticCi.Model.RiskSummary
import SemanticCi.Verification.Hazards.LockOnly

/-! The risk summary against every user constraint evaluated on its own: which requirements of an
unchanged baseline it reports, and which delta constraints are among them. -/

namespace SemanticCi.RepairCompiler

open SemanticCi.Python SemanticCi.StateSchema SemanticCi.Framework SemanticCi.Compiler
  SemanticCi.Matching SemanticCi.Operators SemanticCi.PathResolver SemanticCi.Evaluator
  SemanticCi.Hazards ExceptRules

/-! ## Literals that turn a value away -/

/-- What the literal of a pure operator says against a value. -/
inductive TurnsAway (c : CompiledConstraint) (v : JsonValue) : Prop where
  | differs {e : PyValue} (operator : c.operator = .equals) (literal : canon c.expected = .ok e)
      (value : jsonNorm v ≠ e.norm)
  | agrees {e : PyValue} (operator : c.operator = .notEquals) (literal : canon c.expected = .ok e)
      (value : jsonNorm v = e.norm)
  | members {e : PyValue} (operator : c.operator ∈ collectionOperators)
      (literal : canon c.expected = .ok e) (value : IsCollection (jsonNorm v))
      (fails : ¬ SetHolds c.operator (Members (jsonNorm v)) (Members e.norm))
  | number {relation : Relation} {x bound : PyNum}
      (operator : numericRelation c.operator = some relation)
      (literal : c.expected.asNumber? = some bound) (value : v.toPy.asNumber? = some x)
      (fails : relationHolds relation x bound (toleranceOrZero c.tolerance) = .ok false)
  | range {x low high : PyNum} (operator : c.operator = .withinRange)
      (literal : rangeBounds? c.expected = some (low, high)) (value : v.toPy.asNumber? = some x)
      (fails : rangeHolds x low high (toleranceOrZero c.tolerance) = .ok false)

section OneValue

variable {c : CompiledConstraint} {v : JsonValue}

theorem TurnsAway.operator_pure (h : TurnsAway c v) : c.operator ∈ pureOperators := by
  cases h with
  | differs hop => rw [hop]; decide
  | agrees hop => rw [hop]; decide
  | members hop => revert hop; cases c.operator <;> decide
  | number hop => revert hop; cases c.operator <;> simp [numericRelation, pureOperators]
  | range hop => rw [hop]; decide

/-- The outcome of a decided operator on the value is a violation when it does not hold. -/
theorem violated_iff_of_decides {p : Prop}
    (h : Decides (evaluatePureOperator c.operator v.toPy c.expected c.tolerance) p) :
    (catchInternal c (evaluatePure c (some v))).status = .violated ↔ ¬ p := by
  rw [evaluatePure_some]
  by_cases hp : p
  · rw [(concludes_satisfied h hp).status]
    simp [hp]
  · rw [(concludes_violated h hp).status]
    simp [hp]

theorem not_violated_of_error {e : PyError}
    (h : evaluatePureOperator c.operator v.toPy c.expected c.tolerance = .error e) :
    (catchInternal c (evaluatePure c (some v))).status ≠ .violated := by
  rw [evaluatePure_some, (concludes_of_error h).status]
  simp

theorem not_violated_of_mismatch
    (h : Judged (evaluatePureOperator c.operator v.toPy c.expected c.tolerance) .unknown
      (some .authoring)) :
    (catchInternal c (evaluatePure c (some v))).status ≠ .violated := by
  rw [evaluatePure_some, (concludes_of_judged h (by simp)).status]
  simp

variable (hc : Admitted c) (hkind : c.kind ≠ .repair)

include hc hkind

/-- The literal of a set operator is a collection. -/
theorem literal_isCollection (hop : c.operator ∈ collectionOperators) {e : PyValue}
    (he : canon c.expected = .ok e) : IsCollection e.norm := by
  obtain ⟨kind, items, hseq⟩ := hc.expected_seq hkind hop
  rw [hseq] at he
  exact isCollection_canon_seq he

theorem decides_set (hop : c.operator ∈ collectionOperators) {e : PyValue}
    (he : canon c.expected = .ok e) (hv : IsCollection (jsonNorm v)) :
    Decides (evaluatePureOperator c.operator v.toPy c.expected c.tolerance)
      (SetHolds c.operator (Members (jsonNorm v)) (Members e.norm)) := by
  obtain ⟨w, hw, hnorm⟩ := canon_toPy v
  rw [← hnorm] at hv ⊢
  have hliteral := literal_isCollection hc hkind hop he
  exact (decides_setOperator hop hw he hv hliteral c.tolerance).evaluatePureOperator

theorem decides_range (hop : c.operator = .withinRange) {x low high : PyNum}
    (hx : v.toPy.asNumber? = some x) (hbounds : rangeBounds? c.expected = some (low, high))
    {b : Bool} (hb : rangeHolds x low high (toleranceOrZero c.tolerance) = .ok b) :
    Decides (evaluatePureOperator c.operator v.toPy c.expected c.tolerance) (b = true) := by
  obtain ⟨e, low', high', he, hcanonical, hliteral⟩ := canon_withinRange hc hkind hop
  obtain ⟨rfl, rfl⟩ := Prod.mk.inj (Option.some.inj (hliteral.symm.trans hbounds))
  rw [hop]
  exact Decides.evaluatePureOperator (decides_withinRange hx he hcanonical hb)

omit hc hkind in
theorem decides_number {relation : Relation} (hop : numericRelation c.operator = some relation)
    {x bound : PyNum} (hx : v.toPy.asNumber? = some x) (hbound : c.expected.asNumber? = some bound)
    {b : Bool} (hb : relationHolds relation x bound (toleranceOrZero c.tolerance) = .ok b) :
    Decides (evaluatePureOperator c.operator v.toPy c.expected c.tolerance) (b = true) := by
  apply Decides.evaluatePureOperator
  rw [pureDispatch_numeric hop]
  exact decides_numericCompare hx hbound hb

theorem violated_of_turnsAway (h : TurnsAway c v) :
    (catchInternal c (evaluatePure c (some v))).status = .violated := by
  obtain ⟨w, hw, hnorm⟩ := canon_toPy v
  cases h with
  | differs hop he hne =>
      have hdecides := evaluatePureOperator_equals hop hw he c.tolerance
      rw [hnorm] at hdecides
      exact (violated_iff_of_decides hdecides).mpr hne
  | agrees hop he heq =>
      have hdecides := evaluatePureOperator_notEquals hop hw he c.tolerance
      rw [hnorm] at hdecides
      exact (violated_iff_of_decides hdecides).mpr fun hne => hne heq
  | members hop he hv hfails =>
      exact (violated_iff_of_decides (decides_set hc hkind hop he hv)).mpr hfails
  | number hop hbound hx hfails =>
      exact (violated_iff_of_decides (decides_number hop hx hbound hfails)).mpr (by simp)
  | range hop hbounds hx hfails =>
      exact (violated_iff_of_decides (decides_range hc hkind hop hx hbounds hfails)).mpr (by simp)

/-- A numeric operator that finds a violation has compared the value and found it outside. -/
theorem turnsAway_of_violated_number (hop : c.operator ∈ numericOperators)
    (h : (catchInternal c (evaluatePure c (some v))).status = .violated) : TurnsAway c v := by
  obtain ⟨w, hw, -⟩ := canon_toPy v
  obtain ⟨relation, hrelation⟩ := numericRelation_of_mem hop
  obtain ⟨bound, hbound⟩ := hc.expected_number hkind hop
  have hdispatch := pureDispatch_numeric hrelation v.toPy c.expected c.tolerance
  cases hx : v.toPy.asNumber? with
  | none =>
      refine absurd h (not_violated_of_mismatch (Judged.evaluatePureOperator ?_))
      rw [hdispatch]
      exact judged_numericCompare_mismatch hw (canon_of_asNumber hbound) hx _ _
  | some x =>
      cases hholds : relationHolds relation x bound (toleranceOrZero c.tolerance) with
      | error e =>
          refine absurd h (not_violated_of_error (e := .overflowError) ?_)
          rw [evaluatePureOperator, hdispatch, numericCompare_error hx hbound hholds,
            relationHolds_error hholds]
          rfl
      | ok b =>
          have hb := (violated_iff_of_decides (decides_number hrelation hx hbound hholds)).mp h
          rw [Bool.not_eq_true] at hb
          exact .number hrelation hbound hx (hb ▸ hholds)

theorem turnsAway_of_violated_range (hop : c.operator = .withinRange)
    (h : (catchInternal c (evaluatePure c (some v))).status = .violated) : TurnsAway c v := by
  obtain ⟨w, hw, -⟩ := canon_toPy v
  obtain ⟨e, low, high, he, hcanonical, hbounds⟩ := canon_withinRange hc hkind hop
  have hdispatch : pureDispatch c.operator v.toPy c.expected c.tolerance =
      withinRange v.toPy c.expected c.tolerance := by
    rw [hop]
    rfl
  cases hx : v.toPy.asNumber? with
  | none =>
      refine absurd h (not_violated_of_mismatch (Judged.evaluatePureOperator ?_))
      rw [hdispatch]
      exact judged_withinRange_mismatch hw he hx _
  | some x =>
      cases hholds : rangeHolds x low high (toleranceOrZero c.tolerance) with
      | error e =>
          refine absurd h (not_violated_of_error (e := .overflowError) ?_)
          rw [evaluatePureOperator, hdispatch, withinRange_error hx he hcanonical hholds,
            rangeHolds_error hholds]
          rfl
      | ok b =>
          have hdecides := decides_range hc hkind hop hx hbounds hholds
          have hb := (violated_iff_of_decides hdecides).mp h
          rw [Bool.not_eq_true] at hb
          exact .range hop hbounds hx (hb ▸ hholds)

/-- A pure operator finds a violation exactly when its literal turns the value away. -/
theorem violated_iff_turnsAway (hop : c.operator ∈ pureOperators) :
    (catchInternal c (evaluatePure c (some v))).status = .violated ↔ TurnsAway c v := by
  refine ⟨fun h => ?_, violated_of_turnsAway hc hkind⟩
  obtain ⟨w, hw, hnorm⟩ := canon_toPy v
  rcases ok_or_error (canon c.expected) with ⟨e, he⟩ | ⟨err, he⟩
  · rcases pureOperators_cases hop with heq | heq | hset | hnumeric | hrange
    · have hdecides := evaluatePureOperator_equals heq hw he c.tolerance
      rw [hnorm] at hdecides
      exact .differs heq he ((violated_iff_of_decides hdecides).mp h)
    · have hdecides := evaluatePureOperator_notEquals heq hw he c.tolerance
      rw [hnorm] at hdecides
      exact .agrees heq he (not_not.mp ((violated_iff_of_decides hdecides).mp h))
    · by_cases hv : IsCollection (jsonNorm v)
      · have hdecides := decides_set hc hkind hset he hv
        exact .members hset he hv ((violated_iff_of_decides hdecides).mp h)
      · refine absurd h (not_violated_of_mismatch (Judged.evaluatePureOperator ?_))
        rw [← hnorm] at hv
        exact judged_setOperator_mismatch hset hw he (fun hboth => hv hboth.1) _
    · exact turnsAway_of_violated_number hc hkind hnumeric h
    · exact turnsAway_of_violated_range hc hkind hrange h
  · exact absurd h (not_violated_of_error (evaluatePureOperator_of_canon_error hop hw he _))

end OneValue

/-! ## The baseline against itself -/

/-- A user constraint of kind `state` that the baseline breaks. -/
def BreaksRequirement (baseline : CodeState) (c : CompiledConstraint) : Prop :=
  c.kind = .state ∧ ∃ v, resolveState baseline c.target = some v ∧ TurnsAway c v

/-- A constraint of kind `delta` that an unchanged baseline cannot meet: it asks for a change of
the state, or its literal turns away what the empty delta holds at its target. -/
def DemandsChange (c : CompiledConstraint) : Prop :=
  c.kind = .delta ∧ (c.operator = .changed ∨ c.operator = .notEqualsBaseline ∨
    ∃ v, resolveDelta {} c.target = some v ∧ TurnsAway c v)

/-- A hard user lock on the coverage records of a baseline that has none. -/
structure LocksMissingCoverage (baseline : CodeState) (c : CompiledConstraint) : Prop where
  source : c.source = .user
  severity : c.severity = .hard
  kind : c.kind = .delta
  target : c.target = ["coverage"]
  operator : c.operator ∈ baselineSetOperators
  missing : baseline.coverage = none

theorem selfInput_eq (baseline : CodeState) : selfInput baseline = emptyDiffInput baseline [] := by
  rw [selfInput, emptyDiffInput, Delta.computeCodeStateDelta_self]
  rfl

section OneConstraint

variable {compiled : CompiledTarget} {baseline : CodeState} {c : CompiledConstraint}

/-- What is not evaluated is not violated. -/
theorem skipped_of_kind_or_operator (h : c.kind = .repair ∨ c.operator = .changedOnlyIn) :
    (independentResult compiled (selfInput baseline) c).status = .skipped := by
  rw [independentResult, evaluateConstraint]
  by_cases hkind : c.kind = .repair
  · rw [if_pos hkind]
    rfl
  · rw [if_neg hkind, if_pos (h.resolve_left hkind)]
    rfl

/-- Of the operators against the baseline, a value only breaks the two that ask for a change
when it meets itself. -/
theorem baseline_violated_iff (hop : c.operator ∈ baselineOperators) (x : JsonValue) :
    (catchInternal c (evaluateBaseline c (some x) (some x))).status = .violated ↔
      c.operator = .changed ∨ c.operator = .notEqualsBaseline := by
  obtain ⟨w, hw, -⟩ := canon_toPy x
  rw [evaluateBaseline_some]
  by_cases hshape : c.operator ∈ baselineSetOperators → IsCollection w.norm ∧ IsCollection w.norm
  · have hdecides := (decides_baselineOperator hop hw hw hshape).evaluateBaselineOperator
    have hholds : BaselineHolds c.operator w.norm w.norm ↔
        ¬ (c.operator = .changed ∨ c.operator = .notEqualsBaseline) := by
      revert hop
      cases c.operator <;> simp [BaselineHolds, baselineOperators]
    by_cases hasks : c.operator = .changed ∨ c.operator = .notEqualsBaseline
    · rw [(concludes_violated hdecides fun h => hholds.mp h hasks).status]
      simp [hasks]
    · rw [(concludes_satisfied hdecides (hholds.mpr hasks)).status]
      simp [hasks]
  · simp only [Classical.not_imp] at hshape
    obtain ⟨hset, hmixed⟩ := hshape
    have hmismatch := judged_baselineSetOperator_mismatch hset hw hw hmixed
    rw [(concludes_of_judged hmismatch.evaluateBaselineOperator (by simp)).status]
    revert hset
    cases c.operator <;> decide

variable (hc : Admitted c)

include hc

/-- A constraint of kind `state` is violated exactly when the baseline breaks it. -/
theorem state_violated_iff (hkind : c.kind = .state) :
    (independentResult compiled (selfInput baseline) c).status = .violated ↔
      BreaksRequirement baseline c := by
  have hrepair : c.kind ≠ .repair := by
    rw [hkind]
    decide
  by_cases hop : c.operator = .changedOnlyIn
  · rw [skipped_of_kind_or_operator (.inr hop)]
    refine iff_of_false (by decide) ?_
    rintro ⟨-, v, -, hturns⟩
    have hpure := hturns.operator_pure
    rw [hop] at hpure
    revert hpure
    decide
  have hevaluated := evaluated_emptyDiff hrepair hop baseline []
  have hfits := hc.operatorFits hevaluated
  have hreading : reading c (emptyDiffInput baseline []) =
      .one (resolveState baseline c.target) := by
    rw [reading, if_pos hkind]
    rfl
  rw [hreading] at hfits
  rw [selfInput_eq, hc.independentResult_eq hevaluated, hreading, evaluateReading]
  cases hvalue : resolveState baseline c.target with
  | none =>
      refine iff_of_false (fun h => by cases h) ?_
      rintro ⟨-, v, hv, -⟩
      rw [hvalue] at hv
      cases hv
  | some v =>
      rw [violated_iff_turnsAway hc hrepair hfits]
      refine ⟨fun h => ⟨hkind, v, hvalue, h⟩, ?_⟩
      rintro ⟨-, v', hv', h⟩
      obtain rfl := Option.some.inj (hvalue.symm.trans hv')
      exact h

/-- A constraint of kind `delta` is violated exactly when it asks for a change. -/
theorem delta_violated_iff (hkind : c.kind = .delta) :
    (independentResult compiled (selfInput baseline) c).status = .violated ↔ DemandsChange c := by
  have hrepair : c.kind ≠ .repair := by
    rw [hkind]
    decide
  have hnot_baseline (h : c.operator ∈ pureOperators) :
      ¬ (c.operator = .changed ∨ c.operator = .notEqualsBaseline) := by
    revert h
    cases c.operator <;> decide
  by_cases hop : c.operator = .changedOnlyIn
  · rw [skipped_of_kind_or_operator (.inr hop)]
    refine iff_of_false (by decide) ?_
    rintro ⟨-, hchanged | hchanged | ⟨v, -, hturns⟩⟩
    · rw [hop] at hchanged
      cases hchanged
    · rw [hop] at hchanged
      cases hchanged
    · have hpure := hturns.operator_pure
      rw [hop] at hpure
      revert hpure
      decide
  have hevaluated := evaluated_emptyDiff hrepair hop baseline []
  have hfits := hc.operatorFits hevaluated
  rw [selfInput_eq, hc.independentResult_eq hevaluated]
  cases hreading : reading c (emptyDiffInput baseline []) with
  | one value =>
      rw [hreading] at hfits
      have hvalue : value = resolveDelta {} c.target := by
        rcases reading_one hreading with ⟨hstate, -⟩ | ⟨-, -, hvalue⟩
        · rw [hkind] at hstate
          cases hstate
        · rw [hvalue, emptyDiff_delta]
          rfl
      rw [evaluateReading]
      cases value with
      | none =>
          refine iff_of_false (fun h => by cases h) ?_
          rintro ⟨-, hchanged | hchanged | ⟨v, hv, -⟩⟩
          · exact hnot_baseline hfits (.inl hchanged)
          · exact hnot_baseline hfits (.inr hchanged)
          · rw [← hvalue] at hv
            cases hv
      | some v =>
          rw [violated_iff_turnsAway hc hrepair hfits]
          refine ⟨fun h => ⟨hkind, .inr (.inr ⟨v, hvalue.symm, h⟩)⟩, ?_⟩
          rintro ⟨-, hchanged | hchanged | ⟨v', hv', h⟩⟩
          · exact absurd (.inl hchanged) (hnot_baseline hfits)
          · exact absurd (.inr hchanged) (hnot_baseline hfits)
          · obtain rfl := Option.some.inj (hvalue.trans hv')
            exact h
  | two b v =>
      rw [hreading] at hfits
      obtain ⟨x, rfl, rfl, -⟩ := reading_two_emptyDiff hc hrepair hreading
      rw [evaluateReading, baseline_violated_iff hfits]
      refine ⟨fun h => ⟨hkind, h.imp id .inl⟩, ?_⟩
      rintro ⟨-, hchanged | hchanged | ⟨v, -, hturns⟩⟩
      · exact .inl hchanged
      · exact .inr hchanged
      · have hpure := hturns.operator_pure
        have hbaseline : c.operator ∈ baselineOperators := hfits
        revert hpure hbaseline
        cases c.operator <;> decide

/-- The short circuit only ever looks at constraints of kind `delta`. -/
theorem delta_of_userLock {r : ConstraintResult} (hr : ResultOf c r)
    (hrepair : c.kind ≠ .repair) (hop : c.operator ≠ .changedOnlyIn)
    (h : isUserLockResult c r = true) :
    c.kind = .delta ∧ c.severity = .hard ∧
      (c.operator ∈ lockShortCircuitOperators ∨ c.target ∈ deltaLockCollectionTargets ∨
        c.operator = .equals) := by
  have hevaluated := evaluated_emptyDiff hrepair hop {} []
  have hfits := hc.operatorFits hevaluated
  unfold isUserLockResult at h
  split at h
  · cases h
  rename_i hhard
  rw [hr.severity] at hhard
  rw [hr.operator, Bool.or_eq_true, Bool.or_eq_true, decide_eq_true_eq] at h
  refine ⟨?_, by_contra fun hne => hhard (.inr hne), ?_⟩
  · rcases h with (hlock | hempty) | hdeny
    · cases hkind : c.kind with
      | delta => rfl
      | repair => exact absurd hkind hrepair
      | state =>
          have hreading : reading c (emptyDiffInput {} []) = .one (resolveState {} c.target) := by
            rw [reading, if_pos hkind]
            rfl
          rw [hreading] at hfits
          have hpure : c.operator ∈ pureOperators := hfits
          revert hlock hpure
          cases c.operator <;> decide
    · by_contra hkind
      simp [isEqualsEmptyDeltaLock, hkind] at hempty
    · by_contra hkind
      simp [isDenyStyleDeltaLock, hkind] at hdeny
  · rcases h with (hlock | hempty) | hdeny
    · exact .inl hlock
    · refine .inr (.inr ?_)
      by_contra hne
      simp [isEqualsEmptyDeltaLock, hne] at hempty
    · simp only [isDenyStyleDeltaLock, decide_eq_true_eq] at hdeny
      exact .inr (.inl hdeny.2.2)

/-- A set operator against the baseline on the coverage records: satisfied when they are there,
an authoring error when they are not. -/
theorem concludes_coverage (hkind : c.kind = .delta) (htarget : c.target = ["coverage"])
    (hop : c.operator ∈ baselineSetOperators) :
    Concludes (independentResult compiled (selfInput baseline) c)
      (if baseline.coverage = none then .unknown else .satisfied)
      (if baseline.coverage = none then some .authoring else none) := by
  have hrepair : c.kind ≠ .repair := by
    rw [hkind]
    decide
  have hchanged : c.operator ≠ .changedOnlyIn := by
    revert hop
    cases c.operator <;> decide
  have hreflexive : c.operator ∈ reflexiveOperators := by
    revert hop
    cases c.operator <;> decide
  have hevaluated := evaluated_emptyDiff hrepair hchanged baseline []
  have hclosed : isOpenTarget c.target = false := by
    rw [isOpenTarget_eq_isOpenPath (hc.matchesPattern hrepair), htarget, coverage_category.1]
  have hvalue : resolveState baseline c.target =
      some (.ofOption (fun entries => .array (entries.map fun e => .object e.dump))
        baseline.coverage) := by
    rw [htarget]
    rfl
  have hreading : reading c (emptyDiffInput baseline []) =
      .two (resolveState baseline c.target) (resolveState baseline c.target) := by
    rw [reading, if_neg (by rw [hkind]; decide), if_neg (by rw [htarget]; decide)]
    rfl
  rw [selfInput_eq, hc.independentResult_eq hevaluated, hreading, evaluateReading, hvalue]
  cases baseline.coverage with
  | none => exact concludes_baseline_null hop hclosed
  | some entries => exact concludes_baseline_self hreflexive fun _ => ⟨_, rfl⟩

/-- Next to constraints that do not ask for a change, only a lock on missing coverage records
stops the loop. -/
theorem stops_iff (hdemands : ¬ DemandsChange c) :
    shouldShortCircuit c (independentResult compiled (selfInput baseline) c) = true ↔
      LocksMissingCoverage baseline c := by
  have hresult := resultOf_independentResult compiled (selfInput baseline) c
  constructor
  · intro hstops
    unfold shouldShortCircuit at hstops
    split at hstops
    · cases hstops
    rename_i hlock
    rw [Bool.not_eq_true, Bool.not_eq_false'] at hlock
    have hstatus : (independentResult compiled (selfInput baseline) c).status ≠ .skipped := by
      intro hskipped
      simp [hskipped] at hstops
    have hrepair : c.kind ≠ .repair := fun h => hstatus (skipped_of_kind_or_operator (.inl h))
    have hop : c.operator ≠ .changedOnlyIn :=
      fun h => hstatus (skipped_of_kind_or_operator (.inr h))
    obtain ⟨hkind, hhard, hshape⟩ := delta_of_userLock hc hresult hrepair hop hlock
    rw [if_neg fun h => hdemands ((delta_violated_iff hc hkind).mp h), decide_eq_true_eq] at hstops
    obtain ⟨-, htarget, hneeds⟩ : NeedsCoverage c := by
      by_contra hno
      rw [selfInput_eq] at hstops
      exact not_authoring hc hrepair hop hno baseline [] hstops
    have hset : c.operator ∈ baselineSetOperators := by
      refine hneeds.resolve_right fun hpure => ?_
      have hcollection := hpure.1
      rcases hshape with hlock | hcollections | hequals
      · revert hlock hcollection
        cases c.operator <;> decide
      · rw [htarget] at hcollections
        revert hcollections
        decide
      · rw [hequals] at hcollection
        revert hcollection
        decide
    refine ⟨hc.source, hhard, hkind, htarget, hset, ?_⟩
    by_contra hpresent
    have hsatisfied : Concludes (independentResult compiled (selfInput baseline) c) _ _ :=
      concludes_coverage hc hkind htarget hset
    rw [if_neg hpresent] at hsatisfied
    rw [hsatisfied.status] at hstops
    cases hstops.1
  · intro hlocks
    have hauthoring : Concludes (independentResult compiled (selfInput baseline) c) _ _ :=
      concludes_coverage hc hlocks.kind hlocks.target hlocks.operator
    rw [if_pos hlocks.missing, if_pos hlocks.missing] at hauthoring
    have hlock : c.operator ∈ lockShortCircuitOperators := by
      have hset := hlocks.operator
      revert hset
      cases c.operator <;> decide
    have huser : isUserLockResult c (independentResult compiled (selfInput baseline) c) = true := by
      simp [isUserLockResult, hresult.source, hresult.severity, hresult.operator, hc.source,
        hlocks.severity, hlock]
    simp [shouldShortCircuit, huser, hauthoring.status, hauthoring.cause]

end OneConstraint

/-! ## The whole target -/

/-- `_validate_unique_ids` lets through what has an id of its own, also against those it has
seen. -/
theorem validateUniqueIds_nodup {seen : List (String × String)} {templates users : ℕ}
    {cs : List CompiledConstraint} (h : validateUniqueIds seen templates users cs = .ok ()) :
    (cs.map (·.id)).Nodup ∧ ∀ c ∈ cs, seen.lookup c.id = none := by
  induction cs generalizing seen templates users with
  | nil => simp
  | cons c rest ih =>
      rw [validateUniqueIds] at h
      cases hseen : seen.lookup c.id with
      | some previous =>
          simp only [hseen] at h
          cases h
      | none =>
          simp only [hseen] at h
          obtain ⟨hnodup, hfresh⟩ := ih h
          have hlater : ∀ d ∈ rest, d.id ≠ c.id ∧ seen.lookup d.id = none := by
            intro d hd
            have hd := hfresh d hd
            rw [List.lookup_cons] at hd
            cases hbeq : d.id == c.id with
            | true => simp [hbeq] at hd
            | false =>
                rw [hbeq] at hd
                exact ⟨ne_of_beq_false hbeq, hd⟩
          refine ⟨?_, ?_⟩
          · rw [List.map_cons, List.nodup_cons]
            refine ⟨fun hmem => ?_, hnodup⟩
            obtain ⟨d, hd, hid⟩ := List.mem_map.mp hmem
            exact (hlater d hd).1 hid
          · intro d hd
            rcases List.mem_cons.mp hd with rfl | hd
            · exact hseen
            · exact (hlater d hd).2

theorem ids_nodup {svp : TargetSVP} {compiled : CompiledTarget}
    (h : compileTargetSvp svp = .ok compiled) : (compiled.constraints.map (·.id)).Nodup := by
  obtain ⟨⟨⟩, -, h⟩ := bind_eq_ok_iff.mp h
  obtain ⟨users, -, h⟩ := bind_eq_ok_iff.mp h
  obtain ⟨⟨⟩, hunique, h⟩ := bind_eq_ok_iff.mp h
  cases h
  exact (validateUniqueIds_nodup hunique).1

/-- The ids, in order, of the user constraints that are violated when each is evaluated on its
own. -/
def violatedOnTheirOwn (compiled : CompiledTarget) (baseline : CodeState) : List String :=
  compiled.constraints.filterMap fun c =>
    if c.source = .user ∧
        (independentResult compiled (selfInput baseline) c).status = .violated then some c.id
    else none

/-- The summary reports what the baseline breaks and nothing of kind `delta`. -/
structure ReportsBaseline (compiled : CompiledTarget) (baseline : CodeState)
    (reported : List String) : Prop where
  exactly : reported = violatedOnTheirOwn compiled baseline
  no_delta : ∀ c ∈ compiled.constraints, c.kind = .delta → c.id ∉ reported

/-- No user constraint asks for a change, and none that the baseline breaks stands behind a lock
on coverage records that are missing. -/
structure AsksNothingNew (compiled : CompiledTarget) (baseline : CodeState) : Prop where
  demands : ∀ c ∈ compiled.constraints, c.source = .user → ¬ DemandsChange c
  locks : compiled.constraints.Pairwise fun lock c =>
    LocksMissingCoverage baseline lock → ¬ (c.source = .user ∧ BreaksRequirement baseline c)

section OneTarget

variable {svp : TargetSVP} {compiled : CompiledTarget} (h : compileTargetSvp svp = .ok compiled)
  (baseline : CodeState)

omit h in
theorem violatedUserId_independentResult (c : CompiledConstraint) :
    violatedUserId (independentResult compiled (selfInput baseline) c) =
      if c.source = .user ∧
        (independentResult compiled (selfInput baseline) c).status = .violated then some c.id
      else none := by
  have hresult := resultOf_independentResult compiled (selfInput baseline) c
  rw [violatedUserId, hresult.source, hresult.constraintId]

omit h in
/-- The loop reports the same as the independent evaluation exactly when nothing stops it in
front of a violated user constraint. -/
theorem wouldViolate_eq_iff :
    wouldViolate (evaluateConstraints compiled (selfInput baseline)).results =
        violatedOnTheirOwn compiled baseline ↔
      compiled.constraints.Pairwise fun lock c =>
        shouldShortCircuit lock (independentResult compiled (selfInput baseline) lock) = true →
          ¬ (c.source = .user ∧
            (independentResult compiled (selfInput baseline) c).status = .violated) := by
  have hskip (c : CompiledConstraint) : violatedUserId (shortCircuitSkippedResult c) = none := by
    simp [violatedUserId, shortCircuitSkippedResult, result]
  have hown : (compiled.constraints.map (independentResult compiled (selfInput baseline))).filterMap
      violatedUserId = violatedOnTheirOwn compiled baseline := by
    rw [List.filterMap_map, violatedOnTheirOwn]
    exact List.filterMap_congr fun c _ => violatedUserId_independentResult baseline c
  rw [wouldViolate, evaluateConstraints_results, ← hown, EarlyExit.filterMap_run_eq_iff hskip]
  have hpick (c : CompiledConstraint) :
      violatedUserId (independentResult compiled (selfInput baseline) c) = none ↔
        ¬ (c.source = .user ∧
          (independentResult compiled (selfInput baseline) c).status = .violated) := by
    rw [violatedUserId_independentResult]
    split <;> simp_all
  simp only [hpick]

include h

theorem mem_violatedOnTheirOwn_iff {c : CompiledConstraint} (hc : c ∈ compiled.constraints) :
    c.id ∈ violatedOnTheirOwn compiled baseline ↔ c.source = .user ∧
      (independentResult compiled (selfInput baseline) c).status = .violated := by
  rw [violatedOnTheirOwn, List.mem_filterMap]
  constructor
  · rintro ⟨d, hd, hpick⟩
    split at hpick
    · rename_i hviolated
      obtain rfl : d = c :=
        List.inj_on_of_nodup_map (ids_nodup h) hd hc (Option.some.inj hpick)
      exact hviolated
    · cases hpick
  · intro hviolated
    exact ⟨c, hc, if_pos hviolated⟩

/-- A user constraint that asks for no change is violated when the baseline breaks it. -/
theorem user_violated_iff {c : CompiledConstraint} (hc : c ∈ compiled.constraints)
    (hdemands : c.source = .user → ¬ DemandsChange c) :
    (c.source = .user ∧ (independentResult compiled (selfInput baseline) c).status = .violated) ↔
      c.source = .user ∧ BreaksRequirement baseline c := by
  refine and_congr_right fun huser => ?_
  have hadmitted := admitted_of_user h hc huser
  cases hkind : c.kind with
  | state => exact state_violated_iff hadmitted hkind
  | delta =>
      rw [delta_violated_iff hadmitted hkind]
      refine iff_of_false (hdemands huser) fun hbreaks => ?_
      rw [hbreaks.1] at hkind
      cases hkind
  | repair =>
      rw [skipped_of_kind_or_operator (.inl hkind)]
      refine iff_of_false (by decide) fun hbreaks => ?_
      rw [hbreaks.1] at hkind
      cases hkind

theorem user_stops_iff {c : CompiledConstraint} (hc : c ∈ compiled.constraints)
    (hdemands : c.source = .user → ¬ DemandsChange c) :
    shouldShortCircuit c (independentResult compiled (selfInput baseline) c) = true ↔
      LocksMissingCoverage baseline c := by
  cases hsource : c.source with
  | user => exact stops_iff (admitted_of_user h hc hsource) (hdemands hsource)
  | template =>
      refine iff_of_false ?_ fun hlocks => ?_
      · have hresult := resultOf_independentResult compiled (selfInput baseline) c
        rw [shouldShortCircuit_of_template (hresult.source.trans hsource)]
        simp
      · rw [hlocks.source] at hsource
        cases hsource

theorem reportsBaseline_iff :
    ReportsBaseline compiled baseline
        (wouldViolate (evaluateConstraints compiled (selfInput baseline)).results) ↔
      AsksNothingNew compiled baseline := by
  have hpairs (hdemands : ∀ c ∈ compiled.constraints, c.source = .user → ¬ DemandsChange c) :
      wouldViolate (evaluateConstraints compiled (selfInput baseline)).results =
          violatedOnTheirOwn compiled baseline ↔
        compiled.constraints.Pairwise fun lock c =>
          LocksMissingCoverage baseline lock →
            ¬ (c.source = .user ∧ BreaksRequirement baseline c) := by
    rw [wouldViolate_eq_iff]
    refine List.Pairwise.iff_of_mem fun {lock c} hlock hc => ?_
    rw [user_stops_iff h baseline hlock (hdemands lock hlock),
      user_violated_iff h baseline hc (hdemands c hc)]
  constructor
  · intro hreports
    have hdemands : ∀ c ∈ compiled.constraints, c.source = .user → ¬ DemandsChange c := by
      intro c hc huser hasks
      refine hreports.no_delta c hc hasks.1 ?_
      rw [hreports.exactly, mem_violatedOnTheirOwn_iff h baseline hc]
      exact ⟨huser, (delta_violated_iff (admitted_of_user h hc huser) hasks.1).mpr hasks⟩
    exact ⟨hdemands, (hpairs hdemands).mp hreports.exactly⟩
  · intro hasks
    have hexactly := (hpairs hasks.demands).mpr hasks.locks
    refine ⟨hexactly, fun c hc hkind hmem => ?_⟩
    rw [hexactly, mem_violatedOnTheirOwn_iff h baseline hc] at hmem
    obtain ⟨huser, hviolated⟩ := hmem
    exact hasks.demands c hc huser
      ((delta_violated_iff (admitted_of_user h hc huser) hkind).mp hviolated)

end OneTarget

theorem computeRiskSummary_ok {reload : TargetSVP → Except CompileError TargetSVP}
    {target : TargetSVP} {baseline : CodeState} {compiled : CompiledTarget} {summary : RiskSummary}
    (hcompiled : compileReloaded reload target = .ok compiled)
    (h : computeRiskSummary reload target baseline = .ok summary) :
    summary.wouldViolate =
      wouldViolate (evaluateConstraints compiled (selfInput baseline)).results := by
  rw [computeRiskSummary, hcompiled, ok_bind] at h
  obtain ⟨additions, -, hsummary⟩ := bind_eq_ok_iff.mp h
  cases hsummary
  rfl

/-- `would_violate` lists the requirements that the baseline breaks, and no constraint of kind
`delta`, exactly when the target asks for nothing that only a change can bring. -/
theorem wouldViolate_exact_iff {reload : TargetSVP → Except CompileError TargetSVP}
    {target : TargetSVP} {baseline : CodeState} {compiled : CompiledTarget} {summary : RiskSummary}
    (hcompiled : compileReloaded reload target = .ok compiled)
    (hsummary : computeRiskSummary reload target baseline = .ok summary) :
    ReportsBaseline compiled baseline summary.wouldViolate ↔ AsksNothingNew compiled baseline := by
  obtain ⟨reloaded, -, hcompile⟩ := bind_eq_ok_iff.mp hcompiled
  rw [computeRiskSummary_ok hcompiled hsummary]
  exact reportsBaseline_iff hcompile baseline

/-- A plan for a new function, with its requirement on the state or on the delta. -/
def profilePlan (kind : ConstraintKind) (target : TargetPath) : TargetSVP where
  intent := "add the profile"
  change := { primaryKind := .generic }
  constraints := [{
    id := "new_api"
    kind := kind
    target := target
    operator := .includesAll
    expected := .list [.str "pkg.profile"] }]

/-- The same requirement on the state, behind a lock on the coverage records. -/
def lockedProfilePlan : TargetSVP :=
  { profilePlan .state ["api_surface"] with
    constraints := {
      id := "keep_coverage"
      kind := .delta
      target := ["coverage"]
      operator := .supersetOfBaseline } :: (profilePlan .state ["api_surface"]).constraints }

/-- On the empty baseline the requirement on the delta is reported, and the one behind the lock
is not. -/
theorem profilePlan_reports :
    (compileReloaded .ok (profilePlan .delta ["api_surface_delta", "added"])).toOption.map
        (fun compiled => compiled.constraints.map fun c => (c.id, c.source, c.kind)) =
          some [("new_api", .user, .delta)] ∧
      (computeRiskSummary .ok (profilePlan .delta ["api_surface_delta", "added"])
        {}).toOption.map (·.wouldViolate) = some ["new_api"] ∧
      (computeRiskSummary .ok lockedProfilePlan {}).toOption.map (·.wouldViolate) = some [] ∧
      (compileReloaded .ok lockedProfilePlan).toOption.map
        (fun compiled => violatedOnTheirOwn compiled {}) = some ["new_api"] := by
  refine ⟨?_, ?_, ?_, ?_⟩ <;> decide +kernel

/-- The plan on the state is reported as it should be. -/
theorem profilePlan_exact_iff :
    ∃ compiled summary, compileReloaded .ok (profilePlan .state ["api_surface"]) = .ok compiled ∧
      computeRiskSummary .ok (profilePlan .state ["api_surface"]) {} = .ok summary ∧
      (ReportsBaseline compiled {} summary.wouldViolate ↔ AsksNothingNew compiled {}) := by
  obtain ⟨compiled, hcompiled⟩ : ∃ compiled,
      compileReloaded .ok (profilePlan .state ["api_surface"]) = .ok compiled := ⟨_, rfl⟩
  obtain ⟨summary, hsummary⟩ : ∃ summary,
      computeRiskSummary .ok (profilePlan .state ["api_surface"]) {} = .ok summary := ⟨_, rfl⟩
  exact ⟨compiled, summary, hcompiled, hsummary, wouldViolate_exact_iff hcompiled hsummary⟩

end SemanticCi.RepairCompiler
