import SemanticCi.Verification.Evaluator.Constraint

/-! Which causes an `UNKNOWN` result of an accepted user constraint can have: `AUTHORING` only
when a value that the constraint reads is `None` at its leaf. -/

namespace SemanticCi.Evaluator

open SemanticCi.Python SemanticCi.StateSchema SemanticCi.Framework SemanticCi.Compiler
  SemanticCi.Matching SemanticCi.Operators SemanticCi.PathResolver ExceptRules

/-! ## Pure operators on one value -/

/-- A literal that canonicalizes. -/
def Canonicalizes (literal : PyValue) : Prop := ∃ e, canon literal = .ok e

theorem pureOperators_cases {operator : Operator} (h : operator ∈ pureOperators) :
    operator = .equals ∨ operator = .notEquals ∨ operator ∈ collectionOperators ∨
      operator ∈ numericOperators ∨ operator = .withinRange := by
  revert h
  cases operator <;> decide

theorem numericRelation_of_mem {operator : Operator} (h : operator ∈ numericOperators) :
    ∃ relation, numericRelation operator = some relation := by
  revert h
  cases operator <;> simp [numericOperators, numericRelation]

theorem canon_withinRange {c : CompiledConstraint} (hc : Admitted c) (hkind : c.kind ≠ .repair)
    (hop : c.operator = .withinRange) :
    ∃ e low high, canon c.expected = .ok e ∧ rangeBounds? e = some (low, high) ∧
      rangeBounds? c.expected = some (low, high) := by
  obtain ⟨kind, low, high, a, b, heq, ha, hb⟩ := hc.expected_range hkind hop
  have hlist : canonList [low, high] = .ok [low, high] := by
    simp [canonList, canon_of_asNumber ha, canon_of_asNumber hb]
  rw [heq]
  cases kind <;>
    exact ⟨_, a, b, by simp only [canon, hlist, ok_bind]; rfl, by simp [rangeBounds?, ha, hb],
      by simp [rangeBounds?, ha, hb]⟩

/-- What a pure operator can do: decide, raise, or find a value outside its category. -/
inductive PureOutcome (c : CompiledConstraint) (v : JsonValue)
    (x : Except PyError OperatorOutcome) : Prop where
  | decides (p : Prop) (h : Decides x p)
  | raises (e : PyError) (h : x = .error e)
  | mismatch (h : Judged x .unknown (some .authoring))
      (hcategory : isOpenPath c.target = true ∨ ¬ FitsCategory (categoryForTarget c.target) v)

section

variable {c : CompiledConstraint} (hc : Admitted c) (hkind : c.kind ≠ .repair) {v : JsonValue}
  {w : PyValue} (hw : canon v.toPy = .ok w) (hnorm : w.norm = jsonNorm v)

include hc hkind

theorem open_or_closed_category : isOpenPath c.target = true ∨
    (isOpenPath c.target = false ∧ categoryForTarget c.target ≠ .unknownOpen) := by
  cases hopen : isOpenPath c.target with
  | true => exact .inl rfl
  | false => exact .inr ⟨rfl, closed_category _ (hc.schemaValid hkind hopen) hopen⟩

include hw

theorem numericCompare_outcome (hop : c.operator ∈ numericOperators) :
    PureOutcome c v (evaluatePureOperator c.operator v.toPy c.expected c.tolerance) := by
  obtain ⟨relation, hrelation⟩ := numericRelation_of_mem hop
  obtain ⟨bound, hbound⟩ := hc.expected_number hkind hop
  have hdispatch := pureDispatch_numeric hrelation v.toPy c.expected c.tolerance
  cases hx : v.toPy.asNumber? with
  | none =>
      refine .mismatch (Judged.evaluatePureOperator ?_) ?_
      · rw [hdispatch]
        exact judged_numericCompare_mismatch hw (canon_of_asNumber hbound) hx _ _
      · refine (open_or_closed_category hc hkind).imp id fun hclosed hfits => ?_
        have hknown := hclosed.2
        obtain ⟨n, hn⟩ := hfits.2 (hc.number_category hkind (.inl hop) hknown)
        rw [hx] at hn
        cases hn
  | some x =>
      rcases ok_or_error (relationHolds relation x bound (toleranceOrZero c.tolerance)) with
        ⟨b, hb⟩ | ⟨err, herr⟩
      · refine .decides (b = true) (Decides.evaluatePureOperator ?_)
        rw [hdispatch]
        exact decides_numericCompare hx hbound hb
      · refine .raises .overflowError ?_
        rw [evaluatePureOperator, hdispatch, numericCompare_error hx hbound herr,
          relationHolds_error herr]
        rfl

theorem withinRange_outcome (hop : c.operator = .withinRange) :
    PureOutcome c v (evaluatePureOperator c.operator v.toPy c.expected c.tolerance) := by
  obtain ⟨e, low, high, he, hbounds, -⟩ := canon_withinRange hc hkind hop
  have hdispatch : pureDispatch c.operator v.toPy c.expected c.tolerance =
      withinRange v.toPy c.expected c.tolerance := by
    rw [hop]
    rfl
  cases hx : v.toPy.asNumber? with
  | none =>
      refine .mismatch (Judged.evaluatePureOperator ?_) ?_
      · rw [hdispatch]
        exact judged_withinRange_mismatch hw he hx _
      · refine (open_or_closed_category hc hkind).imp id fun hclosed hfits => ?_
        have hknown := hclosed.2
        obtain ⟨n, hn⟩ := hfits.2 (hc.number_category hkind (.inr hop) hknown)
        rw [hx] at hn
        cases hn
  | some x =>
      rcases ok_or_error (rangeHolds x low high (toleranceOrZero c.tolerance)) with
        ⟨b, hb⟩ | ⟨err, herr⟩
      · refine .decides (b = true) (Decides.evaluatePureOperator ?_)
        rw [hdispatch]
        exact decides_withinRange hx he hbounds hb
      · refine .raises .overflowError ?_
        rw [evaluatePureOperator, hdispatch, withinRange_error hx he hbounds herr,
          rangeHolds_error herr]
        rfl

include hnorm

theorem setOperator_outcome (hop : c.operator ∈ collectionOperators) {e : PyValue}
    (he : canon c.expected = .ok e) :
    PureOutcome c v (evaluatePureOperator c.operator v.toPy c.expected c.tolerance) := by
  have hexpected : IsCollection e.norm := by
    obtain ⟨kind, literals, hseq⟩ := hc.expected_seq hkind hop
    rw [hseq] at he
    exact isCollection_canon_seq he
  by_cases hobserved : IsCollection w.norm
  · exact .decides _ (decides_setOperator hop hw he hobserved hexpected _).evaluatePureOperator
  · refine .mismatch (judged_setOperator_mismatch hop hw he (fun h => hobserved h.1)
      _).evaluatePureOperator ?_
    refine (open_or_closed_category hc hkind).imp id fun hclosed hfits => ?_
    have hknown := hclosed.2
    obtain ⟨items, rfl⟩ := hfits.1
      (hc.collection_category hkind (List.mem_append_left _ hop) hknown)
    rw [hnorm] at hobserved
    exact hobserved (by simp [IsCollection])

theorem pure_outcome (hop : c.operator ∈ pureOperators) :
    PureOutcome c v (evaluatePureOperator c.operator v.toPy c.expected c.tolerance) := by
  rcases ok_or_error (canon c.expected) with ⟨e, he⟩ | ⟨err, he⟩
  · rcases pureOperators_cases hop with heq | heq | hset | hnumeric | hrange
    · have hdecides := evaluatePureOperator_equals heq hw he c.tolerance
      exact .decides _ hdecides
    · have hdecides := evaluatePureOperator_notEquals heq hw he c.tolerance
      exact .decides _ hdecides
    · exact setOperator_outcome hc hkind hw hnorm hset he
    · exact numericCompare_outcome hc hkind hw hnumeric
    · exact withinRange_outcome hc hkind hw hrange
  · exact .raises _ (evaluatePureOperator_of_canon_error hop hw he _)

end

/-- On a value of the target's category the operator decides, or its arithmetic overflows; on
an open target it may also find the wrong shape. -/
theorem pure_not_authoring {c : CompiledConstraint} (hc : Admitted c) (hkind : c.kind ≠ .repair)
    (hop : c.operator ∈ pureOperators) {v : JsonValue}
    (hfits : isOpenPath c.target = false → FitsCategory (categoryForTarget c.target) v) :
    (catchInternal c (evaluatePure c (some v))).unknownCause ≠ some .authoring := by
  obtain ⟨w, hw, hnorm⟩ := canon_toPy v
  rw [evaluatePure_some]
  cases pure_outcome hc hkind hw hnorm hop with
  | decides p h =>
      by_cases hp : p
      · rw [(concludes_satisfied h hp).cause]
        simp
      · rw [(concludes_violated h hp).cause]
        simp
  | raises e h =>
      rw [(concludes_of_error h).cause]
      simp
  | mismatch h hcategory =>
      have hopen : isOpenPath c.target = true := by
        by_contra hclosed
        exact (hcategory.resolve_left hclosed) (hfits (by simpa using hclosed))
      rw [(concludes_of_judged h (by simp)).cause, retag,
        isOpenTarget_eq_isOpenPath (hc.matchesPattern hkind), hopen]
      simp

/-! ## A value that is `None` at its leaf -/

theorem canon_null : canon JsonValue.null.toPy = .ok .none := rfl

theorem pure_null_decides {c : CompiledConstraint} {e : PyValue} (he : canon c.expected = .ok e)
    (hop : c.operator = .equals ∨ c.operator = .notEquals) :
    (catchInternal c (evaluatePure c (some .null))).status ≠ .unknown := by
  have hstatus {p : Prop}
      (h : Decides (evaluatePureOperator c.operator JsonValue.null.toPy c.expected c.tolerance) p) :
      (catchInternal c (evaluatePure c (some .null))).status ≠ .unknown := by
    rw [evaluatePure_some]
    by_cases hp : p
    · rw [(concludes_satisfied h hp).status]
      simp
    · rw [(concludes_violated h hp).status]
      simp
  rcases hop with hop | hop
  · have h := evaluatePureOperator_equals hop canon_null he c.tolerance
    exact hstatus h
  · have h := evaluatePureOperator_notEquals hop canon_null he c.tolerance
    exact hstatus h

theorem pure_null_mismatch {c : CompiledConstraint}
    (hop : c.operator ∈ pureOperators) {e : PyValue} (he : canon c.expected = .ok e)
    (hequality : c.operator ≠ .equals ∧ c.operator ≠ .notEquals) :
    Concludes (catchInternal c (evaluatePure c (some .null))) .unknown
      (retag c.target (some .authoring)) := by
  have hscalar : ¬ IsCollection (PyValue.none).norm := fun h => h
  rw [evaluatePure_some]
  refine concludes_of_judged (Judged.evaluatePureOperator ?_) (by simp)
  rcases pureOperators_cases hop with heq | heq | hset | hnumeric | hrange
  · exact absurd heq hequality.1
  · exact absurd heq hequality.2
  · exact judged_setOperator_mismatch hset canon_null he (fun h => hscalar h.1) _
  · obtain ⟨relation, hrelation⟩ := numericRelation_of_mem hnumeric
    rw [pureDispatch_numeric hrelation]
    exact judged_numericCompare_mismatch canon_null he rfl _ _
  · rw [hrange]
    exact judged_withinRange_mismatch canon_null he rfl c.tolerance

/-- A single value that is `None` has the cause of a missing one exactly when the path is open
and the operator compares more than equality with a literal that canonicalizes. -/
theorem pure_null_iff {c : CompiledConstraint} (hc : Admitted c) (hkind : c.kind ≠ .repair)
    (hop : c.operator ∈ pureOperators) :
    Concludes (catchInternal c (evaluatePure c (some .null))) .unknown
        (some (missingCause c.target)) ↔
      isOpenPath c.target = true ∧ c.operator ≠ .equals ∧ c.operator ≠ .notEquals ∧
        Canonicalizes c.expected := by
  have hpattern := hc.matchesPattern hkind
  rcases ok_or_error (canon c.expected) with ⟨e, he⟩ | ⟨err, he⟩
  · by_cases hequality : c.operator ≠ .equals ∧ c.operator ≠ .notEquals
    · have hmismatch := pure_null_mismatch hop he hequality
      cases hopen : isOpenPath c.target with
      | true =>
          refine iff_of_true ⟨hmismatch.status, ?_⟩ ⟨rfl, hequality.1, hequality.2, e, he⟩
          rw [hmismatch.cause, retag, isOpenTarget_eq_isOpenPath hpattern, hopen, missingCause,
            hopen]
          simp
      | false =>
          refine iff_of_false (fun h => ?_) (by simp)
          have hcause := h.cause
          rw [hmismatch.cause, retag, isOpenTarget_eq_isOpenPath hpattern, hopen, missingCause,
            hopen] at hcause
          simp at hcause
    · refine iff_of_false (fun h => ?_) (fun h => hequality ⟨h.2.1, h.2.2.1⟩)
      refine pure_null_decides he ?_ h.status
      by_contra hno
      exact hequality ⟨fun h => hno (.inl h), fun h => hno (.inr h)⟩
  · refine iff_of_false (fun h => ?_) ?_
    · have hraise := evaluatePureOperator_of_canon_error hop canon_null he c.tolerance
      have hcause := h.cause
      rw [evaluatePure_some, (concludes_of_error hraise).cause, missingCause] at hcause
      cases hopen : isOpenPath c.target <;> simp [hopen] at hcause
    · rintro ⟨-, -, -, e, he'⟩
      rw [he] at he'
      cases he'

/-! ## Baseline operators -/

theorem baselineOperators_cases {operator : Operator} (h : operator ∈ baselineOperators) :
    operator ∈ baselineSetOperators ∧ operator ∈ typedCollectionOperators ∨
      operator ∉ baselineSetOperators := by
  revert h
  cases operator <;> decide

theorem baseline_not_authoring {c : CompiledConstraint} (hop : c.operator ∈ baselineOperators)
    {b v : JsonValue} (hshape : c.operator ∈ baselineSetOperators →
      (∃ items, b = .array items) ∧ ∃ items, v = .array items) :
    (catchInternal c (evaluateBaseline c (some b) (some v))).status ≠ .unknown := by
  obtain ⟨b', hb, hbnorm⟩ := canon_toPy b
  obtain ⟨v', hv, hvnorm⟩ := canon_toPy v
  have hdecides := (decides_baselineOperator hop hb hv fun hset => by
    obtain ⟨⟨bs, rfl⟩, vs, rfl⟩ := hshape hset
    rw [hbnorm, hvnorm]
    simp [IsCollection]).evaluateBaselineOperator
  rw [evaluateBaseline_some]
  by_cases hp : BaselineHolds c.operator b'.norm v'.norm
  · rw [(concludes_satisfied hdecides hp).status]
    simp
  · rw [(concludes_violated hdecides hp).status]
    simp

theorem baseline_null_not_missing {c : CompiledConstraint} (hop : c.operator ∈ baselineOperators)
    (hclosed : isOpenTarget c.target = false) {b v : JsonValue} (hnull : b = .null ∨ v = .null) :
    ¬ Concludes (catchInternal c (evaluateBaseline c (some b) (some v))) .unknown
      (some (missingCause c.target)) := by
  intro h
  by_cases hset : c.operator ∈ baselineSetOperators
  · obtain ⟨b', hb, hbnorm⟩ := canon_toPy b
    obtain ⟨v', hv, hvnorm⟩ := canon_toPy v
    have hshape : ¬ (IsCollection b'.norm ∧ IsCollection v'.norm) := by
      rw [hbnorm, hvnorm]
      rintro ⟨hbc, hvc⟩
      rcases hnull with rfl | rfl
      · simp [IsCollection] at hbc
      · simp [IsCollection] at hvc
    have hmismatch := judged_baselineSetOperator_mismatch hset hb hv hshape
    have hcause := h.cause
    rw [evaluateBaseline_some,
      (concludes_of_judged hmismatch.evaluateBaselineOperator (by simp)).cause, retag,
      hclosed, missingCause] at hcause
    cases hopen : isOpenPath c.target <;> simp [hopen] at hcause
  · exact baseline_not_authoring hop (fun hmem => absurd hmem hset) h.status

/-! ## Classification of every user constraint -/

/-- The values that the evaluation of a constraint observes. -/
def observed (c : CompiledConstraint) (input : EvaluationInput) : List (Option JsonValue) :=
  if Evaluated c input then (reading c input).values else []

/-- What an `unknown_policy` makes of an undecided constraint. -/
def routed : UnknownPolicy → VerdictResult
  | .fail => .fail
  | .repair => .repair
  | .warn | .ignore => .pass

/-- The result is no authoring error, and a value that is missing or `None` is classified as
`EXTRACTION`, or `OPEN_RUNTIME` on an open target, so that the policy decides. -/
structure Classified (c : CompiledConstraint) (input : EvaluationInput) (r : ConstraintResult) :
    Prop where
  not_authoring : ¬ (r.status = .unknown ∧ r.unknownCause = some .authoring)
  missing : (∃ v ∈ observed c input, v = none ∨ v = some .null) →
    Concludes r .unknown (some (missingCause c.target))
  policy_decides : (∃ v ∈ observed c input, v = none ∨ v = some .null) →
    contribution r = routed r.unknownPolicy

/-- No observed value is `None` at its leaf, or the target is open and the operator tells a
`None` from a value of the right shape. -/
def NullSafe (c : CompiledConstraint) (input : EvaluationInput) : Prop :=
  (∀ v ∈ observed c input, v ≠ some .null) ∨
    (isOpenPath c.target = true ∧ c.operator ≠ .equals ∧ c.operator ≠ .notEquals ∧
      Canonicalizes c.expected)

theorem missingCause_ne_authoring (target : TargetPath) :
    (some (missingCause target) : Option UnknownCause) ≠ some .authoring := by
  unfold missingCause
  split <;> simp

theorem contribution_of_missing {r : ConstraintResult} {target : TargetPath}
    (h : Concludes r .unknown (some (missingCause target))) :
    contribution r = routed r.unknownPolicy := by
  have hcause : r.unknownCause ≠ some .authoring := by
    rw [h.cause]
    exact missingCause_ne_authoring target
  unfold contribution routed
  rw [h.status]
  cases r.unknownPolicy <;> simp [hcause]

theorem Classified.of_missing {c : CompiledConstraint} {input : EvaluationInput}
    {r : ConstraintResult}
    (hauthoring : ¬ (r.status = .unknown ∧ r.unknownCause = some .authoring))
    (hmissing : (∃ v ∈ observed c input, v = none ∨ v = some .null) →
      Concludes r .unknown (some (missingCause c.target))) : Classified c input r where
  not_authoring := hauthoring
  missing := hmissing
  policy_decides h := contribution_of_missing (hmissing h)

theorem Concludes.classified {c : CompiledConstraint} {input : EvaluationInput}
    {r : ConstraintResult} (h : Concludes r .unknown (some (missingCause c.target))) :
    Classified c input r where
  not_authoring hauthoring := missingCause_ne_authoring c.target (h.cause ▸ hauthoring.2)
  missing _ := h
  policy_decides _ := contribution_of_missing h

section

variable {compiled : CompiledTarget} {input : EvaluationInput} {c : CompiledConstraint}
  (hc : Admitted c) (hkind : c.kind ≠ .repair)

include hc hkind

/-- A constraint that stops at a guard observes nothing and is never an authoring error. -/
theorem classified_of_not_evaluated (h : ¬ Evaluated c input) :
    Classified c input (independentResult compiled input c) := by
  refine Classified.of_missing ?_ (by simp [observed, h])
  have hpattern := hc.matchesPattern hkind
  rw [independentResult, evaluateConstraint, if_neg hkind]
  split
  · rintro ⟨hstatus, -⟩
    cases hstatus
  · rename_i hoperator
    simp only [hpattern, Bool.not_true, Bool.false_eq_true, if_false]
    split
    · rintro ⟨hstatus, -⟩
      cases hstatus
    · rename_i hextracted
      split
      · rintro ⟨-, hcause⟩
        cases hcause
      · rename_i htime
        exact absurd ⟨hkind, hoperator, hextracted, htime⟩ h

theorem classified_one_iff (h : Evaluated c input) {value : Option JsonValue}
    (hreading : reading c input = .one value) :
    Classified c input (independentResult compiled input c) ↔ NullSafe c input := by
  have hobserved : observed c input = [value] := by
    rw [observed, if_pos h, hreading]
    rfl
  have hfits : c.operator ∈ pureOperators := by
    have := hc.operatorFits h
    rwa [hreading] at this
  rw [hc.independentResult_eq h, hreading, evaluateReading]
  cases value with
  | none =>
      have hmissing := concludes_unresolved hc hkind
      refine iff_of_true hmissing.classified (.inl ?_)
      simp [hobserved]
  | some v =>
      by_cases hnull : v = .null
      · subst hnull
        have hiff := pure_null_iff hc hkind hfits
        constructor
        · intro hclassified
          exact .inr (hiff.mp (hclassified.missing ⟨_, by simp [hobserved], .inr rfl⟩))
        · rintro (hno | hopen)
          · exact absurd rfl (hno _ (by simp [hobserved]))
          · exact (hiff.mpr hopen).classified
      · refine iff_of_true (Classified.of_missing (fun hauthoring => ?_) ?_) (.inl ?_)
        · refine pure_not_authoring hc hkind hfits (fun hclosed => ?_) hauthoring.2
          rcases hc.target_cases hkind with hopen | ⟨-, hstate | ⟨hdelta, hpath⟩⟩
          · rw [hclosed] at hopen
            cases hopen
          · obtain ⟨w, hw, hcategory⟩ := resolveState_fits input.candidate hstate hclosed
            rcases reading_one hreading with ⟨-, hvalue⟩ | ⟨-, hfirst, -⟩
            · obtain rfl : v = w := Option.some.inj (hvalue.trans hw)
              exact hcategory.resolve_left hnull
            · exact absurd hfirst (closed_statePaths_first _ hstate hclosed).2
          · rcases reading_one hreading with ⟨hstate, -⟩ | ⟨-, -, hvalue⟩
            · rw [hdelta] at hstate
              cases hstate
            · exact (resolveDelta_fits hpath hclosed hvalue.symm).resolve_left hnull
        · simp [hobserved, hnull]
        · simp [hobserved, hnull]

theorem classified_two_iff (h : Evaluated c input) {b v : Option JsonValue}
    (hreading : reading c input = .two b v) :
    Classified c input (independentResult compiled input c) ↔ NullSafe c input := by
  have hobserved : observed c input = [b, v] := by
    rw [observed, if_pos h, hreading]
    rfl
  have hfits : c.operator ∈ baselineOperators := by
    have := hc.operatorFits h
    rwa [hreading] at this
  obtain ⟨hfirst, rfl, rfl⟩ := reading_two hreading
  have hstate : isOpenPath c.target = false ∧ c.target ∈ validStateTargetPaths := by
    rcases hc.target_cases hkind with hopen | ⟨hclosed, hstate | ⟨-, hpath⟩⟩
    · exact absurd (open_first hopen).2.1 hfirst
    · exact ⟨hclosed, hstate⟩
    · exact absurd (closed_deltaPaths_first _ hpath hclosed) hfirst
  obtain ⟨hclosed, hstate⟩ := hstate
  obtain ⟨x, hx, hxfits⟩ := resolveState_fits input.baseline hstate hclosed
  obtain ⟨y, hy, hyfits⟩ := resolveState_fits input.candidate hstate hclosed
  rw [hc.independentResult_eq h, hreading, evaluateReading, hx, hy]
  rw [hx, hy] at hobserved
  by_cases hnull : x = .null ∨ y = .null
  · have hopenTarget : isOpenTarget c.target = false := by
      rw [isOpenTarget_eq_isOpenPath (hc.matchesPattern hkind), hclosed]
    refine iff_of_false (fun hclassified => ?_) ?_
    · refine baseline_null_not_missing hfits hopenTarget hnull (hclassified.missing ?_)
      rcases hnull with rfl | rfl
      · exact ⟨_, by simp [hobserved], .inr rfl⟩
      · exact ⟨some .null, by simp [hobserved], .inr rfl⟩
    · rintro (hno | ⟨hopen, -⟩)
      · rcases hnull with rfl | rfl
        · exact hno _ (by simp [hobserved]) rfl
        · exact hno (some .null) (by simp [hobserved]) rfl
      · rw [hclosed] at hopen
        cases hopen
  · have hvalues : x ≠ .null ∧ y ≠ .null := ⟨fun h => hnull (.inl h), fun h => hnull (.inr h)⟩
    refine iff_of_true (Classified.of_missing (fun hauthoring => ?_) ?_) (.inl ?_)
    · refine baseline_not_authoring hfits (fun hset => ?_) hauthoring.1
      have htyped := (baselineOperators_cases hfits).resolve_right (not_not.mpr hset)
      have hcategory := hc.collection_category hkind htyped.2
        (closed_category _ (hc.schemaValid hkind hclosed) hclosed)
      exact ⟨(hxfits.resolve_left hvalues.1).1 hcategory,
        (hyfits.resolve_left hvalues.2).1 hcategory⟩
    · simp [hobserved, hvalues.1, hvalues.2]
    · simp [hobserved, hvalues.1, hvalues.2]

theorem classified_iff_nullSafe :
    Classified c input (independentResult compiled input c) ↔ NullSafe c input := by
  by_cases h : Evaluated c input
  · cases hreading : reading c input with
    | one value => exact classified_one_iff hc hkind h hreading
    | two b v => exact classified_two_iff hc hkind h hreading
  · exact iff_of_true (classified_of_not_evaluated hc hkind h) (.inl (by simp [observed, h]))

end

/-! ## The verdict -/

/-- In the verdict of an accepted target every user constraint that the loop reaches is
classified exactly when it is null safe; the others are recorded as skipped. -/
theorem unknown_cause_iff_nullSafe {svp : TargetSVP} {compiled : CompiledTarget}
    (h : compileTargetSvp svp = .ok compiled) (input : EvaluationInput) :
    ∀ front c back, compiled.constraints = front ++ c :: back → c.source = .user →
      c.kind ≠ .repair →
      ∃ r, (evaluateConstraints compiled input).results[front.length]? = some r ∧
        (Reached compiled input front → (Classified c input r ↔ NullSafe c input)) ∧
        (¬ Reached compiled input front → r = shortCircuitSkippedResult c) := by
  intro front c back hsplit huser hkind
  have hc : Admitted c := admitted_of_user h (by rw [hsplit]; simp) huser
  by_cases hreached : Reached compiled input front
  · exact ⟨_, result_of_reached hsplit hreached, fun _ => classified_iff_nullSafe hc hkind,
      fun hno => absurd hreached hno⟩
  · exact ⟨_, result_of_not_reached hsplit hreached, fun hyes => absurd hyes hreached,
      fun _ => rfl⟩

/-- A gate on the coverage records that ignores what it cannot decide. -/
def coverageGate : TargetSVP where
  intent := ""
  change := { primaryKind := .generic }
  constraints := [{
    id := "covered"
    kind := .state
    target := ["coverage"]
    operator := .includesAll
    expected := .list [.str "src/app.py"]
    unknownPolicy := .ignore }]

def compiledCoverageGate : CompiledTarget where
  intent := ""
  primaryKind := .generic
  allowedSecondaryKinds := []
  scope := []
  constraints := [{
    id := "covered"
    kind := .state
    target := ["coverage"]
    operator := .includesAll
    expected := .tuple [.str "src/app.py"]
    severity := .hard
    unknownPolicy := .ignore
    tolerance := none
    evidenceRequired := false
    scope := .none
    source := .user }]

/-- No extractor fills the coverage. -/
def withoutCoverage : EvaluationInput where
  delta := {}
  baseline := {}
  candidate := {}

/-- An accepted constraint on a nullable field is an authoring error on a state without it. -/
theorem coverageGate_is_authoring :
    compileTargetSvp coverageGate = .ok compiledCoverageGate ∧
      (evaluateConstraints compiledCoverageGate withoutCoverage).results.map
        (fun r => (r.source, r.kind, r.status, r.unknownCause)) =
          [(.user, .state, .unknown, some .authoring)] ∧
      (evaluateConstraints compiledCoverageGate withoutCoverage).result = .fail :=
  ⟨rfl, by decide +kernel, by decide +kernel⟩

/-- The characterization at the coverage gate. -/
theorem coverageGate_classified_iff :
    ∃ c r, compiledCoverageGate.constraints = [c] ∧
      (evaluateConstraints compiledCoverageGate withoutCoverage).results[0]? = some r ∧
      (Classified c withoutCoverage r ↔ NullSafe c withoutCoverage) := by
  have haccepted : compileTargetSvp coverageGate = .ok compiledCoverageGate := rfl
  obtain ⟨r, hr, hiff, -⟩ :=
    unknown_cause_iff_nullSafe haccepted withoutCoverage [] _ [] rfl rfl (by decide)
  exact ⟨_, r, rfl, hr, hiff (by simp [Reached])⟩

end SemanticCi.Evaluator
