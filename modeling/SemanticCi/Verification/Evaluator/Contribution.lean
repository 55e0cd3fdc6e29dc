import SemanticCi.Verification.Evaluator.UnknownCause

/-! When a single constraint leaves the verdict at PASS: the outcome of its operator against
its severity and its unknown policy. -/

namespace SemanticCi.Evaluator

open SemanticCi.Python SemanticCi.StateSchema SemanticCi.Framework SemanticCi.Compiler
  SemanticCi.Operators SemanticCi.PathResolver ExceptRules

/-- The policies that keep an undecided constraint out of the verdict. -/
def Lenient (policy : UnknownPolicy) : Prop := policy = .warn ∨ policy = .ignore

instance : DecidablePred Lenient := fun policy => by unfold Lenient; infer_instance

theorem contribution_eq_pass_iff (r : ConstraintResult) :
    contribution r = .pass ↔ (r.status = .violated → r.severity = .info) ∧
      (r.status = .unknown → r.unknownCause ≠ some .authoring ∧ Lenient r.unknownPolicy) := by
  unfold contribution Lenient
  cases r.status with
  | violated => cases r.severity <;> simp
  | unknown =>
      by_cases hcause : r.unknownCause = some .authoring
      · simp [hcause]
      · cases r.unknownPolicy <;> simp [hcause]
  | satisfied => simp
  | skipped => simp

/-- The verdict passes when every constraint on its own does. -/
theorem result_eq_pass_iff (compiled : CompiledTarget) (input : EvaluationInput) :
    (evaluateConstraints compiled input).result = .pass ↔
      ∀ c ∈ compiled.constraints, contribution (independentResult compiled input c) = .pass := by
  rw [evaluateConstraints_result_eq_worst, VerdictResult.eq_pass_iff, worst_le_iff]
  simp only [List.mem_map, forall_exists_index, and_imp, forall_apply_eq_imp_iff₂,
    ← VerdictResult.eq_pass_iff]

theorem passes_of_satisfied {r : ConstraintResult} (h : Concludes r .satisfied none) :
    contribution r = .pass := by
  rw [contribution_eq_pass_iff, h.status]
  simp

theorem not_passes_of_authoring {r : ConstraintResult}
    (h : Concludes r .unknown (some .authoring)) : contribution r ≠ .pass := by
  rw [ne_eq, contribution_eq_pass_iff, h.status, h.cause]
  simp

theorem passes_iff_of_violated {c : CompiledConstraint} {r : ConstraintResult}
    (hr : ResultOf c r) (h : Concludes r .violated none) :
    contribution r = .pass ↔ c.severity = .info := by
  rw [contribution_eq_pass_iff, h.status, hr.severity]
  simp

theorem passes_iff_of_unknown {c : CompiledConstraint} {r : ConstraintResult}
    (hr : ResultOf c r) {cause : UnknownCause} (hcause : cause ≠ .authoring)
    (h : Concludes r .unknown (some cause)) :
    contribution r = .pass ↔ Lenient c.unknownPolicy := by
  rw [contribution_eq_pass_iff, h.status, h.cause, hr.unknownPolicy]
  simp [hcause]

/-! ## A pure operator on one value -/

theorem resultOf_pure (c : CompiledConstraint) (value : Option JsonValue) :
    ResultOf c (catchInternal c (evaluatePure c value)) :=
  resultOf_catchInternal fun _ => resultOf_evaluatePure

theorem passes_iff_of_decides {c : CompiledConstraint} {v : JsonValue} {p : Prop}
    (h : Decides (evaluatePureOperator c.operator v.toPy c.expected c.tolerance) p) :
    contribution (catchInternal c (evaluatePure c (some v))) = .pass ↔
      (c.severity ≠ .info → p) := by
  have hresult := resultOf_pure c (some v)
  rw [evaluatePure_some] at hresult ⊢
  by_cases hp : p
  · exact iff_of_true (passes_of_satisfied (concludes_satisfied h hp)) fun _ => hp
  · rw [passes_iff_of_violated hresult (concludes_violated h hp)]
    simp [hp]

theorem passes_iff_of_error {c : CompiledConstraint} {v : JsonValue} {e : PyError}
    (h : evaluatePureOperator c.operator v.toPy c.expected c.tolerance = .error e) :
    contribution (catchInternal c (evaluatePure c (some v))) = .pass ↔
      Lenient c.unknownPolicy := by
  have hresult := resultOf_pure c (some v)
  rw [evaluatePure_some] at hresult ⊢
  exact passes_iff_of_unknown hresult (by simp) (concludes_of_error h)

theorem passes_iff_of_missing {c : CompiledConstraint} (hc : Admitted c)
    (hkind : c.kind ≠ .repair) :
    contribution (catchInternal c (evaluatePure c none)) = .pass ↔ Lenient c.unknownPolicy := by
  refine passes_iff_of_unknown (resultOf_pure c none) ?_ (concludes_unresolved hc hkind)
  unfold missingCause
  split <;> simp

/-! ## A baseline operator on one value twice -/

/-- The baseline operators that a value passes against itself. -/
def reflexiveOperators : List Operator :=
  [.equalsBaseline, .supersetOfBaseline, .noNewItems, .noRemovedItems, .unchanged]

theorem concludes_baseline_self {c : CompiledConstraint} (hop : c.operator ∈ reflexiveOperators)
    {v : JsonValue} (hshape : c.operator ∈ baselineSetOperators → ∃ items, v = .array items) :
    Concludes (catchInternal c (evaluateBaseline c (some v) (some v))) .satisfied none := by
  obtain ⟨w, hw, hnorm⟩ := canon_toPy v
  have hbaseline : c.operator ∈ baselineOperators := by
    revert hop
    cases c.operator <;> decide
  have hdecides := (decides_baselineOperator hbaseline hw hw fun hset => by
    obtain ⟨items, rfl⟩ := hshape hset
    rw [hnorm]
    simp [IsCollection]).evaluateBaselineOperator
  rw [evaluateBaseline_some]
  refine concludes_satisfied hdecides ?_
  simp only [reflexiveOperators, List.mem_cons, List.not_mem_nil, or_false] at hop
  rcases hop with hop | hop | hop | hop | hop <;> simp [hop, BaselineHolds]

theorem concludes_baseline_null {c : CompiledConstraint} (hop : c.operator ∈ baselineSetOperators)
    (hclosed : isOpenTarget c.target = false) :
    Concludes (catchInternal c (evaluateBaseline c (some .null) (some .null))) .unknown
      (some .authoring) := by
  have hscalar : ¬ (IsCollection PyValue.none.norm ∧ IsCollection PyValue.none.norm) :=
    fun h => h.1
  have hmismatch := judged_baselineSetOperator_mismatch hop canon_null canon_null hscalar
  have hconcludes := concludes_of_judged (c := c) hmismatch.evaluateBaselineOperator (by simp)
  rw [evaluateBaseline_some]
  simpa [retag, hclosed] using hconcludes

end SemanticCi.Evaluator
