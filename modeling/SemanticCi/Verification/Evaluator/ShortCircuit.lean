import SemanticCi.Verification.Evaluator.Verdict

/-! The short circuit at a broken user lock never changes the verdict, and the verdict does
not depend on the order of the constraints. -/

namespace SemanticCi.Evaluator

open SemanticCi.Framework SemanticCi.Compiler SemanticCi.Operators

/-- Every constraint on its own, as if the loop had no short circuit. -/
def independentResult (compiled : CompiledTarget) (input : EvaluationInput)
    (c : CompiledConstraint) : ConstraintResult :=
  evaluateConstraint compiled.effectAllowNew compiled.apiSurfaceAllowChanges input c

theorem resultOf_independentResult (compiled : CompiledTarget) (input : EvaluationInput)
    (c : CompiledConstraint) : ResultOf c (independentResult compiled input c) :=
  resultOf_evaluateConstraint ..

theorem evaluateConstraints_results (compiled : CompiledTarget) (input : EvaluationInput) :
    (evaluateConstraints compiled input).results =
      EarlyExit.run (independentResult compiled input) shortCircuitSkippedResult
        shouldShortCircuit false compiled.constraints := rfl

theorem evaluateConstraints_result (compiled : CompiledTarget) (input : EvaluationInput) :
    (evaluateConstraints compiled input).result =
      aggregate (evaluateConstraints compiled input).results := rfl

/-- Only a hard violation or an authoring error stops the loop. -/
theorem contribution_of_shouldShortCircuit {c : CompiledConstraint} {r : ConstraintResult}
    (h : shouldShortCircuit c r = true) : contribution r = .fail := by
  rw [contribution_eq_fail_iff]
  unfold shouldShortCircuit at h
  split at h
  · cases h
  · rename_i hlock
    have hhard : r.severity = .hard := by
      by_contra hne
      simp [isUserLockResult, hne] at hlock
    split at h
    · exact .inl ⟨‹_›, hhard⟩
    · obtain ⟨hunknown, hcause⟩ := of_decide_eq_true h
      exact .inr ⟨hunknown, .inl hcause⟩

/-- The loop and the independent evaluation agree on the verdict. -/
theorem evaluateConstraints_result_eq_worst (compiled : CompiledTarget)
    (input : EvaluationInput) :
    (evaluateConstraints compiled input).result =
      worst (compiled.constraints.map (independentResult compiled input)) := by
  rw [evaluateConstraints_result, evaluateConstraints_results, aggregate_eq_worst]
  have hdecisive : ∀ results, (∃ r ∈ results, contribution r = .fail) → worst results = .fail := by
    intro results hfail
    rw [← aggregate_eq_worst, aggregate_eq_fail_iff]
    exact hfail
  exact EarlyExit.summary_run_eq hdecisive (fun _ => contribution_of_shouldShortCircuit)
    compiled.constraints

/-- No lock in front of the constraint has stopped the loop. -/
def Reached (compiled : CompiledTarget) (input : EvaluationInput)
    (front : List CompiledConstraint) : Prop :=
  ∀ d ∈ front, shouldShortCircuit d (independentResult compiled input d) = false

theorem result_of_reached {compiled : CompiledTarget} {input : EvaluationInput}
    {front back : List CompiledConstraint} {c : CompiledConstraint}
    (hsplit : compiled.constraints = front ++ c :: back) (h : Reached compiled input front) :
    (evaluateConstraints compiled input).results[front.length]? =
      some (independentResult compiled input c) := by
  have hany : (front.any fun d => shouldShortCircuit d (independentResult compiled input d)) =
      false := by
    simpa [Reached] using h
  rw [evaluateConstraints_results, hsplit, EarlyExit.getElem?_run, hany]
  rfl

theorem result_of_not_reached {compiled : CompiledTarget} {input : EvaluationInput}
    {front back : List CompiledConstraint} {c : CompiledConstraint}
    (hsplit : compiled.constraints = front ++ c :: back) (h : ¬ Reached compiled input front) :
    (evaluateConstraints compiled input).results[front.length]? =
      some (shortCircuitSkippedResult c) := by
  have hany : (front.any fun d => shouldShortCircuit d (independentResult compiled input d)) =
      true := by
    simpa [Reached] using h
  rw [evaluateConstraints_results, hsplit, EarlyExit.getElem?_run, hany]
  rfl

theorem results_in_declaration_order (compiled : CompiledTarget) (input : EvaluationInput) :
    List.Forall₂ ResultOf compiled.constraints (evaluateConstraints compiled input).results := by
  rw [evaluateConstraints_results]
  have h (stopped : Bool) (cs : List CompiledConstraint) :
      List.Forall₂ ResultOf cs (EarlyExit.run (independentResult compiled input)
        shortCircuitSkippedResult shouldShortCircuit stopped cs) := by
    induction cs generalizing stopped with
    | nil => simp
    | cons c rest ih =>
        cases stopped with
        | true => exact .cons (resultOf_shortCircuitSkippedResult c) (ih true)
        | false => exact .cons (resultOf_independentResult compiled input c) (ih _)
  exact h false compiled.constraints

/-- Verdict and results of the loop, against every constraint evaluated on its own. -/
theorem short_circuit_preserves_verdict (compiled : CompiledTarget) (input : EvaluationInput) :
    (evaluateConstraints compiled input).result =
        aggregate (compiled.constraints.map (independentResult compiled input)) ∧
      (∀ permuted : List CompiledConstraint, permuted.Perm compiled.constraints →
        (evaluateConstraints { compiled with constraints := permuted } input).result =
          (evaluateConstraints compiled input).result) ∧
      ((evaluateConstraints compiled input).result = .fail ↔
        ∃ c ∈ compiled.constraints,
          ((independentResult compiled input c).status = .violated ∧ c.severity = .hard) ∨
            ((independentResult compiled input c).status = .unknown ∧
              ((independentResult compiled input c).unknownCause = some .authoring ∨
                c.unknownPolicy = .fail))) ∧
      ((evaluateConstraints compiled input).result = .repair ↔
        (evaluateConstraints compiled input).result ≠ .fail ∧
          ∃ c ∈ compiled.constraints,
            ((independentResult compiled input c).status = .violated ∧ c.severity = .soft) ∨
              ((independentResult compiled input c).status = .unknown ∧
                c.unknownPolicy = .repair)) ∧
      List.Forall₂ ResultOf compiled.constraints (evaluateConstraints compiled input).results ∧
      (∀ front c back, compiled.constraints = front ++ c :: back →
        (∀ d ∈ front, shouldShortCircuit d (independentResult compiled input d) = false) →
        (evaluateConstraints compiled input).results.take (front.length + 1) =
          (front ++ [c]).map (independentResult compiled input)) := by
  have hworst := evaluateConstraints_result_eq_worst compiled input
  have hfail : (evaluateConstraints compiled input).result = .fail ↔
      ∃ c ∈ compiled.constraints, contribution (independentResult compiled input c) = .fail := by
    rw [hworst, ← aggregate_eq_worst, aggregate_eq_fail_iff]
    simp
  refine ⟨hworst.trans (aggregate_eq_worst _).symm, ?_, ?_, ?_,
    results_in_declaration_order compiled input, ?_⟩
  · intro permuted hperm
    rw [hworst, evaluateConstraints_result_eq_worst]
    exact worst_perm (hperm.map _)
  · rw [hfail]
    refine exists_congr fun c => and_congr_right fun _ => ?_
    have hshape := resultOf_independentResult compiled input c
    rw [contribution_eq_fail_iff, hshape.severity, hshape.unknownPolicy]
  · rw [hworst, ← aggregate_eq_worst, aggregate_eq_repair_iff, ne_eq, aggregate_eq_fail_iff]
    refine and_congr_right fun hnofail => ?_
    simp only [List.mem_map, exists_exists_and_eq_and]
    refine exists_congr fun c => and_congr_right fun hc => ?_
    have hshape := resultOf_independentResult compiled input c
    rw [contribution_eq_repair_iff, hshape.severity, hshape.unknownPolicy]
    refine or_congr_right (and_congr_right fun hunknown => ?_)
    refine ⟨fun h => h.2, fun h => ⟨fun hcause => hnofail ?_, h⟩⟩
    refine ⟨_, List.mem_map_of_mem hc, ?_⟩
    exact (contribution_eq_fail_iff _).mpr (.inr ⟨hunknown, .inl hcause⟩)
  · intro front c back hsplit hfront
    rw [evaluateConstraints_results, hsplit, EarlyExit.run_append_of_not_stops _ hfront,
      EarlyExit.run_cons]
    simp [List.take_append]

end SemanticCi.Evaluator
