import SemanticCi.Model.Evaluator
import Mathlib.Order.Lattice
import Mathlib.Order.BoundedOrder.Basic

/-! The verdict as the worst contribution of a single result, and the shape that every
result of a constraint has. -/

namespace SemanticCi.Evaluator

open SemanticCi.Framework SemanticCi.Compiler SemanticCi.Operators

/-! ## The order PASS < REPAIR < FAIL -/

def VerdictResult.rank : VerdictResult → ℕ
  | .pass => 0
  | .repair => 1
  | .fail => 2

theorem VerdictResult.rank_injective : Function.Injective VerdictResult.rank := by
  intro a b h
  cases a <;> cases b <;> simp_all [VerdictResult.rank]

instance : LinearOrder VerdictResult := LinearOrder.lift' _ VerdictResult.rank_injective

instance : BoundedOrder VerdictResult where
  bot := .pass
  top := .fail
  bot_le a := by cases a <;> decide
  le_top a := by cases a <;> decide

@[simp] theorem VerdictResult.pass_sup (v : VerdictResult) : .pass ⊔ v = v := bot_sup_eq v

@[simp] theorem VerdictResult.fail_sup (v : VerdictResult) : .fail ⊔ v = .fail := top_sup_eq v

@[simp] theorem VerdictResult.sup_fail (v : VerdictResult) : v ⊔ .fail = .fail := sup_top_eq v

theorem VerdictResult.eq_fail_iff (v : VerdictResult) : v = .fail ↔ .fail ≤ v := by
  cases v <;> decide

theorem VerdictResult.eq_pass_iff (v : VerdictResult) : v = .pass ↔ v ≤ .pass := by
  cases v <;> decide

theorem VerdictResult.eq_repair_iff (v : VerdictResult) :
    v = .repair ↔ v ≠ .fail ∧ .repair ≤ v := by
  cases v <;> decide

/-! ## Contributions -/

/-- What a single result asks of the verdict. -/
def contribution (r : ConstraintResult) : VerdictResult :=
  match r.status with
  | .violated =>
      match r.severity with
      | .hard => .fail
      | .soft => .repair
      | .info => .pass
  | .unknown =>
      if r.unknownCause = some .authoring then .fail
      else
        match r.unknownPolicy with
        | .fail => .fail
        | .repair => .repair
        | .warn | .ignore => .pass
  | _ => .pass

/-- The worst contribution. -/
def worst (results : List ConstraintResult) : VerdictResult :=
  results.foldr (fun r v => contribution r ⊔ v) ⊥

@[simp] theorem worst_nil : worst [] = .pass := rfl

@[simp] theorem worst_cons (r : ConstraintResult) (rest : List ConstraintResult) :
    worst (r :: rest) = contribution r ⊔ worst rest := rfl

/-- The loop with its accumulator computes the worst contribution. -/
theorem aggregateFrom_eq (hasRepair : Bool) (results : List ConstraintResult) :
    aggregateFrom hasRepair results =
      (if hasRepair then .repair else .pass) ⊔ worst results := by
  induction results generalizing hasRepair with
  | nil => cases hasRepair <;> rfl
  | cons r rest ih =>
      simp only [aggregateFrom, worst_cons, contribution]
      cases r.status with
      | violated =>
          cases r.severity with
          | hard => simp
          | soft => cases hasRepair <;> simp [ih]
          | info => simp [ih]
      | unknown =>
          by_cases hcause : r.unknownCause = some .authoring
          · simp [hcause]
          · cases r.unknownPolicy with
            | fail => simp [hcause]
            | repair => cases hasRepair <;> simp [hcause, ih]
            | warn => simp [hcause, ih]
            | ignore => simp [hcause, ih]
      | satisfied => simp [ih]
      | skipped => simp [ih]

theorem aggregate_eq_worst (results : List ConstraintResult) :
    aggregate results = worst results := by
  simp [aggregate, aggregateFrom_eq]

theorem worst_le_iff (results : List ConstraintResult) (v : VerdictResult) :
    worst results ≤ v ↔ ∀ r ∈ results, contribution r ≤ v := by
  induction results with
  | nil => simpa using show VerdictResult.pass ≤ v from bot_le
  | cons r rest ih => simp [ih]

theorem le_worst_iff {results : List ConstraintResult} {v : VerdictResult} (hv : v ≠ .pass) :
    v ≤ worst results ↔ ∃ r ∈ results, v ≤ contribution r := by
  induction results with
  | nil => cases v <;> simp_all <;> decide
  | cons r rest ih => simp [ih]

theorem aggregate_eq_fail_iff (results : List ConstraintResult) :
    aggregate results = .fail ↔ ∃ r ∈ results, contribution r = .fail := by
  rw [aggregate_eq_worst, VerdictResult.eq_fail_iff, le_worst_iff (by decide)]
  simp only [VerdictResult.eq_fail_iff]

theorem aggregate_eq_pass_iff (results : List ConstraintResult) :
    aggregate results = .pass ↔ ∀ r ∈ results, contribution r = .pass := by
  rw [aggregate_eq_worst, VerdictResult.eq_pass_iff, worst_le_iff]
  simp only [VerdictResult.eq_pass_iff]

theorem aggregate_eq_repair_iff (results : List ConstraintResult) :
    aggregate results = .repair ↔
      (¬ ∃ r ∈ results, contribution r = .fail) ∧ ∃ r ∈ results, contribution r = .repair := by
  rw [VerdictResult.eq_repair_iff, ne_eq, aggregate_eq_fail_iff, aggregate_eq_worst,
    le_worst_iff (by decide)]
  refine and_congr_right fun hfail => ?_
  constructor
  · rintro ⟨r, hr, hle⟩
    refine ⟨r, hr, (VerdictResult.eq_repair_iff _).mpr ⟨fun h => hfail ⟨r, hr, h⟩, hle⟩⟩
  · rintro ⟨r, hr, h⟩
    exact ⟨r, hr, h.ge⟩

theorem worst_perm {results results' : List ConstraintResult} (h : results.Perm results') :
    worst results = worst results' := by
  refine le_antisymm ((worst_le_iff _ _).mpr fun r hr => ?_) ((worst_le_iff _ _).mpr fun r hr => ?_)
  · exact (worst_le_iff results' _).mp le_rfl r (h.mem_iff.mp hr)
  · exact (worst_le_iff results _).mp le_rfl r (h.mem_iff.mpr hr)

theorem worst_mono {α : Type*} {f g : α → ConstraintResult} {xs : List α}
    (h : ∀ x ∈ xs, contribution (f x) ≤ contribution (g x)) :
    worst (xs.map f) ≤ worst (xs.map g) := by
  rw [worst_le_iff]
  intro r hr
  obtain ⟨x, hx, rfl⟩ := List.mem_map.mp hr
  exact (h x hx).trans ((worst_le_iff _ _).mp le_rfl _ (List.mem_map_of_mem hx))

theorem contribution_eq_fail_iff (r : ConstraintResult) :
    contribution r = .fail ↔
      (r.status = .violated ∧ r.severity = .hard) ∨
        (r.status = .unknown ∧ (r.unknownCause = some .authoring ∨ r.unknownPolicy = .fail)) := by
  unfold contribution
  cases r.status <;> cases r.severity <;> cases r.unknownPolicy <;>
    by_cases hcause : r.unknownCause = some .authoring <;> simp [hcause]

theorem contribution_eq_repair_iff (r : ConstraintResult) :
    contribution r = .repair ↔
      (r.status = .violated ∧ r.severity = .soft) ∨
        (r.status = .unknown ∧ r.unknownCause ≠ some .authoring ∧ r.unknownPolicy = .repair) := by
  unfold contribution
  cases r.status <;> cases r.severity <;> cases r.unknownPolicy <;>
    by_cases hcause : r.unknownCause = some .authoring <;> simp [hcause]

/-! ## The shape of a result -/

/-- A result that carries the fields of its constraint, and a cause only when unknown. -/
structure ResultOf (c : CompiledConstraint) (r : ConstraintResult) : Prop where
  constraintId : r.constraintId = c.id
  source : r.source = c.source
  kind : r.kind = c.kind
  target : r.target = c.target
  operator : r.operator = c.operator
  severity : r.severity = c.severity
  unknownPolicy : r.unknownPolicy = c.unknownPolicy
  tolerance : r.tolerance = c.tolerance
  evidenceRequired : r.evidenceRequired = c.evidenceRequired
  cause : r.status ≠ .unknown → r.unknownCause = none

theorem resultOf_result (c : CompiledConstraint) (status : ResultStatus)
    (errorCode : Option ErrorCode) (extra : Evidence) (cause : Option UnknownCause)
    (evidence : Evidence) : ResultOf c (result c status errorCode extra cause evidence) where
  constraintId := rfl
  source := rfl
  kind := rfl
  target := rfl
  operator := rfl
  severity := rfl
  unknownPolicy := rfl
  tolerance := rfl
  evidenceRequired := rfl
  cause h := if_neg h

theorem resultOf_evaluatePure {c : CompiledConstraint} {resolved : Option Python.JsonValue}
    {r : ConstraintResult} (h : evaluatePure c resolved = .ok r) : ResultOf c r := by
  cases resolved with
  | none =>
      cases h
      exact resultOf_result ..
  | some value =>
      simp only [evaluatePure] at h
      cases hout : evaluatePureOperator c.operator value.toPy c.expected c.tolerance with
      | error e => rw [hout] at h; cases h
      | ok outcome =>
          rw [hout] at h
          cases h
          exact resultOf_result ..

theorem resultOf_evaluateBaseline {c : CompiledConstraint}
    {baseline candidate : Option Python.JsonValue} {r : ConstraintResult}
    (h : evaluateBaseline c baseline candidate = .ok r) : ResultOf c r := by
  unfold evaluateBaseline at h
  split at h
  case h_1 b v =>
      cases hout : evaluateBaselineOperator c.operator b.toPy v.toPy with
      | error e => rw [hout] at h; cases h
      | ok outcome =>
          rw [hout] at h
          cases h
          exact resultOf_result ..
  case h_2 =>
      cases h
      exact resultOf_result ..

theorem resultOf_evaluateStateConstraint {c : CompiledConstraint}
    {candidate : StateSchema.CodeState} {r : ConstraintResult}
    (h : evaluateStateConstraint c candidate = .ok r) : ResultOf c r := by
  unfold evaluateStateConstraint at h
  split at h
  · cases h
    exact resultOf_result ..
  · split at h
    · cases h
      exact resultOf_result ..
    · exact resultOf_evaluatePure h

theorem resultOf_evaluateDeltaConstraint {c : CompiledConstraint}
    {delta : StateSchema.CodeStateDelta} {baseline candidate : StateSchema.CodeState}
    {r : ConstraintResult} (h : evaluateDeltaConstraint c delta baseline candidate = .ok r) :
    ResultOf c r := by
  unfold evaluateDeltaConstraint at h
  split at h
  · split at h
    · cases h
      exact resultOf_result ..
    · exact resultOf_evaluatePure h
  · split at h
    · split at h
      · cases h
        exact resultOf_result ..
      · exact resultOf_evaluateBaseline h
    · cases h
      exact resultOf_result ..

theorem resultOf_catchInternal {c : CompiledConstraint}
    {outcome : Except Python.PyError ConstraintResult}
    (h : ∀ r, outcome = .ok r → ResultOf c r) : ResultOf c (catchInternal c outcome) := by
  cases outcome with
  | ok r => exact h r rfl
  | error e => exact resultOf_result ..

theorem resultOf_evaluateResolved {effectAllowNew : List EffectAllowRule}
    {apiSurfaceAllowChanges : List APISurfaceAllowRule} {input : EvaluationInput}
    {c : CompiledConstraint} {r : ConstraintResult}
    (h : evaluateResolved effectAllowNew apiSurfaceAllowChanges input c = .ok r) :
    ResultOf c r := by
  unfold evaluateResolved at h
  split at h
  · exact resultOf_evaluateStateConstraint h
  · cases hdelta : deltaForConstraint c input.delta effectAllowNew apiSurfaceAllowChanges with
    | error e => rw [hdelta] at h; cases h
    | ok delta =>
        rw [hdelta] at h
        exact resultOf_evaluateDeltaConstraint h

theorem resultOf_evaluateConstraint (effectAllowNew : List EffectAllowRule)
    (apiSurfaceAllowChanges : List APISurfaceAllowRule) (input : EvaluationInput)
    (c : CompiledConstraint) :
    ResultOf c (evaluateConstraint effectAllowNew apiSurfaceAllowChanges input c) := by
  unfold evaluateConstraint
  split
  · exact resultOf_result ..
  · split
    · exact resultOf_result ..
    · split
      · exact resultOf_result ..
      · split
        · exact resultOf_result ..
        · split
          · exact resultOf_result ..
          · exact resultOf_catchInternal fun _ h => resultOf_evaluateResolved h

theorem resultOf_shortCircuitSkippedResult (c : CompiledConstraint) :
    ResultOf c (shortCircuitSkippedResult c) := resultOf_result ..

end SemanticCi.Evaluator
