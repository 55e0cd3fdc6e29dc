import SemanticCi.Library.ExceptRules
import SemanticCi.Model.RepairPlan
import SemanticCi.Verification.Evaluator.Verdict

/-! The repair plan of a verdict: it is always emitted, it follows the results in their order,
and its categories say which verdict it was. -/

namespace SemanticCi.Repair

open SemanticCi.Framework SemanticCi.Operators SemanticCi.Compiler SemanticCi.Evaluator
  ExceptRules

/-! ## Categories -/

/-- The category that a result gets. -/
def category (r : ConstraintResult) : Option RepairCategory :=
  match r.status with
  | .satisfied => none
  | .violated =>
      match r.severity with
      | .hard => some .fixRequired
      | .soft => some .suggested
      | .info => some .info
  | .unknown =>
      if r.unknownCause = some .authoring then some .fixRequired
      else
        match r.unknownPolicy with
        | .fail => some .fixRequired
        | .repair => some .suggested
        | .warn => some .unresolved
        | .ignore => none
  | .skipped => if r.errorCode = some .hardLockShortCircuit then none else some .unresolved

/-- No result reaches the `raise` behind the last branch. -/
theorem categoryOrNone_eq (r : ConstraintResult) : categoryOrNone r = .ok (category r) := by
  unfold categoryOrNone category
  cases r.status with
  | satisfied => simp
  | violated => cases r.severity <;> simp
  | unknown =>
      by_cases hcause : r.unknownCause = some .authoring
      · simp [hcause]
      · cases r.unknownPolicy <;> simp [hcause]
  | skipped => by_cases hcode : r.errorCode = some .hardLockShortCircuit <;> simp [hcode]

/-- The results that ask for an instruction. -/
def Actionable (r : ConstraintResult) : Prop :=
  r.status = .violated ∨
    (r.status = .unknown ∧ ¬ (r.unknownCause ≠ some .authoring ∧ r.unknownPolicy = .ignore)) ∨
    (r.status = .skipped ∧ r.errorCode ≠ some .hardLockShortCircuit)

instance : DecidablePred Actionable := fun _ => inferInstanceAs (Decidable (_ ∨ _))

theorem category_isSome_iff (r : ConstraintResult) : (category r).isSome ↔ Actionable r := by
  unfold category Actionable
  cases r.status with
  | satisfied => simp
  | violated => cases r.severity <;> simp
  | unknown =>
      by_cases hcause : r.unknownCause = some .authoring
      · simp [hcause]
      · cases r.unknownPolicy <;> simp [hcause]
  | skipped => by_cases hcode : r.errorCode = some .hardLockShortCircuit <;> simp [hcode]

/-- What a category asks of the verdict. -/
def demand : Option RepairCategory → VerdictResult
  | some .fixRequired => .fail
  | some .suggested => .repair
  | _ => .pass

/-- The two case analyses agree. -/
theorem demand_category (r : ConstraintResult) : demand (category r) = contribution r := by
  unfold category contribution
  cases r.status with
  | satisfied => rfl
  | violated => cases r.severity <;> rfl
  | unknown =>
      by_cases hcause : r.unknownCause = some .authoring
      · simp [hcause, demand]
      · cases r.unknownPolicy <;> simp [hcause, demand]
  | skipped => by_cases hcode : r.errorCode = some .hardLockShortCircuit <;> simp [hcode, demand]

theorem category_fixRequired_iff (r : ConstraintResult) :
    category r = some .fixRequired ↔ contribution r = .fail := by
  rw [← demand_category]
  rcases category r with _ | (_ | _ | _ | _) <;> simp [demand]

theorem category_suggested_iff (r : ConstraintResult) :
    category r = some .suggested ↔ contribution r = .repair := by
  rw [← demand_category]
  rcases category r with _ | (_ | _ | _ | _) <;> simp [demand]

/-! ## Instructions -/

/-- Every template code has an expected state to name in its message. -/
theorem message_ok (r : ConstraintResult) (code : RepairCode) : ∃ text, message r code = .ok text := by
  unfold message
  split_ifs with htemplate
  · cases code <;> first | exact ⟨_, rfl⟩ | exact absurd htemplate (by decide)
  all_goals exact ⟨_, rfl⟩

/-- An instruction that repeats the fields of a result under its category. -/
structure InstructionFor (r : ConstraintResult) (i : RepairInstruction) : Prop where
  constraintId : i.constraintId = r.constraintId
  source : i.source = r.source
  kind : i.kind = r.kind
  target : i.target = r.target
  operator : i.operator = r.operator
  severity : i.severity = r.severity
  unknownPolicy : i.unknownPolicy = r.unknownPolicy
  status : i.status = r.status
  errorCode : i.errorCode = r.errorCode
  unknownCause : i.unknownCause = r.unknownCause
  repairCode : i.repairCode = resolveRepairCode r
  category : category r = some i.category

theorem instructionOrNone_spec (r : ConstraintResult) :
    (Actionable r ∧ ∃ i, instructionOrNone r = .ok (some i) ∧ InstructionFor r i) ∨
      (¬ Actionable r ∧ instructionOrNone r = .ok none) := by
  rw [← category_isSome_iff, instructionOrNone, categoryOrNone_eq, ok_bind]
  cases hcategory : category r with
  | none => exact Or.inr ⟨by simp, rfl⟩
  | some c =>
      obtain ⟨text, htext⟩ := message_ok r (resolveRepairCode r)
      refine Or.inl ⟨rfl, _, by simp only [instruction, htext, ok_bind]; rfl, ?_⟩
      constructor <;> first | rfl | exact hcategory

theorem mapM_instructions (results : List ConstraintResult) :
    ∃ instructions, results.mapM instructionOrNone = .ok instructions ∧
      List.Forall₂ InstructionFor (results.filter fun r => Actionable r)
        (instructions.filterMap id) := by
  induction results with
  | nil => exact ⟨[], rfl, .nil⟩
  | cons r rest ih =>
      obtain ⟨instructions, hok, hrest⟩ := ih
      rcases instructionOrNone_spec r with ⟨hactionable, i, hi, hfor⟩ | ⟨hnot, hnone⟩
      · refine ⟨some i :: instructions, by simp [List.mapM_cons, hi, hok], ?_⟩
        simpa [List.filter_cons, hactionable] using And.intro hfor hrest
      · refine ⟨none :: instructions, by simp [List.mapM_cons, hnone, hok], ?_⟩
        simpa [List.filter_cons, hnot] using hrest

/-! ## The plan and the verdict -/

/-- What the plan of a verdict says. -/
structure PlanSpec (verdict : Verdict) (plan : RepairPlan) : Prop where
  result : plan.result = verdict.result
  instructions : List.Forall₂ InstructionFor (verdict.results.filter fun r => Actionable r)
    plan.instructions
  fail_iff : verdict.result = .fail ↔ ∃ i ∈ plan.instructions, i.category = .fixRequired
  repair_iff : verdict.result = .repair ↔
    (¬ ∃ i ∈ plan.instructions, i.category = .fixRequired) ∧
      ∃ i ∈ plan.instructions, i.category = .suggested
  pass_iff : verdict.result = .pass ↔
    ¬ ∃ i ∈ plan.instructions, i.category = .fixRequired ∨ i.category = .suggested

/-- A category occurs in the plan when a result has it. -/
theorem exists_category_iff {results : List ConstraintResult}
    {instructions : List RepairInstruction}
    (h : List.Forall₂ InstructionFor (results.filter fun r => Actionable r) instructions)
    (c : RepairCategory) :
    (∃ i ∈ instructions, i.category = c) ↔ ∃ r ∈ results, category r = some c := by
  constructor
  · rintro ⟨i, hi, rfl⟩
    obtain ⟨r, hr, hfor⟩ := exists_of_mem_forall₂ h hi
    exact ⟨r, (List.mem_filter.mp hr).1, hfor.category⟩
  · rintro ⟨r, hr, hc⟩
    have hactionable : Actionable r := (category_isSome_iff r).mp (by simp [hc])
    have hmem : r ∈ results.filter fun r => Actionable r :=
      List.mem_filter.mpr ⟨hr, decide_eq_true hactionable⟩
    obtain ⟨i, hi, hfor⟩ := exists_of_mem_forall₂ h.flip hmem
    exact ⟨i, hi, Option.some.inj (hfor.category.symm.trans hc)⟩

theorem emitRepairPlan_spec {verdict : Verdict}
    (hresult : verdict.result = aggregate verdict.results) :
    ∃ plan, emitRepairPlan verdict = .ok plan ∧ PlanSpec verdict plan := by
  obtain ⟨instructions, hok, hfor⟩ := mapM_instructions verdict.results
  refine ⟨{ result := verdict.result, instructions := instructions.filterMap id }, ?_, ?_⟩
  · rw [emitRepairPlan, hok]
    rfl
  have hfail : (∃ i ∈ instructions.filterMap id, i.category = .fixRequired) ↔
      ∃ r ∈ verdict.results, contribution r = .fail := by
    simp only [exists_category_iff hfor, category_fixRequired_iff]
  have hrepair : (∃ i ∈ instructions.filterMap id, i.category = .suggested) ↔
      ∃ r ∈ verdict.results, contribution r = .repair := by
    simp only [exists_category_iff hfor, category_suggested_iff]
  refine ⟨rfl, hfor, ?_, ?_, ?_⟩
  · rw [hfail, hresult, aggregate_eq_fail_iff]
  · rw [hfail, hrepair, hresult, aggregate_eq_repair_iff]
  · simp only [and_or_left, exists_or, hfail, hrepair, hresult, aggregate_eq_pass_iff]
    constructor
    · rintro hall (⟨r, hr, hc⟩ | ⟨r, hr, hc⟩) <;> simp [hall r hr] at hc
    · intro hnone r hr
      cases hc : contribution r with
      | pass => rfl
      | repair => exact absurd (Or.inr ⟨r, hr, hc⟩) hnone
      | fail => exact absurd (Or.inl ⟨r, hr, hc⟩) hnone

/-- Every evaluation has a plan, and the two agree on the verdict. -/
theorem evaluation_has_plan (compiled : CompiledTarget) (input : EvaluationInput) :
    ∃ plan, emitRepairPlan (evaluateConstraints compiled input) = .ok plan ∧
      PlanSpec (evaluateConstraints compiled input) plan :=
  emitRepairPlan_spec rfl

end SemanticCi.Repair
