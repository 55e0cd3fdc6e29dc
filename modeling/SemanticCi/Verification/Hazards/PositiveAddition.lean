import SemanticCi.Verification.Hazards.EmptyDiff

/-! Positive additions: when a constraint that the detectors accept as one really keeps the
verdict from PASS on a delta that adds nothing. -/

namespace SemanticCi.Hazards

open SemanticCi.Python SemanticCi.StateSchema SemanticCi.Framework SemanticCi.Compiler
  SemanticCi.Matching SemanticCi.Operators SemanticCi.PathResolver SemanticCi.Evaluator ExceptRules

/-! ## The shape of a positive addition -/

/-- The literal asks for something that an empty collection does not have: not the empty
mapping, which canonicalizes to the empty tuple, and not the absence of the empty set. -/
def AsksForItems (c : CompiledConstraint) : Prop :=
  (c.operator = .equals → c.expected ≠ .dict []) ∧ (c.operator = .notEquals → c.expected ≠ .set [])

/-- A positive addition that the verdict cannot pass without: its violation counts, or its
literal raises under a policy that counts. -/
structure Effective (c : CompiledConstraint) : Prop where
  addition : isPositiveAddition c = true
  violates : Canonicalizes c.expected → c.severity ≠ .info ∧ AsksForItems c
  raises : ¬ Canonicalizes c.expected → ¬ Lenient c.unknownPolicy

def additionTargets : List TargetPath :=
  [["api_surface_delta", "added"], ["api_surface_delta", "added", "fqns"],
    ["test_surface_delta", "new_cases"]]

theorem additionTargets_cover : ∀ path ∈ validDeltaTargetPaths, targetsAddedDimension path = true →
    path ∈ additionTargets := by
  decide +kernel

theorem additionTargets_first {path : TargetPath} (h : targetsAddedDimension path = true) :
    path.first = "api_surface_delta" ∨ path.first = "test_surface_delta" := by
  obtain ⟨pre, hpre, hprefix⟩ := List.any_eq_true.mp h
  obtain ⟨rest, rfl⟩ := List.isPrefixOf_iff_prefix.mp hprefix
  simp only [semanticAdditionPathPrefixes, List.mem_cons, List.not_mem_nil, or_false] at hpre
  rcases hpre with rfl | rfl
  · exact .inl rfl
  · exact .inr rfl

theorem additionTargets_closed {path : TargetPath} (h : targetsAddedDimension path = true) :
    isOpenPath path = false ∧ path.first ∈ codeStateDeltaFields := by
  rcases additionTargets_first h with hfirst | hfirst
  · rw [isOpenPath, hfirst]
    exact ⟨by simp [openPrefixes], by decide⟩
  · rw [isOpenPath, hfirst]
    exact ⟨by simp [openPrefixes], by decide⟩

/-- The literal against the operator, as the detector accepts it. -/
def AdditionLiteral (c : CompiledConstraint) : Prop :=
  (c.operator ∈ additionForcingOperators ∧ isEmptyCollection c.expected = false) ∨
    (c.operator = .notEquals ∧ isEmptyCollection c.expected = true)

theorem shape_of_isEmptyCollection {value : PyValue} (h : isEmptyCollection value = true) :
    (∃ kind, value = .seq kind []) ∨ value = .set [] := by
  cases value with
  | scalar s => simp [isEmptyCollection] at h
  | seq kind items =>
      cases items with
      | nil => exact .inl ⟨kind, rfl⟩
      | cons x xs => simp [isEmptyCollection] at h
  | dict items => simp [isEmptyCollection] at h
  | set items =>
      cases items with
      | nil => exact .inr rfl
      | cons x xs => simp [isEmptyCollection] at h

theorem positiveAddition_spec {c : CompiledConstraint} (h : isPositiveAddition c = true) :
    participatesInVerdict c = true ∧ targetsAddedDimension c.target = true ∧ AdditionLiteral c := by
  unfold isPositiveAddition at h
  cases hpart : participatesInVerdict c with
  | false => simp [hpart] at h
  | true =>
      cases htarget : targetsAddedDimension c.target with
      | false => simp [hpart, htarget] at h
      | true =>
          refine ⟨rfl, rfl, ?_⟩
          simp only [hpart, htarget, Bool.not_true, Bool.false_eq_true, if_false] at h
          by_cases hop : c.operator ∈ additionForcingOperators
          · rw [if_pos hop] at h
            exact .inl ⟨hop, by simpa using h⟩
          · rw [if_neg hop] at h
            exact .inr (by simpa using h)

/-! ## Its outcome on nothing added -/

section OneAddition

variable {c : CompiledConstraint} (hc : Admitted c) (hkind : c.kind ≠ .repair)

include hc hkind

theorem additionTarget_mem (htarget : targetsAddedDimension c.target = true) :
    c.kind = .delta ∧ c.target ∈ additionTargets := by
  obtain ⟨hclosed, hfirst⟩ := additionTargets_closed htarget
  constructor
  · rcases hc.target_cases hkind with hopen | ⟨-, hstate | ⟨hdelta, -⟩⟩
    · rw [hclosed] at hopen
      cases hopen
    · exact absurd hfirst (closed_statePaths_first _ hstate hclosed).2
    · exact hdelta
  · exact additionTargets_cover _ (hc.schemaValid hkind hclosed) htarget

/-- A set operator that asks for the items of a literal finds none of them in the empty
collection. -/
theorem forcing_decides (hop : c.operator ∈ collectionOperators)
    (hexcludes : c.operator ≠ .excludesAll) (hsubset : c.operator ≠ .subsetOf)
    (hne : ¬ ∃ kind, c.expected = .seq kind []) {e : PyValue} (he : canon c.expected = .ok e) :
    Decides (evaluatePureOperator c.operator (JsonValue.array []).toPy c.expected c.tolerance)
      False := by
  have hv : canon (JsonValue.array []).toPy = .ok (.tuple []) := rfl
  obtain ⟨kind, items, hitems⟩ := hc.expected_seq hkind hop
  have hcanon := he
  rw [hitems] at hcanon
  have hmember : ∃ n, n ∈ Members e.norm := by
    obtain ⟨kind', ys, hys, rfl⟩ := exists_of_canon_seq hcanon
    have hlength := ((canonList_eq_ok_iff _ _).mp hys).length_eq
    cases ys with
    | nil =>
      rw [List.length_eq_zero_iff.mp hlength] at hitems
      exact absurd ⟨kind, hitems⟩ hne
    | cons y ys => exact ⟨y.norm, by simp⟩
  obtain ⟨n, hn⟩ := hmember
  have hdecides := (decides_setOperator hop hv he (by simp [IsCollection])
    (isCollection_canon_seq hcanon) c.tolerance).evaluatePureOperator
  refine hdecides.congr (iff_of_false ?_ id)
  simp only [collectionOperators, List.mem_cons, List.not_mem_nil, or_false] at hop
  rcases hop with hop | hop | hop | hop | hop
  · rw [hop]
    intro hall
    obtain ⟨o, ho, -⟩ := hall n hn
    simp at ho
  · rw [hop]
    rintro ⟨_, _, o, ho, -⟩
    simp at ho
  · exact absurd hop hexcludes
  · exact absurd hop hsubset
  · rw [hop]
    intro hall
    obtain ⟨o, ho, -⟩ := hall n hn
    simp at ho

/-- On the empty collection an addition literal that canonicalizes is satisfied exactly when it
asks for nothing. -/
theorem addition_decides (hliteral : AdditionLiteral c) {e : PyValue}
    (he : canon c.expected = .ok e) :
    Decides (evaluatePureOperator c.operator (JsonValue.array []).toPy c.expected c.tolerance)
      (¬ AsksForItems c) := by
  have hv : canon (JsonValue.array []).toPy = .ok (.tuple []) := rfl
  have hempty : (PyValue.tuple []).norm = e.norm ↔
      (∃ kind, c.expected = .seq kind []) ∨ c.expected = .dict [] := by
    rw [eq_comm, ← canon_norm_empty he]
    rfl
  rcases hliteral with ⟨hop, hnonempty⟩ | ⟨hop, hexpected⟩
  · have hseq : ¬ ∃ kind, c.expected = .seq kind [] := by
      rintro ⟨kind, heq⟩
      rw [heq] at hnonempty
      cases hnonempty
    by_cases hequals : c.operator = .equals
    · have hdecides := evaluatePureOperator_equals hequals hv he c.tolerance
      refine hdecides.congr ?_
      rw [hempty, or_iff_right hseq]
      simp [AsksForItems, hequals]
    · have hset : c.operator ∈ collectionOperators ∧ c.operator ≠ .notEquals ∧
          c.operator ≠ .excludesAll ∧ c.operator ≠ .subsetOf := by
        revert hop hequals
        cases c.operator <;> decide
      obtain ⟨hset, hnot, hexcludes, hsubset⟩ := hset
      apply (forcing_decides hc hkind hset hexcludes hsubset hseq he).congr
      exact iff_of_false id fun h => h ⟨fun h => absurd h hequals, fun h => absurd h hnot⟩
  · have hdecides := evaluatePureOperator_notEquals hop hv he c.tolerance
    refine hdecides.congr ?_
    have hdict : c.expected ≠ .dict [] := by
      intro heq
      rw [heq] at hexpected
      cases hexpected
    have hshape := shape_of_isEmptyCollection hexpected
    rw [ne_eq, hempty, or_iff_left hdict]
    simp only [AsksForItems, hop, reduceCtorEq, false_implies, true_implies, true_and, ne_eq,
      not_not]
    constructor
    · exact fun hno => hshape.resolve_left hno
    · rintro heq ⟨kind, hseq⟩
      rw [heq] at hseq
      cases hseq

end OneAddition

/-- What `evaluate_constraints` is given when every dimension was extracted in time. -/
def plainInput (delta : CodeStateDelta) (baseline candidate : CodeState) : EvaluationInput where
  delta := delta
  baseline := baseline
  candidate := candidate

theorem evaluated_plain {c : CompiledConstraint} (hkind : c.kind ≠ .repair)
    (hop : c.operator ≠ .changedOnlyIn) (delta : CodeStateDelta) (baseline candidate : CodeState) :
    Evaluated c (plainInput delta baseline candidate) := by
  refine ⟨hkind, hop, rfl, ?_⟩
  cases hcase : c.kind <;> simp [timedOutDimension, timedOutDimensions, plainInput, hcase] <;>
    split <;> rfl

/-- A positive addition whose target resolves to nothing leaves the verdict alone exactly when
it is not effective. -/
theorem addition_passes_iff {compiled : CompiledTarget} {c : CompiledConstraint} (hc : Admitted c)
    (haddition : isPositiveAddition c = true) {delta : CodeStateDelta}
    (hvalue : resolveDelta delta c.target = some (.array [])) (baseline candidate : CodeState) :
    contribution (independentResult compiled (plainInput delta baseline candidate) c) = .pass ↔
      ¬ Effective c := by
  obtain ⟨hpart, htarget, hliteral⟩ := positiveAddition_spec haddition
  have hkind : c.kind ≠ .repair := by
    intro h
    simp [participatesInVerdict, h] at hpart
  have hop : c.operator ≠ .changedOnlyIn := by
    intro h
    simp [participatesInVerdict, hkind, h] at hpart
  have hpure : c.operator ∈ pureOperators := by
    rcases hliteral with ⟨hmem, -⟩ | ⟨hmem, -⟩
    · revert hmem
      cases c.operator <;> decide
    · rw [hmem]
      decide
  obtain ⟨hdelta, -⟩ := additionTarget_mem hc hkind htarget
  have hstate : c.kind ≠ .state := by
    rw [hdelta]
    decide
  have hreading : reading c (plainInput delta baseline candidate) = .one (some (.array [])) := by
    rw [reading, if_neg hstate, if_pos (additionTargets_closed htarget).2]
    exact congrArg Reading.one hvalue
  rw [hc.independentResult_eq (evaluated_plain hkind hop delta baseline candidate), hreading,
    evaluateReading]
  rcases ok_or_error (canon c.expected) with ⟨e, he⟩ | ⟨err, he⟩
  · have hcanon : Canonicalizes c.expected := ⟨e, he⟩
    rw [passes_iff_of_decides (addition_decides hc hkind hliteral he)]
    constructor
    · intro hpasses heffective
      obtain ⟨hseverity, hasks⟩ := heffective.violates hcanon
      exact hpasses hseverity hasks
    · intro hnot hseverity hasks
      exact hnot ⟨haddition, fun _ => ⟨hseverity, hasks⟩, fun hno => absurd hcanon hno⟩
  · have hcanon : ¬ Canonicalizes c.expected := by
      rintro ⟨e, he'⟩
      rw [he] at he'
      cases he'
    rw [passes_iff_of_error (v := .array [])
      (evaluatePureOperator_of_canon_error hpure (w := .tuple []) rfl he _)]
    constructor
    · exact fun hlenient heffective => heffective.raises hcanon hlenient
    · intro hnot
      by_contra hlenient
      exact hnot ⟨haddition, fun hyes => absurd hyes hcanon, fun _ => hlenient⟩

/-! ## Whole targets -/

/-- The target without the constraints that `p` selects. -/
def without (compiled : CompiledTarget) (p : CompiledConstraint → Bool) : CompiledTarget :=
  { compiled with constraints := compiled.constraints.filter fun c => !p c }

/-- The verdict is not PASS on any such delta. -/
def NeverPasses (compiled : CompiledTarget) (quiet : CodeStateDelta → Prop) : Prop :=
  ∀ delta baseline candidate, quiet delta →
    (evaluateConstraints compiled (plainInput delta baseline candidate)).result ≠ .pass

/-- When the selected constraints are the only ones in question, they keep the verdict from
PASS exactly when one of them is effective. -/
theorem neverPasses_iff {compiled : CompiledTarget} {p : CompiledConstraint → Bool}
    {quiet : CodeStateDelta → Prop}
    (hpasses : ∀ c ∈ compiled.constraints, p c = true → ∀ delta baseline candidate, quiet delta →
      (contribution (independentResult compiled (plainInput delta baseline candidate) c) = .pass ↔
        ¬ Effective c)) :
    NeverPasses compiled quiet ↔ (∃ c ∈ compiled.constraints, p c = true ∧ Effective c) ∨
      NeverPasses (without compiled p) quiet := by
  constructor
  · intro hnever
    by_contra hno
    rw [not_or] at hno
    obtain ⟨hnone, hrest⟩ := hno
    refine hrest fun delta baseline candidate hdelta hpass =>
      hnever delta baseline candidate hdelta ?_
    rw [result_eq_pass_iff] at hpass ⊢
    intro c hc
    cases hp : p c with
    | true =>
        exact (hpasses c hc hp delta baseline candidate hdelta).mpr fun heffective =>
          hnone ⟨c, hc, hp, heffective⟩
    | false => exact hpass c (List.mem_filter.mpr ⟨hc, by simp [hp]⟩)
  · rintro (⟨c, hc, hp, heffective⟩ | hrest) delta baseline candidate hdelta hpass
    · rw [result_eq_pass_iff] at hpass
      exact (hpasses c hc hp delta baseline candidate hdelta).mp (hpass c hc) heffective
    · refine hrest delta baseline candidate hdelta ?_
      rw [result_eq_pass_iff] at hpass ⊢
      exact fun c hc => hpass c (List.mem_filter.mp hc).1

/-- The delta adds no API and no test case. -/
def AddsNothing (delta : CodeStateDelta) : Prop :=
  delta.apiSurfaceDelta.added = [] ∧ delta.testSurfaceDelta.newCases = []

def AddsNoTestCase (delta : CodeStateDelta) : Prop := delta.testSurfaceDelta.newCases = []

theorem resolve_addition {delta : CodeStateDelta} (h : AddsNothing delta) :
    ∀ path ∈ additionTargets, resolveDelta delta path = some (.array []) := by
  have hadded : resolveDelta delta ["api_surface_delta", "added"] =
      some (.array delta.apiSurfaceDelta.added) := rfl
  have hfqns : resolveDelta delta ["api_surface_delta", "added", "fqns"] =
      some (projectField (.array delta.apiSurfaceDelta.added) "fqn") := rfl
  have hcases : resolveDelta delta ["test_surface_delta", "new_cases"] =
      some (.strings delta.testSurfaceDelta.newCases) := rfl
  rw [h.1] at hadded hfqns
  rw [h.2] at hcases
  simp only [additionTargets, List.forall_mem_cons]
  exact ⟨hadded, hfqns, hcases, by simp⟩

theorem not_addition_of_template {kind : ChangeKind} {c : CompiledConstraint}
    (hc : c ∈ templateConstraints kind) : isPositiveAddition c = false := by
  have hall : ∀ kind, ∀ c ∈ templateConstraints kind, targetsAddedDimension c.target = false := by
    intro kind
    cases kind <;> simp only [templateConstraints, List.forall_mem_cons] <;> decide +kernel
  simp [isPositiveAddition, hall kind c hc]

theorem admitted_of_addition {svp : TargetSVP} {compiled : CompiledTarget}
    (h : compileTargetSvp svp = .ok compiled) {c : CompiledConstraint}
    (hc : c ∈ compiled.constraints) (haddition : isPositiveAddition c = true) : Admitted c := by
  cases hsource : c.source with
  | user => exact admitted_of_user h hc hsource
  | template =>
      rw [not_addition_of_template (mem_templateConstraints_of_template h hc hsource)] at haddition
      cases haddition

/-- A constraint that the bugfix detector accepts is an addition of test cases. -/
theorem testCases_spec {c : CompiledConstraint} (h : targetsNewTestCases c = true) :
    isPositiveAddition c = true ∧ hasSubstring "test_surface_delta" c.target.text = true := by
  unfold targetsNewTestCases at h
  split at h
  · cases h
  · rename_i hsurface
    split at h
    · cases h
    · exact ⟨h, by simpa using hsurface⟩

theorem testCases_target : ∀ path ∈ additionTargets,
    hasSubstring "test_surface_delta" path.text = true → path = ["test_surface_delta", "new_cases"] := by
  decide +kernel

/-- A silent detector guarantees a verdict other than PASS exactly when one of the additions it
has accepted is effective, or the rest of the target never passes anyway. -/
theorem silent_neverPasses_iff {svp : TargetSVP} {compiled : CompiledTarget}
    (h : compileTargetSvp svp = .ok compiled) :
    (compiled.primaryKind = .feature → detectP1 compiled = [] →
      (NeverPasses compiled AddsNothing ↔
        (∃ c ∈ compiled.constraints, isPositiveAddition c = true ∧ Effective c) ∨
          NeverPasses (without compiled isPositiveAddition) AddsNothing)) ∧
      (compiled.primaryKind = .bugfix → detectP2 compiled = [] →
        (NeverPasses compiled AddsNoTestCase ↔
          (∃ c ∈ compiled.constraints, targetsNewTestCases c = true ∧ Effective c) ∨
            NeverPasses (without compiled targetsNewTestCases) AddsNoTestCase)) := by
  have htarget {c : CompiledConstraint} (hc : Admitted c) (haddition : isPositiveAddition c = true) :
      c.target ∈ additionTargets := by
    obtain ⟨hpart, hadded, -⟩ := positiveAddition_spec haddition
    have hkind : c.kind ≠ .repair := by
      intro hrepair
      simp [participatesInVerdict, hrepair] at hpart
    exact (additionTarget_mem hc hkind hadded).2
  constructor
  · intro _ _
    refine neverPasses_iff fun c hmem haddition delta baseline candidate hdelta => ?_
    have hc := admitted_of_addition h hmem haddition
    exact addition_passes_iff hc haddition
      (resolve_addition hdelta _ (htarget hc haddition)) baseline candidate
  · intro _ _
    refine neverPasses_iff fun c hmem hcases delta baseline candidate hdelta => ?_
    obtain ⟨haddition, hsurface⟩ := testCases_spec hcases
    have hc := admitted_of_addition h hmem haddition
    have hnewCases := testCases_target _ (htarget hc haddition) hsurface
    refine addition_passes_iff hc haddition ?_ baseline candidate
    rw [hnewCases]
    have hvalue : resolveDelta delta ["test_surface_delta", "new_cases"] =
        some (.strings delta.testSurfaceDelta.newCases) := rfl
    have hnone : delta.testSurfaceDelta.newCases = [] := hdelta
    rw [hvalue, hnone]
    rfl

/-- A feature whose only demand for new API has the given severity. -/
def newApiConstraint (severity : Severity) : Constraint where
  id := "new_api"
  kind := .delta
  target := ["api_surface_delta", "added"]
  operator := .notEquals
  expected := .list []
  severity := severity

def newApi (severity : Severity) : TargetSVP where
  intent := ""
  change := { primaryKind := .feature }
  constraints := [newApiConstraint severity]

def compiledNewApiConstraint (severity : Severity) : CompiledConstraint where
  id := "new_api"
  kind := .delta
  target := ["api_surface_delta", "added"]
  operator := .notEquals
  expected := .tuple []
  severity := severity
  unknownPolicy := .fail
  tolerance := none
  evidenceRequired := false
  scope := .none
  source := .user

def compiledNewApi (severity : Severity) : CompiledTarget where
  intent := ""
  primaryKind := .feature
  allowedSecondaryKinds := []
  scope := []
  constraints := templateConstraints .feature ++ [compiledNewApiConstraint severity]

/-- The detector accepts an addition of severity `info`, and the verdict passes without it. -/
theorem infoAddition_passes :
    compileTargetSvp (newApi .info) = .ok (compiledNewApi .info) ∧
      (detectP1 (compiledNewApi .info)).length = 0 ∧ AddsNothing {} ∧
      (evaluateConstraints (compiledNewApi .info) (plainInput {} {} {})).result = .pass :=
  ⟨rfl, by decide +kernel, ⟨rfl, rfl⟩, by decide +kernel⟩

/-- A hard addition keeps the verdict from PASS. -/
theorem hardAddition_neverPasses : NeverPasses (compiledNewApi .hard) AddsNothing := by
  have haccepted : compileTargetSvp (newApi .hard) = .ok (compiledNewApi .hard) := rfl
  have hsilent : (detectP1 (compiledNewApi .hard)).length = 0 := by decide +kernel
  have haddition : isPositiveAddition (compiledNewApiConstraint .hard) = true := by decide +kernel
  have hcanon : Canonicalizes (compiledNewApiConstraint .hard).expected := ⟨_, rfl⟩
  have hasks : AsksForItems (compiledNewApiConstraint .hard) := by
    simp [AsksForItems, compiledNewApiConstraint]
  refine ((silent_neverPasses_iff haccepted).1 rfl (List.length_eq_zero_iff.mp hsilent)).mpr
    (.inl ⟨compiledNewApiConstraint .hard, by simp [compiledNewApi], haddition, haddition, ?_, ?_⟩)
  · exact fun _ => ⟨by decide, hasks⟩
  · exact fun hno => absurd hcanon hno

end SemanticCi.Hazards
