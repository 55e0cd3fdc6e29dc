import SemanticCi.Verification.Evaluator.AllowRules
import SemanticCi.Verification.Hazards.EmptyDiff

/-! Lock-only targets: for which constraints the verdict on a diff without Python is the
vacuous PASS that the advisory announces. -/

namespace SemanticCi.Hazards

open SemanticCi.Python SemanticCi.StateSchema SemanticCi.Framework SemanticCi.Compiler
  SemanticCi.Matching SemanticCi.Operators SemanticCi.PathResolver SemanticCi.Evaluator
  SemanticCi.DeltaOverlay ExceptRules

/-! ## What the classification promises -/

/-- The literals that the classification lets through on a leaf. -/
def LockLiteral (c : CompiledConstraint) : Prop :=
  match c.operator with
  | .equals => ∀ items, c.expected ≠ .dict items
  | .notEquals => isEmptyCollection c.expected = false
  | .includesAll | .supersetOf => isEmptyCollection c.expected = true
  | .includesAny => False
  | _ => True

/-- The shapes of a lock-only constraint. -/
inductive LockShape (c : CompiledConstraint) : Prop where
  | reflexive (mem : c.operator ∈ reflexiveOperators)
  | template (source : c.source = .template) (operator : c.operator = .equals)
  | leaf (length : 1 < c.target.length) (mem : c.operator ∈ pureOperators)
      (literal : LockLiteral c)

theorem not_dict_of_isEmptyCollection {v : PyValue} (h : isEmptyCollection v = true)
    (items : List (PyScalar × PyValue)) : v ≠ .dict items := by
  rintro rfl
  cases h

theorem not_dict_of_asNumber {v : PyValue} {n : PyNum} (h : v.asNumber? = some n)
    (items : List (PyScalar × PyValue)) : v ≠ .dict items := by
  rintro rfl
  cases h

theorem not_isEmptyCollection_of_asNumber {v : PyValue} {n : PyNum} (h : v.asNumber? = some n) :
    isEmptyCollection v = false := by
  match v, h with
  | .scalar _, _ => rfl

/-- The inversion of the classification, one case per operator. -/
theorem lockShape_of_lockOnly {c : CompiledConstraint} (h : isLockOnlyConstraint c = true) :
    c.kind = .delta ∧ isOpenHazardPath c.target = false ∧ LockShape c := by
  simp only [isLockOnlyConstraint] at h
  by_cases hkind : c.kind = .delta
  swap
  · simp [hkind] at h
  by_cases hopen : isOpenHazardPath c.target = true
  · simp [hkind, hopen] at h
  rw [Bool.not_eq_true] at hopen
  simp only [hkind, hopen, ne_eq, not_true_eq_false, Bool.false_eq_true, if_false] at h
  refine ⟨hkind, hopen, ?_⟩
  cases hop : c.operator with
  | equalsBaseline | supersetOfBaseline | noNewItems | noRemovedItems | unchanged =>
      exact .reflexive (by rw [hop]; decide)
  | equals =>
      simp only [hop] at h
      have hliteral (hdict : ∀ items, c.expected ≠ .dict items) : LockLiteral c := by
        rw [LockLiteral, hop]
        exact hdict
      split at h
      · rename_i htemplate
        exact .template htemplate.1 hop
      split at h
      · rename_i hempty
        exact .leaf (of_decide_eq_true hempty.1) (by rw [hop]; decide)
          (hliteral (not_dict_of_isEmptyCollection hempty.2))
      cases hnumber : c.expected.asNumber? with
      | none => simp [hnumber] at h
      | some n =>
          simp only [hnumber, Bool.and_eq_true, decide_eq_true_eq] at h
          exact .leaf h.1 (by rw [hop]; decide) (hliteral (not_dict_of_asNumber hnumber))
  | notEquals =>
      simp only [hop] at h
      by_cases hleaf : 1 < c.target.length
      · refine .leaf hleaf (by rw [hop]; decide) ?_
        rw [LockLiteral, hop]
        cases hnumber : c.expected.asNumber? with
        | none => simpa [hnumber, hleaf] using h
        | some n => exact not_isEmptyCollection_of_asNumber hnumber
      · simp [hleaf] at h
  | includesAll | supersetOf =>
      simp only [hop, Bool.and_eq_true, decide_eq_true_eq] at h
      refine .leaf h.1 (by rw [hop]; decide) ?_
      rw [LockLiteral, hop]
      exact h.2
  | excludesAll | subsetOf =>
      simp only [hop, decide_eq_true_eq] at h
      refine .leaf h (by rw [hop]; decide) ?_
      rw [LockLiteral, hop]
      trivial
  | lessThan | lessThanOrEqual | greaterThan | greaterThanOrEqual | withinRange =>
      simp only [hop, Bool.and_eq_true, decide_eq_true_eq] at h
      refine .leaf h.1 (by rw [hop]; decide) ?_
      rw [LockLiteral, hop]
      trivial
  | includesAny | notEqualsBaseline | changed | changedOnlyIn =>
      simp [hop, isNumericLock] at h

/-- On an empty collection a lock literal that canonicalizes is decided by what it says of it. -/
theorem collectionOutcome_decides {c : CompiledConstraint} (hliteral : LockLiteral c)
    (hop : c.operator = .equals ∨ c.operator = .notEquals ∨ c.operator ∈ collectionOperators)
    (hseq : c.operator ∈ collectionOperators → ∃ kind items, c.expected = .seq kind items)
    {e : PyValue} (he : canon c.expected = .ok e) :
    Decides (evaluatePureOperator c.operator (JsonValue.array []).toPy c.expected c.tolerance)
      (CollectionHolds c) := by
  have hv : canon (JsonValue.array []).toPy = .ok (.tuple []) := rfl
  have hempty : (PyValue.tuple []).norm = e.norm ↔
      (∃ kind, c.expected = .seq kind []) ∨ c.expected = .dict [] := by
    rw [eq_comm, ← canon_norm_empty he]
    rfl
  rcases hop with hop | hop | hop
  · have hdecides := evaluatePureOperator_equals hop hv he c.tolerance
    rw [LockLiteral, hop] at hliteral
    refine hdecides.congr ?_
    rw [hempty, CollectionHolds, hop]
    exact or_iff_left (hliteral [])
  · have hdecides := evaluatePureOperator_notEquals hop hv he c.tolerance
    rw [LockLiteral, hop] at hliteral
    refine hdecides.congr ?_
    rw [ne_eq, hempty, CollectionHolds, hop, not_or]
    refine and_iff_right ?_
    rintro ⟨kind, hempty⟩
    rw [hempty] at hliteral
    cases hliteral
  · obtain ⟨kind, items, hitems⟩ := hseq hop
    have hmembers : IsCollection e.norm := by
      rw [hitems] at he
      exact isCollection_canon_seq he
    have hnone (n : Norm) : n ∉ Members (PyValue.tuple []).norm := by simp
    have hexpected (h : isEmptyCollection c.expected = true) (n : Norm) : n ∉ Members e.norm := by
      have hnil : items = [] := by
        rw [hitems] at h
        cases items with
        | nil => rfl
        | cons x xs => cases h
      rw [(canon_norm_empty he).mpr (.inl ⟨kind, by rw [hitems, hnil]⟩)]
      simp
    have hdecides := (decides_setOperator hop hv he (by simp [IsCollection]) hmembers
      c.tolerance).evaluatePureOperator
    simp only [collectionOperators, List.mem_cons, List.not_mem_nil, or_false] at hop
    rw [LockLiteral] at hliteral
    refine hdecides.congr (iff_of_true ?_ ?_)
    · rcases hop with hop | hop | hop | hop | hop <;> rw [hop] at hliteral ⊢
      · exact fun n hn => absurd hn (hexpected hliteral n)
      · exact hliteral.elim
      · exact fun _ _ n hn => absurd hn (hnone n)
      · exact fun n hn => absurd hn (hnone n)
      · exact fun n hn => absurd hn (hexpected hliteral n)
    · rw [CollectionHolds]
      rcases hop with hop | hop | hop | hop | hop <;> rw [hop] <;> trivial

/-! ## One constraint -/

/-- The constraint needs the coverage records to be there. -/
def NeedsCoverage (c : CompiledConstraint) : Prop :=
  c.kind ≠ .repair ∧ c.target = ["coverage"] ∧ (c.operator ∈ baselineSetOperators ∨
    (c.operator ∈ collectionOperators ∧ Canonicalizes c.expected))

/-- The literal of a lock on a leaf admits whatever the leaf holds, or the severity keeps its
violation out of the verdict; what is undecided must be left to a lenient policy. -/
structure LeafCalm (c : CompiledConstraint) : Prop where
  undecided : leafOf c.target = .coverage ∨ LiteralRaises c → Lenient c.unknownPolicy
  collection : leafOf c.target = .collection → ¬ LiteralRaises c → c.severity ≠ .info →
    CollectionHolds c
  number : leafOf c.target = .number → ¬ LiteralRaises c → c.severity ≠ .info → NumberHolds c 0
  lines : leafOf c.target = .lines → ¬ LiteralRaises c → c.severity ≠ .info → ∀ n, NumberHolds c n

section LeafKinds

variable {c : CompiledConstraint}

theorem leafCalm_collection (hleaf : leafOf c.target = .collection) :
    LeafCalm c ↔ (LiteralRaises c → Lenient c.unknownPolicy) ∧
      (¬ LiteralRaises c → c.severity ≠ .info → CollectionHolds c) := by
  refine ⟨fun h => ⟨fun hraises => h.undecided (.inr hraises), h.collection hleaf⟩, fun h => ?_⟩
  constructor <;> rw [hleaf]
  · exact fun hundecided => h.1 (hundecided.resolve_left (by decide))
  · exact fun _ => h.2
  · exact fun hno => absurd hno (by decide)
  · exact fun hno => absurd hno (by decide)

theorem leafCalm_number (hleaf : leafOf c.target = .number) :
    LeafCalm c ↔ (LiteralRaises c → Lenient c.unknownPolicy) ∧
      (¬ LiteralRaises c → c.severity ≠ .info → NumberHolds c 0) := by
  refine ⟨fun h => ⟨fun hraises => h.undecided (.inr hraises), h.number hleaf⟩, fun h => ?_⟩
  constructor <;> rw [hleaf]
  · exact fun hundecided => h.1 (hundecided.resolve_left (by decide))
  · exact fun hno => absurd hno (by decide)
  · exact fun _ => h.2
  · exact fun hno => absurd hno (by decide)

theorem leafCalm_lines (hleaf : leafOf c.target = .lines) :
    LeafCalm c ↔ ∀ n : ℕ, (LiteralRaises c → Lenient c.unknownPolicy) ∧
      (¬ LiteralRaises c → c.severity ≠ .info → NumberHolds c n) := by
  constructor
  · exact fun h n => ⟨fun hraises => h.undecided (.inr hraises),
      fun hraises hseverity => h.lines hleaf hraises hseverity n⟩
  · intro h
    constructor <;> rw [hleaf]
    · exact fun hundecided => (h 0).1 (hundecided.resolve_left (by decide))
    · exact fun hno => absurd hno (by decide)
    · exact fun hno => absurd hno (by decide)
    · exact fun _ hraises hseverity n => (h n).2 hraises hseverity

theorem leafCalm_coverage (hleaf : leafOf c.target = .coverage) :
    LeafCalm c ↔ Lenient c.unknownPolicy := by
  refine ⟨fun h => h.undecided (.inl hleaf), fun h => ?_⟩
  constructor <;> rw [hleaf]
  · exact fun _ => h
  · exact fun hno => absurd hno (by decide)
  · exact fun hno => absurd hno (by decide)
  · exact fun hno => absurd hno (by decide)

end LeafKinds

/-- The constraint cannot move the verdict on a diff without Python. -/
structure Calm (c : CompiledConstraint) : Prop where
  coverage : ¬ NeedsCoverage c
  leaf : participatesInVerdict c = true → c.source = .user → c.operator ∈ pureOperators → LeafCalm c

def arrayStatePaths : List TargetPath :=
  [["api_surface"], ["type_relations"], ["effects"], ["control_flow"], ["data_flow"], ["imports"],
    ["complexity"], ["test_surface"], ["module_graph"], ["api_surface_public"]]

theorem closed_statePaths : ∀ path ∈ validStateTargetPaths, isOpenPath path = false →
    path = ["coverage"] ∨ path ∈ arrayStatePaths := by
  decide +kernel

theorem resolve_arrayState (s : CodeState) : ∀ path ∈ arrayStatePaths,
    ∃ items, resolveState s path = some (.array items) := by
  simp only [arrayStatePaths, List.forall_mem_cons]
  exact ⟨⟨_, rfl⟩, ⟨_, rfl⟩, ⟨_, rfl⟩, ⟨_, rfl⟩, ⟨_, rfl⟩, ⟨_, rfl⟩, ⟨_, rfl⟩, ⟨_, rfl⟩,
    ⟨_, rfl⟩, ⟨_, rfl⟩, by simp⟩

def topDeltaPaths : List TargetPath :=
  [["api_surface_delta"], ["decorators_delta"], ["type_changes"], ["effect_changes"],
    ["cfg_delta"], ["imports_delta"], ["complexity_delta"], ["test_surface_delta"],
    ["files_touched"], ["loc_delta"], ["renames"]]

theorem closed_deltaPaths : ∀ path ∈ deltaTargetPaths, isOpenPath path = false →
    path = ["coverage_delta"] ∨ path ∈ topDeltaPaths ∨ 1 < path.length := by
  decide +kernel

theorem resolve_topDelta (entries : List PrintedEntry) : ∀ path ∈ topDeltaPaths,
    resolveDelta (overlayNumstat {} (numstatOf entries)) path ≠ some .null := by
  have hne {v : JsonValue} (h : v ≠ .null) : some v ≠ some .null := fun heq => h (Option.some.inj heq)
  simp only [topDeltaPaths, List.forall_mem_cons]
  refine ⟨hne ?_, hne ?_, hne ?_, hne ?_, hne ?_, hne ?_, hne ?_, hne ?_, hne ?_, hne ?_, hne ?_,
    by simp⟩ <;> exact fun h => by cases h

/-- What a constraint of kind `state` or `delta` reads, unless it reads the coverage. -/
theorem emptyDiff_fits {c : CompiledConstraint} (hc : Admitted c) (hkind : c.kind ≠ .repair)
    {s : CodeState} {entries : List PrintedEntry} {v : JsonValue}
    (hreading : reading c (emptyDiffInput s entries) = .one (some v))
    (hclosed : isOpenPath c.target = false) (hcoverage : c.target ≠ ["coverage"]) :
    FitsCategory (categoryForTarget c.target) v := by
  rcases hc.target_cases hkind with hopen | ⟨-, hstate | ⟨hdelta, hpath⟩⟩
  · rw [hclosed] at hopen
    cases hopen
  · rcases reading_one hreading with ⟨-, hvalue⟩ | ⟨-, hfirst, -⟩
    · obtain ⟨w, hw, hfits⟩ := resolveState_fits s hstate hclosed
      obtain rfl : v = w := Option.some.inj (hvalue.trans hw)
      obtain ⟨items, hitems⟩ := resolve_arrayState s _
        ((closed_statePaths _ hstate hclosed).resolve_left hcoverage)
      refine hfits.resolve_left ?_
      rintro rfl
      rw [hitems] at hw
      cases hw
    · exact absurd hfirst (closed_statePaths_first _ hstate hclosed).2
  · rcases reading_one hreading with ⟨hstate, -⟩ | ⟨-, -, hvalue⟩
    · rw [hdelta] at hstate
      cases hstate
    · rw [emptyDiff_delta] at hvalue
      rcases resolveDelta_fits hpath hclosed hvalue.symm with rfl | hfits
      · rcases closed_deltaPaths _ hpath hclosed with htop | htop | hlength
        · rw [htop]
          exact fitsCategory_of_neither (by decide +kernel) (by decide +kernel) _
        · exact absurd hvalue.symm (resolve_topDelta entries _ htop)
        · have hleaf := leafPath_of_delta hpath hclosed hlength
          generalize leafOf c.target = leaf at hleaf
          cases hleaf with
          | collection hmem =>
              rw [resolve_collectionLeaf entries _ hmem] at hvalue
              cases hvalue
          | number hmem =>
              rw [resolve_numberLeaf entries _ hmem] at hvalue
              cases hvalue
          | lines hmem =>
              obtain ⟨n, hn⟩ := resolve_lineLeaf entries _ hmem
              rw [hn] at hvalue
              cases hvalue
          | coverage hmem =>
              rw [resolve_coverageLeaf entries _ hmem] at hvalue
              cases hvalue
      · exact hfits

theorem coverage_category :
    isOpenPath ["coverage"] = false ∧ categoryForTarget ["coverage"] = .recordCollection := by
  decide +kernel

/-- What is read twice is an array, unless it is the coverage. -/
theorem reading_two_emptyDiff {c : CompiledConstraint} (hc : Admitted c) (hkind : c.kind ≠ .repair)
    {s : CodeState} {entries : List PrintedEntry} {b v : Option JsonValue}
    (hreading : reading c (emptyDiffInput s entries) = .two b v) :
    ∃ x, b = some x ∧ v = some x ∧ (c.target ≠ ["coverage"] → ∃ items, x = .array items) := by
  obtain ⟨hfirst, rfl, rfl⟩ := reading_two hreading
  have hstate : isOpenPath c.target = false ∧ c.target ∈ validStateTargetPaths := by
    rcases hc.target_cases hkind with hopen | ⟨hclosed, hstate | ⟨-, hpath⟩⟩
    · exact absurd (open_first hopen).2.1 hfirst
    · exact ⟨hclosed, hstate⟩
    · exact absurd (closed_deltaPaths_first _ hpath hclosed) hfirst
  obtain ⟨hclosed, hstate⟩ := hstate
  obtain ⟨x, hx, -⟩ := resolveState_fits s hstate hclosed
  refine ⟨x, hx, hx, fun hcoverage => ?_⟩
  obtain ⟨items, hitems⟩ := resolve_arrayState s _
    ((closed_statePaths _ hstate hclosed).resolve_left hcoverage)
  exact ⟨items, Option.some.inj (hx.symm.trans hitems)⟩

/-- A constraint on the coverage that does not need it is decided, or its literal raises. -/
theorem coverage_not_authoring {c : CompiledConstraint} (hc : Admitted c)
    (hkind : c.kind ≠ .repair) (htarget : c.target = ["coverage"])
    (hpure : c.operator ∈ pureOperators)
    (hno : ¬ (c.operator ∈ collectionOperators ∧ Canonicalizes c.expected)) (v : JsonValue) :
    (catchInternal c (evaluatePure c (some v))).unknownCause ≠ some .authoring := by
  have hcategory : categoryForTarget c.target = .recordCollection := by
    rw [htarget, coverage_category.2]
  obtain ⟨w, hw, -⟩ := canon_toPy v
  rw [evaluatePure_some]
  rcases ok_or_error (canon c.expected) with ⟨e, he⟩ | ⟨err, he⟩
  · have hset : c.operator ∉ collectionOperators := fun hmem => hno ⟨hmem, e, he⟩
    have hnumber (h : c.operator ∈ numericOperators ∨ c.operator = .withinRange) : False := by
      have hscalar := hc.number_category hkind h (by rw [hcategory]; decide)
      rw [hcategory] at hscalar
      cases hscalar
    have hdecided {p : Prop}
        (h : Decides (evaluatePureOperator c.operator v.toPy c.expected c.tolerance) p) :
        (catchInternal c (evaluatePureOperator c.operator v.toPy c.expected c.tolerance >>= fun o =>
          pure (fromOperatorOutcome c o))).unknownCause ≠ some .authoring := by
      by_cases hp : p
      · rw [(concludes_satisfied h hp).cause]
        simp
      · rw [(concludes_violated h hp).cause]
        simp
    rcases pureOperators_cases hpure with heq | heq | hmem | hmem | hmem
    · have hdecides := evaluatePureOperator_equals heq hw he c.tolerance
      exact hdecided hdecides
    · have hdecides := evaluatePureOperator_notEquals heq hw he c.tolerance
      exact hdecided hdecides
    · exact absurd hmem hset
    · exact (hnumber (.inl hmem)).elim
    · exact (hnumber (.inr hmem)).elim
  · rw [(concludes_of_error (evaluatePureOperator_of_canon_error hpure hw he _)).cause]
    simp

section OneConstraint

variable {compiled : CompiledTarget} {c : CompiledConstraint} (hc : Admitted c)
  (hkind : c.kind ≠ .repair) (hop : c.operator ≠ .changedOnlyIn)

include hkind hop

theorem evaluated_emptyDiff (s : CodeState) (entries : List PrintedEntry) :
    Evaluated c (emptyDiffInput s entries) := by
  refine ⟨hkind, hop, rfl, ?_⟩
  cases hcase : c.kind <;> simp [timedOutDimension, timedOutDimensions, emptyDiffInput, hcase] <;>
    split <;> rfl

include hc

/-- Without coverage records a constraint that needs them is an authoring error. -/
theorem fails_of_needsCoverage (hneeds : NeedsCoverage c) :
    contribution (independentResult compiled (emptyDiffInput {} []) c) ≠ .pass := by
  obtain ⟨-, htarget, hoperator⟩ := hneeds
  have hclosed : isOpenPath c.target = false := by
    rw [htarget, coverage_category.1]
  have hopenTarget : isOpenTarget c.target = false := by
    rw [isOpenTarget_eq_isOpenPath (hc.matchesPattern hkind), hclosed]
  have hevaluated := evaluated_emptyDiff hkind hop {} []
  have hfits := hc.operatorFits hevaluated
  rw [hc.independentResult_eq hevaluated]
  by_cases hstate : c.kind = .state
  · have hreading : reading c (emptyDiffInput {} []) = .one (some .null) := by
      rw [reading, if_pos hstate, htarget]
      rfl
    rw [hreading] at hfits ⊢
    have hset : c.operator ∈ collectionOperators ∧ Canonicalizes c.expected := by
      refine hoperator.resolve_left fun hbaseline => ?_
      have hfits : c.operator ∈ pureOperators := hfits
      revert hbaseline hfits
      cases c.operator <;> decide
    obtain ⟨hset, e, he⟩ := hset
    have hequality : c.operator ≠ .equals ∧ c.operator ≠ .notEquals := by
      constructor <;> intro heq <;> rw [heq] at hset <;> revert hset <;> decide
    have hmismatch := pure_null_mismatch hfits he hequality
    simp only [retag, hopenTarget, Bool.false_eq_true, and_false, if_false] at hmismatch
    exact not_passes_of_authoring hmismatch
  · have hreading : reading c (emptyDiffInput {} []) = .two (some .null) (some .null) := by
      have hfirst : c.target.first ∉ codeStateDeltaFields := by
        rw [htarget]
        decide
      rw [reading, if_neg hstate, if_neg hfirst, htarget]
      rfl
    rw [hreading] at hfits ⊢
    have hset : c.operator ∈ baselineSetOperators := by
      refine hoperator.resolve_right fun hpure => ?_
      have hfits : c.operator ∈ baselineOperators := hfits
      have hpure := hpure.1
      revert hpure hfits
      cases c.operator <;> decide
    exact not_passes_of_authoring (concludes_baseline_null hset hopenTarget)

/-- Outside the coverage nothing on an empty Python diff is an authoring error. -/
theorem not_authoring (hneeds : ¬ NeedsCoverage c) (s : CodeState) (entries : List PrintedEntry) :
    ¬ ((independentResult compiled (emptyDiffInput s entries) c).status = .unknown ∧
      (independentResult compiled (emptyDiffInput s entries) c).unknownCause =
        some .authoring) := by
  have hevaluated := evaluated_emptyDiff hkind hop s entries
  have hfits := hc.operatorFits hevaluated
  rintro ⟨hstatus, hcause⟩
  rw [hc.independentResult_eq hevaluated] at hstatus hcause
  cases hreading : reading c (emptyDiffInput s entries) with
  | one value =>
      rw [hreading] at hfits hcause
      cases value with
      | none =>
          rw [evaluateReading, evaluatePure, catchInternal,
            (concludes_unresolved hc hkind).cause] at hcause
          exact missingCause_ne_authoring _ hcause
      | some v =>
          by_cases hcoverage : c.target = ["coverage"]
          · refine coverage_not_authoring hc hkind hcoverage hfits (fun h => ?_) v hcause
            exact hneeds ⟨hkind, hcoverage, .inr h⟩
          · exact pure_not_authoring hc hkind hfits
              (fun hclosed => emptyDiff_fits hc hkind hreading hclosed hcoverage) hcause
  | two b v =>
      rw [hreading] at hfits hstatus
      obtain ⟨x, rfl, rfl, hshape⟩ := reading_two_emptyDiff hc hkind hreading
      refine baseline_not_authoring hfits (fun hset => ?_) hstatus
      have hcoverage : c.target ≠ ["coverage"] := fun h => hneeds ⟨hkind, h, .inl hset⟩
      exact ⟨hshape hcoverage, hshape hcoverage⟩

end OneConstraint

/-! ## Locks on a leaf -/

theorem not_setOperator_of_number {c : CompiledConstraint} (hc : Admitted c)
    (hkind : c.kind ≠ .repair) (hcategory : categoryForTarget c.target = .scalarNumber) :
    c.operator ∉ collectionOperators := by
  intro hset
  have hcollection := hc.collection_category hkind (List.mem_append_left _ hset)
    (by rw [hcategory]; decide)
  rw [hcategory] at hcollection
  revert hcollection
  decide

/-- A collection is not compared with a number. -/
theorem operator_of_collection {c : CompiledConstraint} (hc : Admitted c)
    (hkind : c.kind ≠ .repair) (hop : c.operator ∈ pureOperators)
    (hcategory : categoryForTarget c.target ∈ collectionCategories) :
    c.operator = .equals ∨ c.operator = .notEquals ∨ c.operator ∈ collectionOperators := by
  have hnumber (h : c.operator ∈ numericOperators ∨ c.operator = .withinRange) : False := by
    have hknown : categoryForTarget c.target ≠ .unknownOpen := by
      intro heq
      rw [heq] at hcategory
      revert hcategory
      decide
    rw [hc.number_category hkind h hknown] at hcategory
    revert hcategory
    decide
  rcases pureOperators_cases hop with h | h | h | h | h
  · exact .inl h
  · exact .inr (.inl h)
  · exact .inr (.inr h)
  · exact (hnumber (.inl h)).elim
  · exact (hnumber (.inr h)).elim

section OneLeaf

variable {compiled : CompiledTarget} {c : CompiledConstraint} (hc : Admitted c)
  (hkind : c.kind = .delta) (hclosed : isOpenPath c.target = false)

include hc hkind

theorem number_passes_iff (hop : c.operator ∈ pureOperators)
    (hset : c.operator ∉ collectionOperators) (n : ℕ) :
    contribution (catchInternal c (evaluatePure c (some (.int n)))) = .pass ↔
      (LiteralRaises c → Lenient c.unknownPolicy) ∧
        (¬ LiteralRaises c → c.severity ≠ .info → NumberHolds c n) := by
  have hrepair : c.kind ≠ .repair := by
    rw [hkind]
    decide
  by_cases hraises : LiteralRaises c
  · obtain ⟨e, he⟩ := numberOutcome_raises hc hrepair hop hraises n
    rw [passes_iff_of_error he]
    simp [hraises]
  · rw [passes_iff_of_decides (numberOutcome_decides hc hrepair hop hset hraises n)]
    simp [hraises]

theorem collection_passes_iff (hliteral : LockLiteral c)
    (hop : c.operator = .equals ∨ c.operator = .notEquals ∨ c.operator ∈ collectionOperators) :
    contribution (catchInternal c (evaluatePure c (some (.array [])))) = .pass ↔
      (LiteralRaises c → Lenient c.unknownPolicy) ∧
        (¬ LiteralRaises c → c.severity ≠ .info → CollectionHolds c) := by
  have hrepair : c.kind ≠ .repair := by
    rw [hkind]
    decide
  have hpure : c.operator ∈ pureOperators := by
    rcases hop with hop | hop | hop
    · rw [hop]
      decide
    · rw [hop]
      decide
    · revert hop
      cases c.operator <;> decide
  have hbounds : literalBounds c = [] := by
    have hnumeric : c.operator ∉ numericOperators ∧ c.operator ≠ .withinRange := by
      rcases hop with hop | hop | hop
      · rw [hop]
        decide
      · rw [hop]
        decide
      · revert hop
        cases c.operator <;> decide
    rw [literalBounds, if_neg hnumeric.1, if_neg hnumeric.2]
  have hraises : LiteralRaises c ↔ ¬ Canonicalizes c.expected := by
    simp [LiteralRaises, hbounds]
  rw [hraises]
  rcases ok_or_error (canon c.expected) with ⟨e, he⟩ | ⟨err, he⟩
  · have hcanon : Canonicalizes c.expected := ⟨e, he⟩
    have hdecides := collectionOutcome_decides hliteral hop
      (fun hset => hc.expected_seq hrepair hset) he
    rw [passes_iff_of_decides hdecides]
    simp [hcanon]
  · have hcanon : ¬ Canonicalizes c.expected := by
      rintro ⟨e, he'⟩
      rw [he] at he'
      cases he'
    rw [passes_iff_of_error (v := .array [])
      (evaluatePureOperator_of_canon_error hpure (w := .tuple []) rfl he _)]
    simp [hcanon]

include hclosed

theorem leafPath (hlength : 1 < c.target.length) : LeafPath c.target (leafOf c.target) := by
  have hrepair : c.kind ≠ .repair := by
    rw [hkind]
    decide
  rcases hc.target_cases hrepair with hopen | ⟨-, hstate | ⟨-, hpath⟩⟩
  · rw [hclosed] at hopen
    cases hopen
  · have hshort := statePaths_short _ hstate
    omega
  · exact leafPath_of_delta hpath hclosed hlength

theorem independentResult_leaf (hlength : 1 < c.target.length) (hop : c.operator ∈ pureOperators)
    (s : CodeState) (entries : List PrintedEntry) :
    independentResult compiled (emptyDiffInput s entries) c =
      catchInternal c (evaluatePure c (resolveDelta (overlayNumstat {} (numstatOf entries)) c.target)) := by
  have hrepair : c.kind ≠ .repair := by
    rw [hkind]
    decide
  have hstate : c.kind ≠ .state := by
    rw [hkind]
    decide
  have hchanged : c.operator ≠ .changedOnlyIn := by
    rintro heq
    rw [heq] at hop
    revert hop
    decide
  have hfirst : c.target.first ∈ codeStateDeltaFields := by
    rcases hc.target_cases hrepair with hopen | ⟨-, hstate | ⟨-, hpath⟩⟩
    · rw [hclosed] at hopen
      cases hopen
    · have hshort := statePaths_short _ hstate
      omega
    · exact closed_deltaPaths_first _ hpath hclosed
  rw [hc.independentResult_eq (evaluated_emptyDiff hrepair hchanged s entries), reading,
    if_neg hstate, if_pos hfirst, emptyDiff_delta]
  rfl

/-- A lock on a leaf never moves the verdict exactly when its literal is calm. -/
theorem leaf_passes_iff (hlength : 1 < c.target.length) (hop : c.operator ∈ pureOperators)
    (hliteral : LockLiteral c) :
    (∀ s entries, NonPython entries →
      contribution (independentResult compiled (emptyDiffInput s entries) c) = .pass) ↔
        LeafCalm c := by
  have hrepair : c.kind ≠ .repair := by
    rw [hkind]
    decide
  have hnil : NonPython [] := by simp [NonPython]
  have hresult := @independentResult_leaf compiled c
  simp only [hresult hc hkind hclosed hlength hop]
  have hpath := leafPath hc hkind hclosed hlength
  generalize hleaf : leafOf c.target = leaf at hpath
  cases hpath with
  | collection hmem =>
      have hlegal := operator_of_collection hc hrepair hop (leaf_categories.1 _ hmem)
      have hiff := collection_passes_iff hc hkind hliteral hlegal
      rw [leafCalm_collection hleaf]
      constructor
      · intro hpass
        have h := hpass {} [] hnil
        rwa [resolve_collectionLeaf [] _ hmem, hiff] at h
      · intro hcalm s entries _
        rwa [resolve_collectionLeaf entries _ hmem, hiff]
  | number hmem =>
      have hset := not_setOperator_of_number hc hrepair
        (leaf_categories.2 _ (List.mem_append_left _ hmem))
      have hiff := number_passes_iff hc hkind hop hset 0
      rw [leafCalm_number hleaf]
      constructor
      · intro hpass
        have h := hpass {} [] hnil
        rw [resolve_numberLeaf [] _ hmem] at h
        exact hiff.mp h
      · intro hcalm s entries _
        rw [resolve_numberLeaf entries _ hmem]
        exact hiff.mpr hcalm
  | lines hmem =>
      have hset := not_setOperator_of_number hc hrepair
        (leaf_categories.2 _ (List.mem_append_right _ hmem))
      rw [leafCalm_lines hleaf]
      constructor
      · intro hpass n
        have h := hpass {} (textDiff n) (nonPython_textDiff n)
        rwa [resolve_textDiff _ _ hmem, number_passes_iff hc hkind hop hset] at h
      · intro hcalm s entries _
        obtain ⟨n, hn⟩ := resolve_lineLeaf entries _ hmem
        rw [hn, number_passes_iff hc hkind hop hset]
        exact hcalm n
  | coverage hmem =>
      rw [leafCalm_coverage hleaf]
      constructor
      · intro hpass
        have h := hpass {} [] hnil
        rwa [resolve_coverageLeaf [] _ hmem, passes_iff_of_missing hc hrepair] at h
      · intro hcalm s entries _
        rwa [resolve_coverageLeaf entries _ hmem, passes_iff_of_missing hc hrepair]

end OneLeaf

/-! ## Every constraint of a lock-only target -/

theorem participatesInVerdict_eq_false_iff {c : CompiledConstraint} :
    participatesInVerdict c = false ↔ c.kind = .repair ∨ c.operator = .changedOnlyIn ∨
      (c.severity = .info ∧ Lenient c.unknownPolicy) := by
  unfold participatesInVerdict Lenient
  by_cases hkind : c.kind = .repair
  · simp [hkind]
  by_cases hop : c.operator = .changedOnlyIn
  · simp [hop]
  cases c.severity <;> cases c.unknownPolicy <;> simp [hkind, hop]

section Skipped

variable {c : CompiledConstraint} (hskip : c.kind = .repair ∨ c.operator = .changedOnlyIn)

include hskip

/-- What the evaluator skips cannot move the verdict. -/
theorem skipped_passes (compiled : CompiledTarget) (s : CodeState) (entries : List PrintedEntry) :
    contribution (independentResult compiled (emptyDiffInput s entries) c) = .pass := by
  rw [independentResult, evaluateConstraint]
  by_cases hkind : c.kind = .repair
  · rw [if_pos hkind]
    rfl
  · rw [if_neg hkind, if_pos (hskip.resolve_left hkind)]
    rfl

theorem skipped_calm : Calm c := by
  constructor
  · rintro ⟨hkind, -, hop⟩
    rw [hskip.resolve_left hkind] at hop
    revert hop
    simp [baselineSetOperators, collectionOperators]
  · intro hpart
    rw [participatesInVerdict_eq_false_iff.mpr (hskip.imp id .inl)] at hpart
    cases hpart

end Skipped

/-- A comparison of a dimension with itself passes, where the coverage records are not needed. -/
theorem reflexive_passes {compiled : CompiledTarget} {c : CompiledConstraint} (hc : Admitted c)
    (hkind : c.kind ≠ .repair) (hop : c.operator ≠ .changedOnlyIn)
    (hmem : c.operator ∈ reflexiveOperators) (hcoverage : ¬ NeedsCoverage c) (s : CodeState)
    (entries : List PrintedEntry) :
    contribution (independentResult compiled (emptyDiffInput s entries) c) = .pass := by
  have hpure : c.operator ∉ pureOperators := by
    revert hmem
    cases c.operator <;> decide
  have hevaluated := evaluated_emptyDiff hkind hop s entries
  have hfits := hc.operatorFits hevaluated
  rw [hc.independentResult_eq hevaluated]
  cases hreading : reading c (emptyDiffInput s entries) with
  | one value =>
      rw [hreading] at hfits
      exact absurd hfits hpure
  | two b v =>
      obtain ⟨x, rfl, rfl, hshape⟩ := reading_two_emptyDiff hc hkind hreading
      refine passes_of_satisfied (concludes_baseline_self hmem fun hset => ?_)
      exact hshape fun h => hcoverage ⟨hkind, h, .inl hset⟩

theorem user_passes_iff {compiled : CompiledTarget} {c : CompiledConstraint} (hc : Admitted c)
    (hlock : participatesInVerdict c = true → isLockOnlyConstraint c = true) :
    (∀ s entries, NonPython entries →
      contribution (independentResult compiled (emptyDiffInput s entries) c) = .pass) ↔ Calm c := by
  by_cases hskip : c.kind = .repair ∨ c.operator = .changedOnlyIn
  · exact iff_of_true (fun s entries _ => skipped_passes hskip compiled s entries)
      (skipped_calm hskip)
  rw [not_or] at hskip
  obtain ⟨hkind, hop⟩ := hskip
  have hresult (s : CodeState) (entries : List PrintedEntry) :=
    resultOf_independentResult compiled (emptyDiffInput s entries) c
  have hneeds (hpass : ∀ s entries, NonPython entries →
      contribution (independentResult compiled (emptyDiffInput s entries) c) = .pass) :
      ¬ NeedsCoverage c :=
    fun hneeds => fails_of_needsCoverage hc hkind hop hneeds (hpass {} [] (by simp [NonPython]))
  cases hpart : participatesInVerdict c with
  | false =>
      obtain ⟨hinfo, hlenient⟩ := ((participatesInVerdict_eq_false_iff.mp hpart).resolve_left
        hkind).resolve_left hop
      refine ⟨fun hpass => ⟨hneeds hpass, fun h => by rw [hpart] at h; cases h⟩,
        fun hcalm s entries _ => ?_⟩
      rw [contribution_eq_pass_iff, (hresult s entries).severity, (hresult s entries).unknownPolicy]
      exact ⟨fun _ => hinfo, fun hunknown => ⟨fun hcause =>
        not_authoring hc hkind hop hcalm.coverage s entries ⟨hunknown, hcause⟩, hlenient⟩⟩
  | true =>
      obtain ⟨hdelta, hhazard, hshape⟩ := lockShape_of_lockOnly (hlock hpart)
      have hclosed : isOpenPath c.target = false := by
        have hprefix : c.target.first ∉ openPrefixes := by
          simpa [isOpenHazardPath, openPrefixes] using hhazard
        simp [isOpenPath, hprefix]
      cases hshape with
      | reflexive hmem =>
          have hpure : c.operator ∉ pureOperators := by
            revert hmem
            cases c.operator <;> decide
          refine ⟨fun hpass => ⟨hneeds hpass, fun _ _ h => absurd h hpure⟩,
            fun hcalm s entries _ => ?_⟩
          exact reflexive_passes hc hkind hop hmem hcalm.coverage s entries
      | template hsource =>
          rw [hc.source] at hsource
          cases hsource
      | leaf hlength hmem hliteral =>
          rw [leaf_passes_iff hc hdelta hclosed hlength hmem hliteral]
          refine ⟨fun hcalm => ⟨?_, fun _ _ _ => hcalm⟩, fun hcalm => hcalm.leaf hpart hc.source hmem⟩
          rintro ⟨-, htarget, -⟩
          rw [htarget] at hlength
          revert hlength
          decide

/-! ## The templates -/

/-- The shapes of the template constraints. -/
inductive TemplateShape (c : CompiledConstraint) : Prop where
  | state (target : c.target ∈ arrayStatePaths) (operator : c.operator = .equalsBaseline)
  | leaf (target : c.target ∈ collectionLeaves) (operator : c.operator = .equals)
      (expected : c.expected = .tuple [])
  | effects (target : c.target = ["effect_changes"]) (operator : c.operator = .equals)
      (expected : c.expected = emptyChanges)

theorem templateShape {kind : ChangeKind} {c : CompiledConstraint}
    (hc : c ∈ templateConstraints kind) : TemplateShape c := by
  cases kind <;> simp only [templateConstraints, List.mem_cons, List.not_mem_nil, or_false] at hc
  · rcases hc with rfl | rfl
    · exact .leaf (by decide) rfl rfl
    · exact .leaf (by decide) rfl rfl
  · rcases hc with rfl | rfl
    · exact .state (by decide) rfl
    · exact .leaf (by decide) rfl rfl
  · rcases hc with rfl | rfl | rfl | rfl
    · exact .state (by decide) rfl
    · exact .state (by decide) rfl
    · exact .effects rfl rfl rfl
    · exact .state (by decide) rfl
  · rcases hc with rfl | rfl | rfl
    · exact .state (by decide) rfl
    · exact .effects rfl rfl rfl
    · exact .state (by decide) rfl

theorem calm_of_template {kind : ChangeKind} {c : CompiledConstraint}
    (hc : c ∈ templateConstraints kind) : Calm c := by
  have hsource := source_of_mem_templateConstraints hc
  refine ⟨?_, fun _ huser => by rw [hsource] at huser; cases huser⟩
  rintro ⟨-, htarget, -⟩
  have hnot : ["coverage"] ∉ arrayStatePaths ∧ ["coverage"] ∉ collectionLeaves ∧
      ["coverage"] ≠ ["effect_changes"] := by decide
  cases templateShape hc with
  | state hmem => exact hnot.1 (htarget ▸ hmem)
  | leaf hmem => exact hnot.2.1 (htarget ▸ hmem)
  | effects heq => exact hnot.2.2 (htarget.symm.trans heq)

theorem concludes_emptyChanges {c : CompiledConstraint} (hop : c.operator = .equals)
    (hexpected : c.expected = emptyChanges) :
    Concludes (catchInternal c (evaluatePure c
      (some (.object [("added", .array []), ("removed", .array [])])))) .satisfied none := by
  obtain ⟨e, he⟩ : ∃ e, canon emptyChanges = .ok e := ⟨_, rfl⟩
  have hobserved : canon (JsonValue.object [("added", .array []), ("removed", .array [])]).toPy =
      canon emptyChanges := rfl
  have hdecides := (decides_equals (hobserved.trans he) he c.tolerance).evaluatePureOperator
  rw [evaluatePure_some, hop, hexpected]
  exact concludes_satisfied hdecides rfl

theorem templateTargets : ∀ path ∈ ["effect_changes"] :: (arrayStatePaths ++ collectionLeaves),
    matchesTargetPattern path = true := by
  decide +kernel

theorem arrayStatePaths_first : ∀ path ∈ arrayStatePaths,
    path.first ∉ codeStateDeltaFields ∧ path.first ∈ codeStateFields := by
  decide +kernel

theorem collectionLeaves_first : ∀ path ∈ collectionLeaves, path.first ∈ codeStateDeltaFields := by
  decide +kernel

/-- A template constraint is satisfied when the two states are the same. -/
theorem concludes_template {c : CompiledConstraint} (hkind : c.kind = .delta)
    (hshape : TemplateShape c) (s : CodeState) (entries : List PrintedEntry) :
    Concludes (evaluateConstraint [] [] (emptyDiffInput s entries) c) .satisfied none := by
  have hrepair : c.kind ≠ .repair := by
    rw [hkind]
    decide
  have hop : c.operator ≠ .changedOnlyIn := by
    cases hshape <;> rename_i hop <;> simp [*]
  have hpattern : matchesTargetPattern c.target = true := by
    refine templateTargets _ ?_
    cases hshape with
    | state hmem => exact List.mem_cons_of_mem _ (List.mem_append_left _ hmem)
    | leaf hmem => exact List.mem_cons_of_mem _ (List.mem_append_right _ hmem)
    | effects heq => exact List.mem_cons.mpr (.inl heq)
  have hevaluated := evaluated_emptyDiff hrepair hop s entries
  have hresolved : evaluateResolved [] [] (emptyDiffInput s entries) c =
      evaluateDeltaConstraint c (overlayNumstat {} (numstatOf entries)) s s := by
    rw [← emptyDiff_delta s entries]
    simp [evaluateResolved, hkind, deltaForConstraint, statesForConstraint, emptyDiffInput]
  rw [evaluateConstraint, if_neg hrepair, if_neg hop]
  simp only [hpattern, Bool.not_true, Bool.false_eq_true, if_false, hevaluated.extracted,
    hevaluated.inTime, hresolved]
  cases hshape with
  | state hmem hop =>
      obtain ⟨hdelta, hfield⟩ := arrayStatePaths_first _ hmem
      obtain ⟨items, hitems⟩ := resolve_arrayState s _ hmem
      have hbaseline : ¬ c.operator ∉ baselineOperators := by
        rw [hop]
        decide
      rw [evaluateDeltaConstraint, if_neg hdelta, if_pos hfield, if_neg hbaseline, hitems]
      exact concludes_baseline_self (by rw [hop]; decide) fun _ => ⟨items, rfl⟩
  | leaf hmem hop hexpected =>
      have hpure : c.operator ∉ baselineOperators := by
        rw [hop]
        decide
      rw [evaluateDeltaConstraint, if_pos (collectionLeaves_first _ hmem), if_neg hpure,
        resolve_collectionLeaf entries _ hmem]
      exact concludes_equalsEmpty hop hexpected []
  | effects heq hop hexpected =>
      have hpure : c.operator ∉ baselineOperators := by
        rw [hop]
        decide
      have hfirst : c.target.first ∈ codeStateDeltaFields := by
        rw [heq]
        decide
      rw [evaluateDeltaConstraint, if_pos hfirst, if_neg hpure, heq]
      exact concludes_emptyChanges hop hexpected

/-- Allow rules can only relax it. -/
theorem template_passes {kind : ChangeKind} {c : CompiledConstraint}
    (hc : c ∈ templateConstraints kind) (eff : List EffectAllowRule)
    (api : List APISurfaceAllowRule) (s : CodeState) (entries : List PrintedEntry) :
    contribution (evaluateConstraint eff api (emptyDiffInput s entries) c) = .pass := by
  have hplain : ∀ e ∈ (emptyDiffInput s entries).delta.effectChanges.added, PlainEffect e := by
    rw [emptyDiff_delta]
    intro e he
    cases he
  have hrelaxes := evaluateConstraint_template_relaxes hc (List.nil_subset eff)
    (List.nil_subset api) (emptyDiffInput s entries) hplain
  have hpasses := passes_of_satisfied
    (concludes_template (templateConstraints_shape hc).1 (templateShape hc) s entries)
  rw [VerdictResult.eq_pass_iff, ← hpasses]
  exact hrelaxes.contribution_le (resultOf_evaluateConstraint ..) (resultOf_evaluateConstraint ..)

/-! ## The advisory -/

/-- On every diff without Python the verdict is PASS. -/
def VacuousPass (compiled : CompiledTarget) : Prop :=
  ∀ s entries, NonPython entries →
    (evaluateConstraints compiled (emptyDiffInput s entries)).result = .pass

theorem lockOnly_of_detectD4 {compiled : CompiledTarget} {filesTouched : List PurePath}
    (h : detectD4 compiled filesTouched ≠ []) :
    ∀ c ∈ compiled.constraints, participatesInVerdict c = true → isLockOnlyConstraint c = true := by
  have htarget : isLockOnlyTarget compiled = true := by
    by_contra hno
    refine h ?_
    simp [detectD4, hno]
  intro c hc hpart
  unfold isLockOnlyTarget at htarget
  split at htarget
  · cases htarget
  · exact List.all_eq_true.mp htarget c (List.mem_filter.mpr ⟨hc, hpart⟩)

/-- Where the advisory fires, the verdict is the announced PASS on every diff without Python
exactly when every constraint is calm. -/
theorem vacuousPass_iff_calm {svp : TargetSVP} {compiled : CompiledTarget}
    (h : compileTargetSvp svp = .ok compiled) {filesTouched : List PurePath}
    (hfires : detectD4 compiled filesTouched ≠ []) :
    VacuousPass compiled ↔ ∀ c ∈ compiled.constraints, Calm c := by
  have hlock := lockOnly_of_detectD4 hfires
  have hconstraint : ∀ c ∈ compiled.constraints, (∀ s entries, NonPython entries →
      contribution (independentResult compiled (emptyDiffInput s entries) c) = .pass) ↔ Calm c := by
    intro c hc
    cases hsource : c.source with
    | user => exact user_passes_iff (admitted_of_user h hc hsource) (hlock c hc)
    | template =>
        have hmem := mem_templateConstraints_of_template h hc hsource
        exact iff_of_true (fun s entries _ => template_passes hmem _ _ s entries)
          (calm_of_template hmem)
  simp only [VacuousPass, result_eq_pass_iff]
  constructor
  · intro hpass c hc
    exact (hconstraint c hc).mp fun s entries hentries => hpass s entries hentries c hc
  · intro hcalm s entries hentries c hc
    exact (hconstraint c hc).mpr (hcalm c hc) s entries hentries

/-- A target that forbids new lines. -/
def lineLock : TargetSVP where
  intent := ""
  change := { primaryKind := .generic }
  constraints := [{
    id := "lines"
    kind := .delta
    target := ["loc_delta", "added"]
    operator := .lessThanOrEqual
    expected := .int 0 }]

def compiledLineLock : CompiledTarget where
  intent := ""
  primaryKind := .generic
  allowedSecondaryKinds := []
  scope := []
  constraints := [{
    id := "lines"
    kind := .delta
    target := ["loc_delta", "added"]
    operator := .lessThanOrEqual
    expected := .int 0
    severity := .hard
    unknownPolicy := .fail
    tolerance := none
    evidenceRequired := false
    scope := .none
    source := .user }]

/-- The advisory announces a vacuous PASS over a verdict that fails. -/
theorem lineLock_fails_on_text :
    compileTargetSvp lineLock = .ok compiledLineLock ∧
      (detectD4 compiledLineLock [["README.md"]]).map (·.code) = ["ADVISORY-D4"] ∧
      NonPython (textDiff 3) ∧
      (evaluateConstraints compiledLineLock (emptyDiffInput {} (textDiff 3))).result = .fail :=
  ⟨rfl, by decide +kernel, nonPython_textDiff 3, by decide +kernel⟩

def refactorTarget : TargetSVP where
  intent := ""
  change := { primaryKind := .refactor }

def compiledRefactorTarget : CompiledTarget where
  intent := ""
  primaryKind := .refactor
  allowedSecondaryKinds := []
  scope := []
  constraints := templateConstraints .refactor

/-- The advisory is right about a plain refactor. -/
theorem vacuousPass_iff_calm_refactor : VacuousPass compiledRefactorTarget := by
  have haccepted : compileTargetSvp refactorTarget = .ok compiledRefactorTarget := rfl
  have hfires : (detectD4 compiledRefactorTarget [["README.md"]]).length = 1 := by decide +kernel
  have hne : detectD4 compiledRefactorTarget [["README.md"]] ≠ [] := by
    intro hnil
    rw [hnil] at hfires
    cases hfires
  refine (vacuousPass_iff_calm haccepted hne).mpr fun c hc => ?_
  have hmem : c ∈ templateConstraints .refactor := hc
  exact calm_of_template hmem

end SemanticCi.Hazards
