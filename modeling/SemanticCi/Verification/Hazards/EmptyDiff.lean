import SemanticCi.Verification.Delta.Computed
import SemanticCi.Verification.Evaluator.Contribution
import SemanticCi.Model.DeltaOverlay
import SemanticCi.Model.Hazards

/-! A diff without Python: what every target reads there, and what the literal of a constraint
makes of it. -/

namespace SemanticCi.Hazards

open SemanticCi.Python SemanticCi.StateSchema SemanticCi.Framework SemanticCi.Compiler
  SemanticCi.Matching SemanticCi.Operators SemanticCi.PathResolver SemanticCi.Evaluator
  SemanticCi.DeltaOverlay ExceptRules

/-! ## The readings on an empty Python diff -/

/-- No path of the diff is a Python file. -/
def NonPython (entries : List PrintedEntry) : Prop :=
  ∀ entry ∈ entries, isPythonPath entry.path.parts = false ∧
    ∀ old ∈ entry.oldPath, isPythonPath old.parts = false

/-- The same state on both sides, under the numstat of the diff. -/
def emptyDiffInput (s : CodeState) (entries : List PrintedEntry) : EvaluationInput where
  delta := overlayNumstat (Delta.computeCodeStateDelta s s) (numstatOf entries)
  baseline := s
  candidate := s

/-- What a leaf of the delta holds when nothing but git has seen a change. -/
inductive Leaf where
  | collection
  | number
  | lines
  | coverage
deriving DecidableEq

def leafOf (target : TargetPath) : Leaf :=
  if target.first = "loc_delta" then .lines
  else if target.first = "coverage_delta" then .coverage
  else if target.first ∈ ["cfg_delta", "complexity_delta"] then .number
  else .collection

def collectionLeaves : List TargetPath :=
  [["api_surface_delta", "added"], ["api_surface_delta", "removed"],
    ["api_surface_delta", "changed"], ["api_surface_delta", "removed_public"],
    ["decorators_delta", "added"], ["decorators_delta", "removed"],
    ["decorators_delta", "changed"], ["effect_changes", "added"], ["effect_changes", "removed"],
    ["imports_delta", "added"], ["imports_delta", "removed"], ["test_surface_delta", "new_files"],
    ["test_surface_delta", "new_cases"], ["test_surface_delta", "removed_cases"],
    ["api_surface_delta", "added", "fqns"], ["effect_changes", "added", "fqns"],
    ["imports_delta", "added", "modules"]]

def numberLeaves : List TargetPath :=
  [["cfg_delta", "new_branches"], ["cfg_delta", "removed_branches"],
    ["complexity_delta", "cyclomatic"], ["complexity_delta", "cognitive"]]

def lineLeaves : List TargetPath := [["loc_delta", "added"], ["loc_delta", "removed"]]

def coverageLeaves : List TargetPath := [["coverage_delta", "line"], ["coverage_delta", "branch"]]

/-- A closed target with a dot, by what it holds. -/
inductive LeafPath (target : TargetPath) : Leaf → Prop where
  | collection (mem : target ∈ collectionLeaves) : LeafPath target .collection
  | number (mem : target ∈ numberLeaves) : LeafPath target .number
  | lines (mem : target ∈ lineLeaves) : LeafPath target .lines
  | coverage (mem : target ∈ coverageLeaves) : LeafPath target .coverage

theorem leaves_cover : ∀ path ∈ deltaTargetPaths, isOpenPath path = false → 1 < path.length →
    (leafOf path = .collection ∧ path ∈ collectionLeaves) ∨
      (leafOf path = .number ∧ path ∈ numberLeaves) ∨
      (leafOf path = .lines ∧ path ∈ lineLeaves) ∨
      (leafOf path = .coverage ∧ path ∈ coverageLeaves) := by
  decide +kernel

theorem leafPath_of_delta {path : TargetPath} (hpath : path ∈ deltaTargetPaths)
    (hclosed : isOpenPath path = false) (hlength : 1 < path.length) :
    LeafPath path (leafOf path) := by
  rcases leaves_cover path hpath hclosed hlength with ⟨hleaf, hmem⟩ | ⟨hleaf, hmem⟩ |
    ⟨hleaf, hmem⟩ | ⟨hleaf, hmem⟩ <;> rw [hleaf]
  · exact .collection hmem
  · exact .number hmem
  · exact .lines hmem
  · exact .coverage hmem

theorem statePaths_short : ∀ path ∈ validStateTargetPaths, path.length ≤ 1 := by decide +kernel

/-- The categories of the leaves admit no other operators. -/
theorem leaf_categories : (∀ path ∈ collectionLeaves, categoryForTarget path ∈ collectionCategories) ∧
    ∀ path ∈ numberLeaves ++ lineLeaves, categoryForTarget path = .scalarNumber := by
  decide +kernel

section Values

variable (s : CodeState) (entries : List PrintedEntry)

theorem emptyDiff_delta :
    (emptyDiffInput s entries).delta = overlayNumstat {} (numstatOf entries) := by
  rw [emptyDiffInput, Delta.computeCodeStateDelta_self]

theorem resolve_collectionLeaf : ∀ path ∈ collectionLeaves,
    resolveDelta (overlayNumstat {} (numstatOf entries)) path = some (.array []) := by
  simp only [collectionLeaves, List.forall_mem_cons]
  exact ⟨rfl, rfl, rfl, rfl, rfl, rfl, rfl, rfl, rfl, rfl, rfl, rfl, rfl, rfl, rfl, rfl, rfl,
    by simp⟩

theorem resolve_numberLeaf : ∀ path ∈ numberLeaves,
    resolveDelta (overlayNumstat {} (numstatOf entries)) path = some (.int 0) := by
  simp only [numberLeaves, List.forall_mem_cons]
  exact ⟨rfl, rfl, rfl, rfl, by simp⟩

theorem resolve_coverageLeaf : ∀ path ∈ coverageLeaves,
    resolveDelta (overlayNumstat {} (numstatOf entries)) path = none := by
  simp only [coverageLeaves, List.forall_mem_cons]
  exact ⟨rfl, rfl, by simp⟩

theorem mem_textual {entry : GitDiff.NumstatEntry}
    (h : entry ∈ (numstatOf entries).filter fun entry => !entry.isBinary) :
    0 ≤ entry.added ∧ 0 ≤ entry.removed := by
  obtain ⟨printed, -, rfl⟩ := List.mem_map.mp (List.mem_filter.mp h).1
  exact ⟨printed.added_nonneg, printed.removed_nonneg⟩

/-- The line counts are counts. -/
theorem resolve_lineLeaf : ∀ path ∈ lineLeaves, ∃ n : ℕ,
    resolveDelta (overlayNumstat {} (numstatOf entries)) path = some (.int n) := by
  simp only [lineLeaves, List.forall_mem_cons]
  have hadded : 0 ≤ (overlayNumstat {} (numstatOf entries)).locDelta.added :=
    List.sum_nonneg (List.forall_mem_map.mpr fun _ hentry => (mem_textual entries hentry).1)
  have hremoved : 0 ≤ (overlayNumstat {} (numstatOf entries)).locDelta.removed :=
    List.sum_nonneg (List.forall_mem_map.mpr fun _ hentry => (mem_textual entries hentry).2)
  refine ⟨(Int.eq_ofNat_of_zero_le hadded).imp fun n hn => ?_,
    (Int.eq_ofNat_of_zero_le hremoved).imp fun n hn => ?_, by simp⟩
  · exact congrArg (fun i => some (JsonValue.int i)) hn
  · exact congrArg (fun i => some (JsonValue.int i)) hn

end Values

/-- A diff of one text file with the given counts. -/
def textDiff (n : ℕ) : List PrintedEntry := [{
  added := n
  removed := n
  path := .ofPure ["README.md"]
  added_nonneg := Int.natCast_nonneg n
  removed_nonneg := Int.natCast_nonneg n
  path_relative := rfl
  oldPath_relative := by simp }]

theorem nonPython_textDiff (n : ℕ) : NonPython (textDiff n) := by
  have hpath : isPythonPath ["README.md"] = false := by decide +kernel
  intro entry hentry
  obtain rfl := List.mem_singleton.mp hentry
  exact ⟨hpath, by simp⟩

/-- Every count is the count of some diff. -/
theorem resolve_textDiff (n : ℕ) : ∀ path ∈ lineLeaves,
    resolveDelta (overlayNumstat {} (numstatOf (textDiff n))) path = some (.int n) := by
  have hsum : [(n : ℤ)].sum = n := List.sum_singleton
  simp only [lineLeaves, List.forall_mem_cons]
  refine ⟨?_, ?_, by simp⟩
  · exact congrArg (fun i => some (JsonValue.int i)) hsum
  · exact congrArg (fun i => some (JsonValue.int i)) hsum

/-! ## The literal against the reading -/

/-- The numbers that a numeric operator shifts by its tolerance. -/
def literalBounds (c : CompiledConstraint) : List PyNum :=
  if c.operator ∈ numericOperators then c.expected.asNumber?.toList
  else if c.operator = .withinRange then
    match rangeBounds? c.expected with
    | some (low, high) => [low, high]
    | none => []
  else []

/-- The literal has a mapping whose keys do not sort, or a bound beyond the floats. -/
def LiteralRaises (c : CompiledConstraint) : Prop :=
  ¬ Canonicalizes c.expected ∨ ∃ bound ∈ literalBounds c, ∃ e, bound.toFloat = .error e

/-- The literal admits the count `n`. -/
def NumberHolds (c : CompiledConstraint) (n : ℕ) : Prop :=
  match c.operator with
  | .equals => c.expected.eq (.int n) = true
  | .notEquals => c.expected.eq (.int n) = false
  | .withinRange => ∃ low high, rangeBounds? c.expected = some (low, high) ∧
      rangeHolds (.int n) low high (toleranceOrZero c.tolerance) = .ok true
  | operator => ∃ relation bound, numericRelation operator = some relation ∧
      c.expected.asNumber? = some bound ∧
      relationHolds relation (.int n) bound (toleranceOrZero c.tolerance) = .ok true

/-- The literal of a lock admits the empty collection: `equals` needs an empty sequence, and
`not_equals` must not name the empty mapping. -/
def CollectionHolds (c : CompiledConstraint) : Prop :=
  match c.operator with
  | .equals => ∃ kind, c.expected = .seq kind []
  | .notEquals => c.expected ≠ .dict []
  | _ => True

theorem relationHolds_isOk {bound : PyNum} (h : ∀ e, bound.toFloat ≠ .error e)
    (relation : Relation) (x : PyNum) (tol : PyFloat) :
    ∃ b, relationHolds relation x bound tol = .ok b := by
  obtain ⟨f, hf⟩ := (ok_or_error bound.toFloat).resolve_right fun ⟨e, he⟩ => h e he
  cases relation <;>
    simp only [relationHolds, PyNum.addFloat, PyNum.subFloat, hf, ok_bind, pure_eq_ok] <;>
    exact ⟨_, rfl⟩

theorem relationHolds_overflow {bound : PyNum} {e : PyError} (h : bound.toFloat = .error e)
    (relation : Relation) (x : PyNum) (tol : PyFloat) :
    relationHolds relation x bound tol = .error e := by
  cases relation <;> simp only [relationHolds, PyNum.addFloat, PyNum.subFloat, h, error_bind]

theorem rangeHolds_isOk {low high : PyNum} (hlow : ∀ e, low.toFloat ≠ .error e)
    (hhigh : ∀ e, high.toFloat ≠ .error e) (x : PyNum) (tol : PyFloat) :
    ∃ b, rangeHolds x low high tol = .ok b := by
  obtain ⟨f, hf⟩ := (ok_or_error low.toFloat).resolve_right fun ⟨e, he⟩ => hlow e he
  obtain ⟨g, hg⟩ := (ok_or_error high.toFloat).resolve_right fun ⟨e, he⟩ => hhigh e he
  simp only [rangeHolds, PyNum.addFloat, PyNum.subFloat, hf, hg, ok_bind, pure_eq_ok]
  exact ⟨_, rfl⟩

theorem rangeHolds_overflow {low high : PyNum}
    (h : (∃ e, low.toFloat = .error e) ∨ ∃ e, high.toFloat = .error e) (x : PyNum) (tol : PyFloat) :
    ∃ e, rangeHolds x low high tol = .error e := by
  rcases ok_or_error low.toFloat with ⟨f, hf⟩ | ⟨e, he⟩
  · obtain ⟨e, he⟩ := h.resolve_left fun ⟨e, he⟩ => by rw [hf] at he; cases he
    exact ⟨e, by simp only [rangeHolds, PyNum.addFloat, PyNum.subFloat, hf, he, ok_bind, error_bind,
      pure_eq_ok]⟩
  · exact ⟨e, by simp only [rangeHolds, PyNum.subFloat, he, error_bind]⟩

/-- Canonicalization keeps scalars and makes no new ones. -/
theorem canon_norm_scalar {e e' : PyValue} (he : canon e = .ok e') (a : NormScalar) :
    e'.norm = .scalar a ↔ e.norm = .scalar a := by
  cases e with
  | scalar s =>
      cases he
      exact Iff.rfl
  | set items =>
      cases he
      exact Iff.rfl
  | seq kind items =>
      obtain ⟨kind', ys, -, rfl⟩ := exists_of_canon_seq he
      simp
  | dict items =>
      obtain ⟨pairs, -, hrest⟩ := bind_eq_ok_iff.mp he
      obtain ⟨sorted, -, hy⟩ := bind_eq_ok_iff.mp hrest
      cases hy
      simp [PyValue.norm]

theorem canon_norm_empty {e e' : PyValue} (he : canon e = .ok e') :
    e'.norm = .tuple [] ↔ (∃ kind, e = .seq kind []) ∨ e = .dict [] := by
  cases e with
  | scalar s =>
      cases he
      simp
  | set items =>
      cases he
      simp [PyValue.norm]
  | seq kind items =>
      obtain ⟨kind', ys, hys, rfl⟩ := exists_of_canon_seq he
      have hlength := ((canonList_eq_ok_iff _ _).mp hys).length_eq
      rw [norm_seq, Norm.tuple.injEq, List.map_eq_nil_iff, ← List.length_eq_zero_iff, ← hlength,
        List.length_eq_zero_iff]
      simp
  | dict items =>
      obtain ⟨pairs, hpairs, hrest⟩ := bind_eq_ok_iff.mp he
      obtain ⟨sorted, hsorted, hy⟩ := bind_eq_ok_iff.mp hrest
      cases hy
      have hlength := ((canonPairs_eq_ok_iff _ _).mp hpairs).length_eq
      have hperm := (sortByKey_perm hsorted).length_eq
      rw [norm_seq, Norm.tuple.injEq, List.map_eq_nil_iff, List.map_eq_nil_iff,
        ← List.length_eq_zero_iff, hperm, ← hlength, List.length_eq_zero_iff]
      simp

section Outcomes

variable {c : CompiledConstraint} (hc : Admitted c) (hkind : c.kind ≠ .repair)

include hc hkind

theorem literalBounds_of_numeric (hop : c.operator ∈ numericOperators) :
    ∃ bound, c.expected.asNumber? = some bound ∧ literalBounds c = [bound] := by
  obtain ⟨bound, hbound⟩ := hc.expected_number hkind hop
  exact ⟨bound, hbound, by simp [literalBounds, hop, hbound]⟩

theorem literalBounds_of_range (hop : c.operator = .withinRange) :
    ∃ e low high, canon c.expected = .ok e ∧ rangeBounds? e = some (low, high) ∧
      rangeBounds? c.expected = some (low, high) ∧ literalBounds c = [low, high] := by
  obtain ⟨e, low, high, he, hbounds, hliteral⟩ := canon_withinRange hc hkind hop
  have hnumeric : c.operator ∉ numericOperators := by
    rw [hop]
    decide
  exact ⟨e, low, high, he, hbounds, hliteral, by simp [literalBounds, hop, hliteral, numericOperators]⟩

/-- A literal that raises does so on every count. -/
theorem numberOutcome_raises (hop : c.operator ∈ pureOperators) (hraises : LiteralRaises c)
    (n : ℤ) : ∃ e, evaluatePureOperator c.operator (JsonValue.int n).toPy c.expected c.tolerance =
      .error e := by
  have hx : (JsonValue.int n).toPy.asNumber? = some (.int n) := rfl
  rcases hraises with hcanon | ⟨bound, hmem, e, hbound⟩
  · obtain ⟨e, he⟩ := (ok_or_error (canon c.expected)).resolve_left hcanon
    exact ⟨_, evaluatePureOperator_of_canon_error hop (w := .int n) rfl he _⟩
  · by_cases hnumeric : c.operator ∈ numericOperators
    · obtain ⟨number, hnumber, hlist⟩ := literalBounds_of_numeric hc hkind hnumeric
      obtain rfl : bound = number := by simpa [hlist] using hmem
      obtain ⟨relation, hrelation⟩ := numericRelation_of_mem hnumeric
      have herr := relationHolds_overflow hbound relation (.int n) (toleranceOrZero c.tolerance)
      refine ⟨.overflowError, ?_⟩
      rw [evaluatePureOperator, pureDispatch_numeric hrelation, numericCompare_error hx hnumber herr,
        relationHolds_error herr]
      rfl
    by_cases hrange : c.operator = .withinRange
    · obtain ⟨literal, low, high, hliteral, hbounds, -, hlist⟩ :=
        literalBounds_of_range hc hkind hrange
      have hoverflow : (∃ e, low.toFloat = .error e) ∨ ∃ e, high.toFloat = .error e := by
        rw [hlist] at hmem
        simp only [List.mem_cons, List.not_mem_nil, or_false] at hmem
        rcases hmem with rfl | rfl
        · exact .inl ⟨e, hbound⟩
        · exact .inr ⟨e, hbound⟩
      obtain ⟨err, herr⟩ := rangeHolds_overflow hoverflow (.int n) (toleranceOrZero c.tolerance)
      refine ⟨.overflowError, ?_⟩
      have hdispatch : pureDispatch c.operator (JsonValue.int n).toPy c.expected c.tolerance =
          withinRange (JsonValue.int n).toPy c.expected c.tolerance := by
        rw [hrange]
        rfl
      rw [evaluatePureOperator, hdispatch, withinRange_error hx hliteral hbounds herr,
        rangeHolds_error herr]
      rfl
    · simp [literalBounds, hnumeric, hrange] at hmem

/-- A literal that does not raise is decided on every count by what it says of it. -/
theorem numberOutcome_decides (hop : c.operator ∈ pureOperators)
    (hset : c.operator ∉ collectionOperators) (hraises : ¬ LiteralRaises c) (n : ℕ) :
    Decides (evaluatePureOperator c.operator (JsonValue.int n).toPy c.expected c.tolerance)
      (NumberHolds c n) := by
  simp only [LiteralRaises, not_or, not_not, not_exists, not_and] at hraises
  obtain ⟨⟨e, he⟩, hbounds⟩ := hraises
  have hx : (JsonValue.int n).toPy.asNumber? = some (.int n) := rfl
  have hv : canon (JsonValue.int n).toPy = .ok (.int n) := rfl
  have hequal : (PyValue.int n).norm = e.norm ↔ c.expected.eq (.int n) = true := by
    rw [eq_comm, PyValue.eq_iff, norm_scalar, canon_norm_scalar he]
  rcases pureOperators_cases hop with heq | heq | hmem | hnumeric | hrange
  · have hdecides := evaluatePureOperator_equals heq hv he c.tolerance
    refine hdecides.congr ?_
    rw [hequal, NumberHolds, heq]
  · have hdecides := evaluatePureOperator_notEquals heq hv he c.tolerance
    refine hdecides.congr ?_
    rw [ne_eq, hequal, NumberHolds, heq, Bool.not_eq_true]
  · exact absurd hmem hset
  · obtain ⟨bound, hnumber, hlist⟩ := literalBounds_of_numeric hc hkind hnumeric
    obtain ⟨relation, hrelation⟩ := numericRelation_of_mem hnumeric
    obtain ⟨b, hb⟩ := relationHolds_isOk (hbounds bound (by simp [hlist])) relation (.int n)
      (toleranceOrZero c.tolerance)
    refine (Decides.evaluatePureOperator ?_ : Decides _ (b = true)).congr ?_
    · rw [pureDispatch_numeric hrelation]
      exact decides_numericCompare hx hnumber hb
    · have hholds : NumberHolds c n ↔ ∃ relation bound, numericRelation c.operator = some relation ∧
          c.expected.asNumber? = some bound ∧
          relationHolds relation (.int n) bound (toleranceOrZero c.tolerance) = .ok true := by
        unfold NumberHolds
        split <;> rename_i hcase <;> simp_all [numericOperators]
      rw [hholds]
      constructor
      · rintro rfl
        exact ⟨relation, bound, hrelation, hnumber, hb⟩
      · rintro ⟨relation', bound', hrelation', hnumber', hb'⟩
        obtain rfl := Option.some.inj (hrelation.symm.trans hrelation')
        obtain rfl := Option.some.inj (hnumber.symm.trans hnumber')
        exact Except.ok.inj (hb.symm.trans hb')
  · obtain ⟨literal, low, high, hliteral, hbounds', hexpected, hlist⟩ :=
      literalBounds_of_range hc hkind hrange
    obtain ⟨b, hb⟩ := rangeHolds_isOk (hbounds low (by simp [hlist])) (hbounds high (by simp [hlist]))
      (.int n) (toleranceOrZero c.tolerance)
    refine (Decides.evaluatePureOperator ?_ : Decides _ (b = true)).congr ?_
    · rw [hrange]
      exact decides_withinRange hx hliteral hbounds' hb
    · rw [NumberHolds, hrange]
      constructor
      · rintro rfl
        exact ⟨low, high, hexpected, hb⟩
      · rintro ⟨low', high', hexpected', hb'⟩
        obtain ⟨rfl, rfl⟩ := Prod.mk.inj (Option.some.inj (hexpected.symm.trans hexpected'))
        exact Except.ok.inj (hb.symm.trans hb')

end Outcomes

end SemanticCi.Hazards
