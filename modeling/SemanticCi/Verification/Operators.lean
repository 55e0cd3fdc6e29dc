import SemanticCi.Verification.Matching
import Mathlib.Data.Set.Basic

/-! What every operator decides, stated on normal forms: the outcome is `satisfied` or
`violated` by a relation between the observed and the expected value, and `unknown` when one
of them has the wrong shape. -/

namespace SemanticCi.Operators

open SemanticCi.Python SemanticCi.Framework SemanticCi.Matching ExceptRules

/-! ## Outcomes up to their evidence -/

/-- The computation returns an outcome with this status and cause. -/
def Judged (x : Except PyError OperatorOutcome) (status : ResultStatus)
    (cause : Option UnknownCause) : Prop :=
  ∃ o, x = .ok o ∧ o.status = status ∧ o.unknownCause = cause

/-- The outcome is `satisfied` exactly when `p` holds, else `violated`. -/
structure Decides (x : Except PyError OperatorOutcome) (p : Prop) : Prop where
  satisfied : p → Judged x .satisfied none
  violated : ¬ p → Judged x .violated none

theorem Decides.congr {x : Except PyError OperatorOutcome} {p q : Prop} (h : Decides x p)
    (hpq : p ↔ q) : Decides x q where
  satisfied hq := h.satisfied (hpq.mpr hq)
  violated hq := h.violated fun hp => hq (hpq.mp hp)

theorem Decides.of_satisfied {x : Except PyError OperatorOutcome} {p : Prop} (h : Decides x p)
    (hx : Judged x .satisfied none) : p := by
  by_contra hp
  obtain ⟨o, ho, hstatus, -⟩ := hx
  obtain ⟨o', ho', hstatus', -⟩ := h.violated hp
  rw [ho] at ho'
  cases ho'
  rw [hstatus] at hstatus'
  cases hstatus'

/-- Every item of the evidence canonicalizes. -/
def Presentable (items : Evidence) : Prop := ∀ item ∈ items, ∃ v, canon item.2 = .ok v

theorem evidence_isOk {items : Evidence} (h : Presentable items) :
    ∃ ev, evidence items = .ok ev := by
  have hvalues : ∀ x ∈ items.map Prod.snd, ∃ y, canon x = .ok y := by
    intro x hx
    obtain ⟨item, hitem, rfl⟩ := List.mem_map.mp hx
    exact h item hitem
  obtain ⟨values, hvalues⟩ := canonList_isOk hvalues
  exact ⟨_, by simp only [evidence, hvalues, ok_bind]; rfl⟩

theorem decides_booleanOutcome {items : Evidence} (h : Presentable items) (b : Bool) :
    Decides (booleanOutcome b items) (b = true) := by
  obtain ⟨ev, hev⟩ := evidence_isOk h
  constructor <;> intro hb <;>
    exact ⟨_, by simp only [booleanOutcome, hev, ok_bind]; rfl, by simp [hb], rfl⟩

theorem judged_unknownTypeMismatch {items : Evidence} (h : Presentable items)
    (cause : UnknownCause) : Judged (unknownTypeMismatch cause items) .unknown (some cause) := by
  obtain ⟨ev, hev⟩ := evidence_isOk h
  exact ⟨_, by simp only [unknownTypeMismatch, hev, ok_bind]; rfl, rfl, rfl⟩

theorem unknownTypeMismatch_error {cause : UnknownCause} {front back : Evidence} {name : String}
    {value : PyValue} (hfront : Presentable front) {e : PyError} (hvalue : canon value = .error e) :
    unknownTypeMismatch cause (front ++ (name, value) :: back) = .error e := by
  have hlist : canonList ((front ++ (name, value) :: back).map Prod.snd) = .error e := by
    induction front with
    | nil => simp [canonList, hvalue]
    | cons item front ih =>
        obtain ⟨w, hw⟩ := hfront item (by simp)
        have hrest := ih fun other hother => hfront other (by simp [hother])
        simp only [List.cons_append, List.map_cons, canonList, hw, ok_bind, hrest, error_bind]
  simp only [unknownTypeMismatch, evidence, hlist, error_bind]

theorem presentable_pair {a b : String} {v w : PyValue} (hv : ∃ v', canon v = .ok v')
    (hw : ∃ w', canon w = .ok w') : Presentable [(a, v), (b, w)] := by
  intro item hitem
  simp only [List.mem_cons, List.not_mem_nil, or_false] at hitem
  rcases hitem with rfl | rfl
  · exact hv
  · exact hw

theorem dictFree_tuple_sortedValues {items : List PyValue} (h : ∀ x ∈ items, DictFree x) :
    DictFree (.tuple (sortedValues items)) := by
  simpa [sortedValues, List.mem_insertionSort] using h

theorem decides_setOutcome {left right : String × List PyValue}
    {detail : List (String × List PyValue)} (hleft : ∀ x ∈ left.2, DictFree x)
    (hright : ∀ x ∈ right.2, DictFree x) (hdetail : ∀ d ∈ detail, ∀ x ∈ d.2, DictFree x)
    (b : Bool) : Decides (setOutcome b left right detail) (b = true) := by
  refine decides_booleanOutcome (fun item hitem => ?_) b
  have hcanon (items : List PyValue) (hitems : ∀ x ∈ items, DictFree x) :
      ∃ v, canon (.tuple (sortedValues items)) = .ok v := by
    obtain ⟨v, hv, -⟩ := canon_of_dictFree _ (dictFree_tuple_sortedValues hitems)
    exact ⟨v, hv⟩
  simp only [List.mem_cons, List.mem_map, List.mem_filter] at hitem
  rcases hitem with rfl | rfl | ⟨d, ⟨hd, -⟩, rfl⟩
  · exact hcanon _ hleft
  · exact hcanon _ hright
  · exact hcanon _ (hdetail d hd)

/-! ## Members of a collection -/

def IsCollection : Norm → Prop
  | .scalar _ => False
  | _ => True

instance : DecidablePred IsCollection := fun n => by
  cases n <;> unfold IsCollection <;> infer_instance

theorem isCollection_canon_seq {kind : SeqKind} {items : List PyValue} {e : PyValue}
    (h : canon (.seq kind items) = .ok e) : IsCollection e.norm := by
  obtain ⟨kind', ys, -, rfl⟩ := exists_of_canon_seq h
  simp [IsCollection]

def Members : Norm → Set Norm
  | .scalar _ => ∅
  | .tuple items => {n | n ∈ items}
  | .set items => {n | ∃ a ∈ items, n = .scalar a}

@[simp] theorem mem_members_tuple (items : List Norm) (n : Norm) :
    n ∈ Members (.tuple items) ↔ n ∈ items := Iff.rfl

/-- The list shows exactly these normal forms. -/
def Shows (items : List PyValue) (s : Set Norm) : Prop := ∀ n, (∃ x ∈ items, x.norm = n) ↔ n ∈ s

theorem Shows.forall_iff {items : List PyValue} {s : Set Norm} (h : Shows items s)
    (p : Norm → Prop) : (∀ x ∈ items, p x.norm) ↔ ∀ n ∈ s, p n := by
  constructor
  · intro hall n hn
    obtain ⟨x, hx, rfl⟩ := (h n).mpr hn
    exact hall x hx
  · intro hall x hx
    exact hall _ ((h _).mp ⟨x, hx, rfl⟩)

theorem Shows.exists_iff {items : List PyValue} {s : Set Norm} (h : Shows items s)
    (p : Norm → Prop) : (∃ x ∈ items, p x.norm) ↔ ∃ n ∈ s, p n := by
  constructor
  · rintro ⟨x, hx, hp⟩
    exact ⟨_, (h _).mp ⟨x, hx, rfl⟩, hp⟩
  · rintro ⟨n, hn, hp⟩
    obtain ⟨x, hx, rfl⟩ := (h n).mpr hn
    exact ⟨x, hx, hp⟩

theorem dedupValues_subset (items : List PyValue) : dedupValues items ⊆ items := by
  induction items with
  | nil => simp [dedupValues]
  | cons x xs ih =>
      intro y hy
      simp only [dedupValues, List.mem_cons, List.mem_filter] at hy ⊢
      exact hy.imp id fun h => ih h.1

theorem exists_mem_dedupValues (items : List PyValue) (n : Norm) :
    (∃ x ∈ dedupValues items, x.norm = n) ↔ ∃ x ∈ items, x.norm = n := by
  constructor
  · rintro ⟨x, hx, hn⟩
    exact ⟨x, dedupValues_subset items hx, hn⟩
  · intro h
    induction items with
    | nil => simp at h
    | cons y ys ih =>
        by_cases hy : y.norm = n
        · exact ⟨y, by simp [dedupValues], hy⟩
        · obtain ⟨x, hx, hn⟩ := ih (by simpa [hy] using h)
          have hne : x.eq y = false := by simp [hn, Ne.symm hy]
          exact ⟨x, by simp [dedupValues, hx, hne], hn⟩

/-- `_collection_items` returns the distinct members, or nothing for a scalar. -/
theorem collectionItems_spec {v w : PyValue} (h : canon v = .ok w) :
    (¬ IsCollection w.norm ∧ collectionItems v = .ok none) ∨
      (IsCollection w.norm ∧ ∃ items, collectionItems v = .ok (some items) ∧
        (∀ x ∈ items, DictFree x) ∧ Shows items (Members w.norm)) := by
  have hfree := dictFree_of_canon v w h
  have hsome (members : List PyValue) (hmembers : collectionMembers w = some members) :
      collectionItems v = .ok (some (sortedValues (dedupValues members))) := by
    simp only [collectionItems, h, ok_bind, hmembers]
    rfl
  have hfound (members : List PyValue) (hdict : ∀ x ∈ members, DictFree x) (s : Set Norm)
      (hshows : Shows members s) :
      (∀ x ∈ sortedValues (dedupValues members), DictFree x) ∧
        Shows (sortedValues (dedupValues members)) s := by
    constructor
    · intro x hx
      rw [sortedValues, List.mem_insertionSort] at hx
      exact hdict x (dedupValues_subset _ hx)
    · intro n
      simp only [sortedValues, List.mem_insertionSort]
      rw [exists_mem_dedupValues]
      exact hshows n
  cases w with
  | scalar s =>
      refine .inl ⟨fun hc => hc, ?_⟩
      simp only [collectionItems, h, ok_bind, collectionMembers]
      rfl
  | dict items => exact absurd hfree (by simp [DictFree])
  | seq kind items =>
      have hitems := (dictFree_seq kind items).mp hfree
      have hshows : Shows items (Members (PyValue.seq kind items).norm) := by
        intro n
        simp
      exact .inr ⟨by simp [IsCollection], _, hsome items rfl, hfound items hitems _ hshows⟩
  | set items =>
      have hshows : Shows (items.map .scalar) (Members (PyValue.set items).norm) := by
        intro n
        simp [PyValue.norm, Members, eq_comm]
      refine .inr ⟨trivial, _, hsome _ rfl, hfound _ ?_ _ hshows⟩
      intro x hx
      obtain ⟨s, -, rfl⟩ := List.mem_map.mp hx
      trivial

/-! ## The pure set operators -/

/-- What the five set operators ask of the observed and the expected members. -/
def SetHolds (operator : Operator) (observed expected : Set Norm) : Prop :=
  match operator with
  | .includesAll | .supersetOf => ∀ e ∈ expected, ∃ o ∈ observed, Matches e o
  | .includesAny => ∃ e ∈ expected, ∃ o ∈ observed, Matches e o
  | .excludesAll => ∀ e ∈ expected, ∀ o ∈ observed, ¬ Matches e o
  | .subsetOf => ∀ o ∈ observed, ∃ e ∈ expected, Matches e o
  | _ => False

section SetOperators

variable {observed expected : List PyValue} {os es : Set Norm}

theorem anyObservedMatches_iff (hobserved : ∀ x ∈ observed, DictFree x) (hos : Shows observed os)
    {e : PyValue} (he : DictFree e) :
    anyObservedMatches e observed = true ↔ ∃ o ∈ os, Matches e.norm o := by
  rw [← hos.exists_iff, anyObservedMatches, List.any_eq_true]
  exact exists_congr fun o => and_congr_right fun ho => matchItem_iff he (hobserved o ho)

theorem anyExpectedMatches_iff (hexpected : ∀ x ∈ expected, DictFree x)
    (hes : Shows expected es) {o : PyValue} (ho : DictFree o) :
    anyExpectedMatches o expected = true ↔ ∃ e ∈ es, Matches e o.norm := by
  rw [← hes.exists_iff fun e => Matches e o.norm, anyExpectedMatches, List.any_eq_true]
  exact exists_congr fun e => and_congr_right fun he => matchItem_iff (hexpected e he) ho

theorem dictFree_matchedPairs (hobserved : ∀ x ∈ observed, DictFree x)
    (hexpected : ∀ x ∈ expected, DictFree x) :
    ∀ x ∈ matchedPairs expected observed, DictFree x := by
  intro x hx
  simp only [matchedPairs, sortedValues, List.mem_insertionSort] at hx
  have hx' := dedupValues_subset _ hx
  simp only [List.mem_flatMap, List.mem_map, List.mem_filter] at hx'
  obtain ⟨e, he, o, ⟨ho, -⟩, rfl⟩ := hx'
  simpa using ⟨hexpected e he, hobserved o ho⟩

theorem matchedPairs_eq_nil_iff (hobserved : ∀ x ∈ observed, DictFree x)
    (hexpected : ∀ x ∈ expected, DictFree x) (hos : Shows observed os)
    (hes : Shows expected es) :
    matchedPairs expected observed = [] ↔ ∀ e ∈ es, ∀ o ∈ os, ¬ Matches e o := by
  have hempty (items : List PyValue) : sortedValues (dedupValues items) = [] ↔ items = [] := by
    rw [← List.length_eq_zero_iff, sortedValues, List.length_insertionSort]
    cases items <;> simp [dedupValues]
  rw [matchedPairs, hempty, List.flatMap_eq_nil_iff, ← hes.forall_iff]
  refine forall_congr' fun e => imp_congr_right fun he => ?_
  rw [List.map_eq_nil_iff, List.filter_eq_nil_iff, ← hos.forall_iff]
  refine forall_congr' fun o => imp_congr_right fun ho => ?_
  rw [matchItem_iff (hexpected e he) (hobserved o ho)]

end SetOperators

theorem onCollections_of_collections {v w e e' : PyValue} (hv : canon v = .ok w)
    (he : canon e = .ok e') (hw : IsCollection w.norm) (hcoll : IsCollection e'.norm)
    (body : List PyValue → List PyValue → Except PyError OperatorOutcome) {p : Prop}
    (hbody : ∀ observed expected, (∀ x ∈ observed, DictFree x) → (∀ x ∈ expected, DictFree x) →
      Shows observed (Members w.norm) → Shows expected (Members e'.norm) →
      Decides (body observed expected) p) :
    Decides (onCollections v e body) p := by
  rcases collectionItems_spec hv with ⟨hno, -⟩ | ⟨-, observed, hobs, hobsfree, hobsshows⟩
  · exact absurd hw hno
  · rcases collectionItems_spec he with ⟨hno, -⟩ | ⟨-, expected, hexp, hexpfree, hexpshows⟩
    · exact absurd hcoll hno
    · have heq : onCollections v e body = body observed expected := by
        simp only [onCollections, hobs, hexp, ok_bind]
      rw [heq]
      exact hbody observed expected hobsfree hexpfree hobsshows hexpshows

theorem onCollections_mismatch {v w e e' : PyValue} (hv : canon v = .ok w)
    (he : canon e = .ok e') (h : ¬ (IsCollection w.norm ∧ IsCollection e'.norm))
    (body : List PyValue → List PyValue → Except PyError OperatorOutcome) :
    Judged (onCollections v e body) .unknown (some .authoring) := by
  have hmismatch : Judged (unknownTypeMismatch .authoring [("observed", v), ("expected", e)])
      .unknown (some .authoring) :=
    judged_unknownTypeMismatch (presentable_pair ⟨w, hv⟩ ⟨e', he⟩) _
  rcases collectionItems_spec hv with ⟨-, hobs⟩ | ⟨hw, observed, hobs, -⟩
  · rcases collectionItems_spec he with ⟨-, hexp⟩ | ⟨-, expected, hexp, -⟩ <;>
      simpa only [onCollections, hobs, hexp, ok_bind] using hmismatch
  · rcases collectionItems_spec he with ⟨-, hexp⟩ | ⟨hcoll, -⟩
    · simpa only [onCollections, hobs, hexp, ok_bind] using hmismatch
    · exact absurd ⟨hw, hcoll⟩ h

/-- A set operator on two collections decides its relation between their members. -/
theorem decides_setOperator {operator : Operator} (hop : operator ∈ collectionOperators)
    {v w e e' : PyValue} (hv : canon v = .ok w) (he : canon e = .ok e')
    (hw : IsCollection w.norm) (hcoll : IsCollection e'.norm) (tolerance : Option PyFloat) :
    Decides (pureDispatch operator v e tolerance)
      (SetHolds operator (Members w.norm) (Members e'.norm)) := by
  have hincludes : Decides (includesAll v e)
      (∀ x ∈ Members e'.norm, ∃ o ∈ Members w.norm, Matches x o) := by
    refine onCollections_of_collections hv he hw hcoll _ fun observed expected hof hef hos hes => ?_
    refine (decides_setOutcome hof hef ?_ _).congr ?_
    · simpa using fun x hx _ => hef x hx
    · simp only [List.isEmpty_iff, List.filter_eq_nil_iff, Bool.not_eq_true', Bool.not_eq_false]
      rw [← hes.forall_iff]
      exact forall_congr' fun x => imp_congr_right fun hx =>
        anyObservedMatches_iff hof hos (hef x hx)
  simp only [collectionOperators, List.mem_cons, List.not_mem_nil, or_false] at hop
  rcases hop with rfl | rfl | rfl | rfl | rfl
  · exact hincludes
  · refine onCollections_of_collections hv he hw hcoll _ fun observed expected hof hef hos hes => ?_
    refine (decides_setOutcome hof hef ?_ _).congr ?_
    · simpa using fun x hx _ => hef x hx
    · simp only [SetHolds, Bool.not_eq_true', List.isEmpty_eq_false_iff, ne_eq,
        List.filter_eq_nil_iff]
      push Not
      rw [← hes.exists_iff fun x => ∃ o ∈ Members w.norm, Matches x o]
      exact exists_congr fun x => and_congr_right fun hx =>
        anyObservedMatches_iff hof hos (hef x hx)
  · refine onCollections_of_collections hv he hw hcoll _ fun observed expected hof hef hos hes => ?_
    refine (decides_setOutcome hof hef ?_ _).congr ?_
    · simpa using dictFree_matchedPairs hof hef
    · rw [List.isEmpty_iff, matchedPairs_eq_nil_iff hof hef hos hes]
      rfl
  · refine onCollections_of_collections hv he hw hcoll _ fun observed expected hof hef hos hes => ?_
    refine (decides_setOutcome hof hef ?_ _).congr ?_
    · simpa using fun x hx _ => hof x hx
    · simp only [SetHolds, List.isEmpty_iff, List.filter_eq_nil_iff, Bool.not_eq_true',
        Bool.not_eq_false]
      rw [← hos.forall_iff fun o => ∃ x ∈ Members e'.norm, Matches x o]
      exact forall_congr' fun o => imp_congr_right fun ho =>
        anyExpectedMatches_iff hef hes (hof o ho)
  · exact hincludes

theorem judged_setOperator_mismatch {operator : Operator} (hop : operator ∈ collectionOperators)
    {v w e e' : PyValue} (hv : canon v = .ok w) (he : canon e = .ok e')
    (h : ¬ (IsCollection w.norm ∧ IsCollection e'.norm)) (tolerance : Option PyFloat) :
    Judged (pureDispatch operator v e tolerance) .unknown (some .authoring) := by
  simp only [collectionOperators, List.mem_cons, List.not_mem_nil, or_false] at hop
  rcases hop with rfl | rfl | rfl | rfl | rfl <;> exact onCollections_mismatch hv he h _

/-! ## Equality -/

theorem decides_equals {v w e e' : PyValue} (hv : canon v = .ok w) (he : canon e = .ok e')
    (tolerance : Option PyFloat) :
    Decides (pureDispatch .equals v e tolerance) (w.norm = e'.norm) := by
  have hpresent := presentable_pair (a := "observed") (b := "expected") ⟨w, hv⟩ ⟨e', he⟩
  simpa only [pureDispatch, hv, he, ok_bind, PyValue.eq_iff] using
    decides_booleanOutcome hpresent (w.eq e')

theorem decides_notEquals {v w e e' : PyValue} (hv : canon v = .ok w) (he : canon e = .ok e')
    (tolerance : Option PyFloat) :
    Decides (pureDispatch .notEquals v e tolerance) (w.norm ≠ e'.norm) := by
  have hpresent := presentable_pair (a := "observed") (b := "expected") ⟨w, hv⟩ ⟨e', he⟩
  have hdecides := decides_booleanOutcome hpresent (!w.eq e')
  have hiff : ((!w.eq e') = true) ↔ w.norm ≠ e'.norm := by simp
  simpa only [pureDispatch, hv, he, ok_bind] using hdecides.congr hiff

/-! ## Numbers -/

theorem canon_of_asNumber {v : PyValue} {x : PyNum} (h : v.asNumber? = some x) :
    canon v = .ok v := by
  match v, h with
  | .scalar _, _ => rfl

def numericRelation : Operator → Option Relation
  | .lessThan => some .lt
  | .lessThanOrEqual => some .le
  | .greaterThan => some .gt
  | .greaterThanOrEqual => some .ge
  | _ => none

theorem pureDispatch_numeric {operator : Operator} {relation : Relation}
    (hop : numericRelation operator = some relation) (v e : PyValue)
    (tolerance : Option PyFloat) :
    pureDispatch operator v e tolerance = numericCompare v e tolerance relation := by
  cases operator <;> cases hop <;> rfl

/-- The number an operator leaves in its evidence is canonical. -/
theorem canon_numToPy (x : PyNum) : canon (PyNum.toPy x) = .ok (PyNum.toPy x) := by
  cases x <;> rfl

theorem decides_numericCompare {v e : PyValue} {x bound : PyNum} (hx : v.asNumber? = some x)
    (hbound : e.asNumber? = some bound) {relation : Relation} {tolerance : Option PyFloat}
    {b : Bool} (hb : relationHolds relation x bound (toleranceOrZero tolerance) = .ok b) :
    Decides (numericCompare v e tolerance relation) (b = true) := by
  have hpresent : Presentable [("observed", v), ("expected", e),
      ("tolerance", .float (toleranceOrZero tolerance))] := by
    intro item hitem
    simp only [List.mem_cons, List.not_mem_nil, or_false] at hitem
    rcases hitem with rfl | rfl | rfl
    · exact ⟨_, canon_of_asNumber hx⟩
    · exact ⟨_, canon_of_asNumber hbound⟩
    · exact ⟨_, rfl⟩
  simpa only [numericCompare, hx, hbound, hb, ok_bind] using decides_booleanOutcome hpresent b

theorem numericCompare_error {v e : PyValue} {x bound : PyNum} (hx : v.asNumber? = some x)
    (hbound : e.asNumber? = some bound) {relation : Relation} {tolerance : Option PyFloat}
    {err : PyError} (h : relationHolds relation x bound (toleranceOrZero tolerance) = .error err) :
    numericCompare v e tolerance relation = .error err := by
  simp only [numericCompare, hx, hbound, h, error_bind]

theorem judged_numericCompare_mismatch {v w e e' : PyValue} (hv : canon v = .ok w)
    (he : canon e = .ok e') (h : v.asNumber? = none) (relation : Relation)
    (tolerance : Option PyFloat) :
    Judged (numericCompare v e tolerance relation) .unknown (some .authoring) := by
  have hmismatch := judged_unknownTypeMismatch
    (presentable_pair (a := "observed") (b := "expected") ⟨w, hv⟩ ⟨e', he⟩) .authoring
  simpa only [numericCompare, h] using hmismatch

/-- The two bounds of `within_range`, widened by the tolerance. -/
def rangeHolds (x low high : PyNum) (tol : PyFloat) : Except PyError Bool := do
  let lower ← low.subFloat tol
  let upper ← high.addFloat tol
  return lower.le x && x.le upper

theorem decides_withinRange {v e e' : PyValue} {x low high : PyNum} (hx : v.asNumber? = some x)
    (he : canon e = .ok e') (hbounds : rangeBounds? e' = some (low, high))
    {tolerance : Option PyFloat} {b : Bool}
    (hb : rangeHolds x low high (toleranceOrZero tolerance) = .ok b) :
    Decides (withinRange v e tolerance) (b = true) := by
  obtain ⟨lower, hlower, hrest⟩ := bind_eq_ok_iff.mp hb
  obtain ⟨upper, hupper, hpure⟩ := bind_eq_ok_iff.mp hrest
  cases hpure
  have hpresent : Presentable [("observed", v), ("expected", e), ("lower", PyNum.toPy lower),
      ("upper", PyNum.toPy upper), ("tolerance", .float (toleranceOrZero tolerance))] := by
    intro item hitem
    simp only [List.mem_cons, List.not_mem_nil, or_false] at hitem
    rcases hitem with rfl | rfl | rfl | rfl | rfl
    · exact ⟨_, canon_of_asNumber hx⟩
    · exact ⟨_, he⟩
    · exact ⟨_, canon_numToPy lower⟩
    · exact ⟨_, canon_numToPy upper⟩
    · exact ⟨_, rfl⟩
  simpa only [withinRange, hx, he, hbounds, hlower, hupper, ok_bind] using
    decides_booleanOutcome hpresent (lower.le x && x.le upper)

theorem withinRange_error {v e e' : PyValue} {x low high : PyNum} (hx : v.asNumber? = some x)
    (he : canon e = .ok e') (hbounds : rangeBounds? e' = some (low, high))
    {tolerance : Option PyFloat} {err : PyError}
    (h : rangeHolds x low high (toleranceOrZero tolerance) = .error err) :
    withinRange v e tolerance = .error err := by
  simp only [withinRange, hx, he, hbounds, ok_bind]
  rcases bind_eq_error_iff.mp h with h | ⟨lower, hlower, h⟩
  · simp only [h, error_bind]
  · rcases bind_eq_error_iff.mp h with h | ⟨upper, hupper, h⟩
    · simp only [hlower, h, ok_bind, error_bind]
    · cases h

theorem judged_withinRange_mismatch {v w e e' : PyValue} (hv : canon v = .ok w)
    (he : canon e = .ok e') (h : v.asNumber? = none) (tolerance : Option PyFloat) :
    Judged (withinRange v e tolerance) .unknown (some .authoring) := by
  have hmismatch := judged_unknownTypeMismatch
    (presentable_pair (a := "observed") (b := "expected") ⟨w, hv⟩ ⟨e', he⟩) .authoring
  simpa only [withinRange, h] using hmismatch

/-! ## Arithmetic failures -/

theorem addFloat_error {x : PyNum} {t : PyFloat} {e : PyError} (h : x.addFloat t = .error e) :
    e = .overflowError := by
  rcases bind_eq_error_iff.mp h with h | ⟨_, _, h⟩
  · cases x with
    | int i =>
        simp only [PyNum.toFloat] at h
        split at h
        · cases h
        · cases h; rfl
    | float f => cases h
  · cases h

theorem subFloat_error {x : PyNum} {t : PyFloat} {e : PyError} (h : x.subFloat t = .error e) :
    e = .overflowError := by
  rcases bind_eq_error_iff.mp h with h | ⟨_, _, h⟩
  · cases x with
    | int i =>
        simp only [PyNum.toFloat] at h
        split at h
        · cases h
        · cases h; rfl
    | float f => cases h
  · cases h

theorem relationHolds_error {relation : Relation} {x bound : PyNum} {tol : PyFloat} {e : PyError}
    (h : relationHolds relation x bound tol = .error e) : e = .overflowError := by
  cases relation <;> rcases bind_eq_error_iff.mp h with h | ⟨_, _, h⟩
  · exact addFloat_error h
  · cases h
  · exact addFloat_error h
  · cases h
  · exact subFloat_error h
  · cases h
  · exact subFloat_error h
  · cases h

theorem rangeHolds_error {x low high : PyNum} {tol : PyFloat} {e : PyError}
    (h : rangeHolds x low high tol = .error e) : e = .overflowError := by
  rcases bind_eq_error_iff.mp h with h | ⟨_, _, h⟩
  · exact subFloat_error h
  · rcases bind_eq_error_iff.mp h with h | ⟨_, _, h⟩
    · exact addFloat_error h
    · cases h

/-! ## The guarded dispatch -/

theorem Judged.evaluatePureOperator {operator : Operator} {v e : PyValue}
    {tolerance : Option PyFloat} {status : ResultStatus} {cause : Option UnknownCause}
    (h : Judged (pureDispatch operator v e tolerance) status cause) :
    Judged (evaluatePureOperator operator v e tolerance) status cause := by
  obtain ⟨o, ho, hstatus, hcause⟩ := h
  exact ⟨o, by simp only [Operators.evaluatePureOperator, ho, catchTypeError], hstatus, hcause⟩

theorem Decides.evaluatePureOperator {operator : Operator} {v e : PyValue}
    {tolerance : Option PyFloat} {p : Prop}
    (h : Decides (pureDispatch operator v e tolerance) p) :
    Decides (evaluatePureOperator operator v e tolerance) p where
  satisfied hp := (h.satisfied hp).evaluatePureOperator
  violated hp := (h.violated hp).evaluatePureOperator

theorem evaluatePureOperator_equals {operator : Operator} (hop : operator = .equals)
    {v w e e' : PyValue} (hv : canon v = .ok w) (he : canon e = .ok e')
    (tolerance : Option PyFloat) :
    Decides (evaluatePureOperator operator v e tolerance) (w.norm = e'.norm) := by
  rw [hop]
  exact (decides_equals hv he tolerance).evaluatePureOperator

theorem evaluatePureOperator_notEquals {operator : Operator} (hop : operator = .notEquals)
    {v w e e' : PyValue} (hv : canon v = .ok w) (he : canon e = .ok e')
    (tolerance : Option PyFloat) :
    Decides (evaluatePureOperator operator v e tolerance) (w.norm ≠ e'.norm) := by
  rw [hop]
  exact (decides_notEquals hv he tolerance).evaluatePureOperator

/-- A literal that does not canonicalize makes every pure operator raise. -/
theorem evaluatePureOperator_of_canon_error {operator : Operator}
    (hop : operator ∈ pureOperators) {v w e : PyValue} (hv : canon v = .ok w) {err : PyError}
    (he : canon e = .error err) (tolerance : Option PyFloat) :
    evaluatePureOperator operator v e tolerance = .error .typeError := by
  obtain rfl := canon_error e err he
  have hmismatch (cause : UnknownCause) :
      unknownTypeMismatch cause [("observed", v), ("expected", e)] = .error .typeError := by
    have hfront : Presentable [("observed", v)] := by
      intro item hitem
      obtain rfl : item = ("observed", v) := by simpa using hitem
      exact ⟨w, hv⟩
    exact unknownTypeMismatch_error hfront he
  have hcollection (body : List PyValue → List PyValue → Except PyError OperatorOutcome) :
      onCollections v e body = .error .typeError := by
    have hitems : collectionItems e = .error .typeError := by
      simp only [collectionItems, he, error_bind]
    rcases collectionItems_spec hv with ⟨-, hobs⟩ | ⟨-, observed, hobs, -⟩ <;>
      simp only [onCollections, hobs, hitems, ok_bind, error_bind]
  have hnumber : e.asNumber? = none := by
    cases hnum : e.asNumber? with
    | none => rfl
    | some x => rw [canon_of_asNumber hnum] at he; cases he
  have hnumeric (relation : Relation) :
      numericCompare v e tolerance relation = .error .typeError := by
    cases hx : v.asNumber? <;> simp only [numericCompare, hx, hnumber, hmismatch]
  have hrange : withinRange v e tolerance = .error .typeError := by
    cases hx : v.asNumber? <;> simp only [withinRange, hx, he, error_bind, hmismatch]
  have hdispatch : pureDispatch operator v e tolerance = .error .typeError := by
    simp only [pureOperators, List.mem_cons, List.not_mem_nil, or_false] at hop
    rcases hop with rfl | rfl | rfl | rfl | rfl | rfl | rfl | rfl | rfl | rfl | rfl | rfl
    · simp only [pureDispatch, hv, he, ok_bind, error_bind]
    · simp only [pureDispatch, hv, he, ok_bind, error_bind]
    · exact hcollection _
    · exact hcollection _
    · exact hcollection _
    · exact hcollection _
    · exact hcollection _
    · exact hnumeric _
    · exact hnumeric _
    · exact hnumeric _
    · exact hnumeric _
    · exact hrange
  simp only [evaluatePureOperator, hdispatch, catchTypeError, hmismatch]

/-! ## Baseline operators -/

theorem Judged.evaluateBaselineOperator {operator : Operator} {b c : PyValue}
    {status : ResultStatus} {cause : Option UnknownCause}
    (h : Judged (baselineDispatch operator b c) status cause) :
    Judged (evaluateBaselineOperator operator b c) status cause := by
  obtain ⟨o, ho, hstatus, hcause⟩ := h
  exact ⟨o, by simp only [Operators.evaluateBaselineOperator, ho, catchTypeError], hstatus, hcause⟩

theorem Decides.evaluateBaselineOperator {operator : Operator} {b c : PyValue} {p : Prop}
    (h : Decides (baselineDispatch operator b c) p) :
    Decides (evaluateBaselineOperator operator b c) p where
  satisfied hp := (h.satisfied hp).evaluateBaselineOperator
  violated hp := (h.violated hp).evaluateBaselineOperator

/-- The three baseline operators that compare collections. -/
def baselineSetOperators : List Operator := [.supersetOfBaseline, .noNewItems, .noRemovedItems]

/-- What the baseline operators ask of the two normal forms. -/
def BaselineHolds (operator : Operator) (baseline candidate : Norm) : Prop :=
  match operator with
  | .equalsBaseline | .unchanged => candidate = baseline
  | .notEqualsBaseline | .changed => candidate ≠ baseline
  | .noNewItems => ∀ n ∈ Members candidate, n ∈ Members baseline
  | .supersetOfBaseline | .noRemovedItems => ∀ n ∈ Members baseline, n ∈ Members candidate
  | _ => False

theorem elem_iff_of_shows {items : List PyValue} {s : Set Norm} (h : Shows items s)
    (x : PyValue) : x.elem items = true ↔ x.norm ∈ s := by
  rw [PyValue.elem_iff, ← h]
  exact exists_congr fun y => and_congr_right fun _ => eq_comm

theorem filter_not_elem_eq_nil_iff {xs ys : List PyValue} {s t : Set Norm} (hs : Shows xs s)
    (ht : Shows ys t) :
    (xs.filter fun item => !item.elem ys) = [] ↔ ∀ n ∈ s, n ∈ t := by
  rw [← hs.forall_iff, List.filter_eq_nil_iff]
  refine forall_congr' fun x => imp_congr_right fun _ => ?_
  rw [Bool.not_eq_true', Bool.not_eq_false, elem_iff_of_shows ht]

/-- A baseline operator on two collections, or any of the four equality operators on any two
values, decides its relation. -/
theorem decides_baselineOperator {operator : Operator} (hop : operator ∈ baselineOperators)
    {b b' c c' : PyValue} (hb : canon b = .ok b') (hc : canon c = .ok c')
    (hshape : operator ∈ baselineSetOperators → IsCollection b'.norm ∧ IsCollection c'.norm) :
    Decides (baselineDispatch operator b c) (BaselineHolds operator b'.norm c'.norm) := by
  have hboolean (satisfied : Bool) :
      Decides (baselineBooleanOutcome satisfied b c) (satisfied = true) :=
    decides_booleanOutcome (presentable_pair ⟨b', hb⟩ ⟨c', hc⟩) satisfied
  have hequals : Decides (equalsBaseline b c) (c'.norm = b'.norm) := by
    by_cases heq : c'.norm = b'.norm
    · have htrue : equalsBaseline b c = baselineBooleanOutcome true b c := by
        simp [equalsBaseline, hb, hc, heq]
      rw [htrue]
      exact (hboolean true).congr (by simp [heq])
    · have hfalse : c'.eq b' = false := by simp [heq]
      have hscalar := (hboolean false).congr (q := c'.norm = b'.norm) (by simp [heq])
      simp only [equalsBaseline, hb, hc, ok_bind, hfalse, Bool.false_eq_true, if_false]
      rcases collectionItems_spec hb with ⟨-, hbi⟩ | ⟨-, bs, hbi, hbfree, -⟩
      · rcases collectionItems_spec hc with ⟨-, hci⟩ | ⟨-, cs, hci, -⟩ <;>
          simpa only [hbi, hci, ok_bind] using hscalar
      · rcases collectionItems_spec hc with ⟨-, hci⟩ | ⟨-, cs, hci, hcfree, -⟩
        · simpa only [hbi, hci, ok_bind] using hscalar
        · simp only [hbi, hci, ok_bind]
          refine (decides_setOutcome hbfree hcfree ?_ false).congr (by simp [heq])
          simp only [List.mem_cons, List.not_mem_nil, or_false, forall_eq_or_imp, forall_eq]
          exact ⟨fun x hx => hcfree x (List.mem_filter.mp hx).1,
            fun x hx => hbfree x (List.mem_filter.mp hx).1⟩
  have hdiffers : Decides (baselineDispatch .changed b c) (c'.norm ≠ b'.norm) := by
    simpa only [baselineDispatch, hb, hc, ok_bind] using
      (hboolean (!c'.eq b')).congr (q := c'.norm ≠ b'.norm) (by simp)
  have hset (detail : String) (offending : List PyValue → List PyValue → List PyValue)
      {p : Prop} (hcoll : IsCollection b'.norm ∧ IsCollection c'.norm)
      (hsub : ∀ bs cs, offending bs cs ⊆ bs ++ cs)
      (hp : ∀ bs cs, Shows bs (Members b'.norm) → Shows cs (Members c'.norm) →
        (offending bs cs = [] ↔ p)) :
      Decides (onBaselineCollections b c detail offending) p := by
    rcases collectionItems_spec hb with ⟨hno, -⟩ | ⟨-, bs, hbi, hbfree, hbs⟩
    · exact absurd hcoll.1 hno
    · rcases collectionItems_spec hc with ⟨hno, -⟩ | ⟨-, cs, hci, hcfree, hcs⟩
      · exact absurd hcoll.2 hno
      · simp only [onBaselineCollections, hbi, hci, ok_bind]
        refine (decides_setOutcome hbfree hcfree ?_ _).congr ?_
        · simp only [List.mem_singleton, forall_eq]
          intro x hx
          rcases List.mem_append.mp (hsub bs cs hx) with hx | hx
          · exact hbfree x hx
          · exact hcfree x hx
        · rw [List.isEmpty_iff, hp bs cs hbs hcs]
  have hmissing (hcoll : IsCollection b'.norm ∧ IsCollection c'.norm) :
      Decides (baselineSupersetOf b c) (∀ n ∈ Members b'.norm, n ∈ Members c'.norm) := by
    refine hset _ _ hcoll (fun bs cs x hx => ?_) fun bs cs hbs hcs => ?_
    · exact List.mem_append_left _ (List.mem_filter.mp hx).1
    · exact filter_not_elem_eq_nil_iff hbs hcs
  simp only [baselineOperators, List.mem_cons, List.not_mem_nil, or_false] at hop
  rcases hop with rfl | rfl | rfl | rfl | rfl | rfl | rfl
  · exact hequals
  · exact hdiffers
  · exact hmissing (hshape (by decide))
  · refine hset _ _ (hshape (by decide)) (fun bs cs x hx => ?_) fun bs cs hbs hcs => ?_
    · exact List.mem_append_right _ (List.mem_filter.mp hx).1
    · exact filter_not_elem_eq_nil_iff hcs hbs
  · exact hmissing (hshape (by decide))
  · exact hequals
  · exact hdiffers

theorem judged_baselineSetOperator_mismatch {operator : Operator}
    (hop : operator ∈ baselineSetOperators) {b b' c c' : PyValue} (hb : canon b = .ok b')
    (hc : canon c = .ok c') (h : ¬ (IsCollection b'.norm ∧ IsCollection c'.norm)) :
    Judged (baselineDispatch operator b c) .unknown (some .authoring) := by
  have hmismatch := judged_unknownTypeMismatch
    (presentable_pair (a := "baseline") (b := "candidate") ⟨b', hb⟩ ⟨c', hc⟩) .authoring
  have hset (detail : String) (offending : List PyValue → List PyValue → List PyValue) :
      Judged (onBaselineCollections b c detail offending) .unknown (some .authoring) := by
    rcases collectionItems_spec hb with ⟨-, hbi⟩ | ⟨hbc, bs, hbi, -⟩
    · rcases collectionItems_spec hc with ⟨-, hci⟩ | ⟨-, cs, hci, -⟩ <;>
        simpa only [onBaselineCollections, hbi, hci, ok_bind] using hmismatch
    · rcases collectionItems_spec hc with ⟨-, hci⟩ | ⟨hcc, -⟩
      · simpa only [onBaselineCollections, hbi, hci, ok_bind] using hmismatch
      · exact absurd ⟨hbc, hcc⟩ h
  simp only [baselineSetOperators, List.mem_cons, List.not_mem_nil, or_false] at hop
  rcases hop with rfl | rfl | rfl <;> exact hset _ _

end SemanticCi.Operators
