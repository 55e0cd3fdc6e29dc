import SemanticCi.Verification.Repair.Encoding

/-! The evidence that an operator leaves on JSON data: its operands as they are, or, when it
compares collections, their items. -/

namespace SemanticCi.Repair

open SemanticCi.Python SemanticCi.Framework SemanticCi.Matching SemanticCi.Operators ExceptRules

/-! ## Evidence -/

theorem mem_zip_forall₂ {α β γ : Type*} {R : β → γ → Prop} {ks : List α} {xs : List β}
    {ys : List γ} (h : List.Forall₂ R xs ys) (hlength : ks.length = xs.length) {k : α} {y : γ}
    (hmem : (k, y) ∈ ks.zip ys) : ∃ x, (k, x) ∈ ks.zip xs ∧ R x y := by
  induction h generalizing ks with
  | nil => simp at hmem
  | @cons x y' xs ys hxy h ih =>
      cases ks with
      | nil => simp at hmem
      | cons k' ks =>
          simp only [List.zip_cons_cons, List.mem_cons, Prod.mk.injEq] at hmem ⊢
          rcases hmem with ⟨rfl, rfl⟩ | hmem
          · exact ⟨x, .inl ⟨rfl, rfl⟩, hxy⟩
          · obtain ⟨z, hz, hzy⟩ := ih (by simpa using hlength) hmem
            exact ⟨z, .inr hz, hzy⟩

/-- Evidence keeps its keys and canonicalizes its values. -/
theorem evidence_spec {items ev : Evidence} (h : evidence items = .ok ev) :
    (ev.map Prod.fst).Perm (items.map Prod.fst) ∧
      ∀ item ∈ ev, ∃ v, (item.1, v) ∈ items ∧ canon v = .ok item.2 := by
  obtain ⟨values, hvalues, hev⟩ := bind_eq_ok_iff.mp h
  cases hev
  have hrel := (canonList_eq_ok_iff _ _).mp hvalues
  have hlength : (items.map Prod.fst).length = values.length := by
    rw [← hrel.length_eq, List.length_map, List.length_map]
  have hperm := List.perm_insertionSort (fun a b : String × PyValue => a.1 ≤ b.1)
    ((items.map Prod.fst).zip values)
  constructor
  · refine (hperm.map Prod.fst).trans ?_
    rw [List.map_fst_zip (le_of_eq hlength)]
  · intro item hitem
    obtain ⟨v, hv, hcanon⟩ := mem_zip_forall₂ hrel (by simp) (hperm.mem_iff.mp hitem)
    rw [List.zip_map', List.map_id'] at hv
    exact ⟨v, by simpa using hv, hcanon⟩

theorem mem_evidence_of_mem {items ev : Evidence} (h : evidence items = .ok ev)
    (hnodup : (items.map Prod.fst).Nodup) {key : String} {v w : PyValue}
    (hmem : (key, v) ∈ items) (hcanon : canon v = .ok w) : (key, w) ∈ ev := by
  obtain ⟨hkeys, hvalues⟩ := evidence_spec h
  have hkey : key ∈ ev.map Prod.fst := hkeys.mem_iff.mpr (List.mem_map.mpr ⟨_, hmem, rfl⟩)
  obtain ⟨item, hitem, rfl⟩ := List.mem_map.mp hkey
  obtain ⟨v', hv', hcanon'⟩ := hvalues item hitem
  have hsame := List.inj_on_of_nodup_map hnodup hv' hmem rfl
  have hvalue : v' = v := congrArg Prod.snd hsame
  rw [hvalue, hcanon] at hcanon'
  rw [Except.ok.inj hcanon']
  exact hitem

/-- Under which keys an operator shows its operands. -/
def operandNames (operator : Operator) : String × String :=
  if operator ∈ baselineOperators then ("baseline", "candidate") else ("observed", "expected")

/-- The keys of what a set operator found. -/
def detailKeys : List String := ["missing", "extra", "added", "removed", "common", "matched"]

/-- The evidence shows the operands as they are, and at most some numbers. -/
structure RawEvidence (names : String × String) (wx wy : PyValue) (ev : Evidence) : Prop where
  nodup : (ev.map Prod.fst).Nodup
  items : ∀ item ∈ ev, item = (names.1, wx) ∨ item = (names.2, wy) ∨
    (item.1 ∈ ["tolerance", "lower", "upper"] ∧ ∃ s, item.2 = .scalar s)

/-- An expected item with an observed record that it matches. -/
def matchedPair (e o : PyValue) : PyValue :=
  .seq .canonicalMapping [.tuple [.str "expected_item", e], .tuple [.str "observed_record", o]]

/-- The evidence shows the items of both operands, and some of them as a detail. -/
structure SetEvidence (names : String × String) (ls rs : List PyValue) (ev : Evidence) :
    Prop where
  nodup : (ev.map Prod.fst).Nodup
  left : (names.1, .tuple (sortedValues ls)) ∈ ev
  right : (names.2, .tuple (sortedValues rs)) ∈ ev
  items : ∀ item ∈ ev, item = (names.1, .tuple (sortedValues ls)) ∨
    item = (names.2, .tuple (sortedValues rs)) ∨
    (item.1 ∈ detailKeys ∧ ∃ ds, item.2 = .tuple (sortedValues ds) ∧
      ∀ d ∈ ds, d ∈ ls ∨ d ∈ rs ∨ ∃ e ∈ rs, ∃ o ∈ ls, d = matchedPair e o)

section Raw

variable {names : String × String} {v e wx wy : PyValue}

theorem rawEvidence_of_items {items ev : Evidence} (hv : canon v = .ok wx) (he : canon e = .ok wy)
    (hnodup : (items.map Prod.fst).Nodup)
    (hitems : ∀ item ∈ items, item = (names.1, v) ∨ item = (names.2, e) ∨
      (item.1 ∈ ["tolerance", "lower", "upper"] ∧ ∃ s, item.2 = .scalar s))
    (h : evidence items = .ok ev) : RawEvidence names wx wy ev := by
  obtain ⟨hkeys, hvalues⟩ := evidence_spec h
  refine ⟨hkeys.nodup_iff.mpr hnodup, fun item hitem => ?_⟩
  obtain ⟨u, hu, hcanon⟩ := hvalues item hitem
  rcases hitems _ hu with heq | heq | ⟨hkey, s, hs⟩
  · obtain ⟨hkey, rfl⟩ := Prod.mk.inj heq
    rw [hv] at hcanon
    exact .inl (Prod.ext hkey (Except.ok.inj hcanon).symm)
  · obtain ⟨hkey, rfl⟩ := Prod.mk.inj heq
    rw [he] at hcanon
    exact .inr (.inl (Prod.ext hkey (Except.ok.inj hcanon).symm))
  · obtain rfl : u = .scalar s := hs
    exact .inr (.inr ⟨hkey, s, (Except.ok.inj hcanon).symm⟩)

theorem rawEvidence_pair {ev : Evidence} (hv : canon v = .ok wx) (he : canon e = .ok wy)
    (hne : names.1 ≠ names.2) (h : evidence [(names.1, v), (names.2, e)] = .ok ev) :
    RawEvidence names wx wy ev :=
  rawEvidence_of_items hv he (by simpa using hne) (by simp) h

theorem rawEvidence_unknown {cause : UnknownCause} {o : OperatorOutcome} (hv : canon v = .ok wx)
    (he : canon e = .ok wy) (hne : names.1 ≠ names.2)
    (h : unknownTypeMismatch cause [(names.1, v), (names.2, e)] = .ok o) :
    RawEvidence names wx wy o.evidence := by
  obtain ⟨ev, hev, ho⟩ := bind_eq_ok_iff.mp h
  cases ho
  exact rawEvidence_pair hv he hne hev

theorem evidence_of_booleanOutcome {b : Bool} {items : Evidence} {o : OperatorOutcome}
    (h : booleanOutcome b items = .ok o) : evidence items = .ok o.evidence := by
  obtain ⟨ev, hev, ho⟩ := bind_eq_ok_iff.mp h
  cases ho
  exact hev

end Raw

/-! ## Collections -/

/-- The items of a canonical value that is a collection. -/
def itemsOf (w : PyValue) : Option (List PyValue) :=
  (collectionMembers w).map fun members => sortedValues (dedupValues members)

theorem collectionItems_eq {v w : PyValue} (h : canon v = .ok w) :
    collectionItems v = .ok (itemsOf w) := by
  rw [collectionItems, h]
  rfl

theorem encoded_items {w : PyValue} (h : Encoded w) {items : List PyValue}
    (hitems : itemsOf w = some items) : ∀ x ∈ items, Encoded x := by
  obtain ⟨members, hmembers, rfl⟩ := Option.map_eq_some_iff.mp hitems
  intro x hx
  rw [sortedValues, List.mem_insertionSort] at hx
  exact h.members hmembers x (dedupValues_subset _ hx)

theorem encoded_sortedValues {items : List PyValue} (h : ∀ x ∈ items, Encoded x) :
    Encoded (.tuple (sortedValues items)) := by
  refine .tuple fun x hx => h x ?_
  rwa [sortedValues, List.mem_insertionSort] at hx

theorem encoded_matchedPair {e o : PyValue} (he : Encoded e) (ho : Encoded o) :
    Encoded (matchedPair e o) := by
  have hpair : matchedPair e o = .seq .canonicalMapping
      ([("expected_item", e), ("observed_record", o)].map fieldTuple) := rfl
  rw [hpair]
  refine .mapping (by simp only [List.map_cons, List.map_nil]; decide) ?_
  simp [he, ho]

/-- A set outcome shows the items it was given. -/
theorem setOutcome_spec (names : String × String) (detail : List (String × List PyValue))
    {ls rs : List PyValue} (hls : ∀ x ∈ ls, Encoded x)
    (hrs : ∀ x ∈ rs, Encoded x)
    (hnodup : (names.1 :: names.2 :: detail.map Prod.fst).Nodup)
    (hdetail : ∀ d ∈ detail, d.1 ∈ detailKeys ∧
      ∀ x ∈ d.2, x ∈ ls ∨ x ∈ rs ∨ ∃ e ∈ rs, ∃ o ∈ ls, x = matchedPair e o) (b : Bool) :
    ∃ o, setOutcome b (names.1, ls) (names.2, rs) detail = .ok o ∧
      o.status = (if b then .satisfied else .violated) ∧ SetEvidence names ls rs o.evidence := by
  let entry := fun item : String × List PyValue => (item.1, PyValue.tuple (sortedValues item.2))
  let items := entry (names.1, ls) :: entry (names.2, rs) ::
    (detail.filter fun item => !item.2.isEmpty).map entry
  have hencodedDetail : ∀ d ∈ detail, ∀ x ∈ d.2, Encoded x := by
    intro d hd x hx
    rcases (hdetail d hd).2 x hx with h | h | ⟨e, he, o, ho, rfl⟩
    · exact hls x h
    · exact hrs x h
    · exact encoded_matchedPair (hrs e he) (hls o ho)
  have hfixed : ∀ item ∈ items, canon item.2 = .ok item.2 := by
    intro item hitem
    simp only [items, List.mem_cons, List.mem_map, List.mem_filter] at hitem
    rcases hitem with rfl | rfl | ⟨d, ⟨hd, -⟩, rfl⟩
    · exact (encoded_sortedValues hls).canon_eq
    · exact (encoded_sortedValues hrs).canon_eq
    · exact (encoded_sortedValues (hencodedDetail d hd)).canon_eq
  have hkeys : (items.map Prod.fst).Nodup := by
    have hsub : (items.map Prod.fst).Sublist (names.1 :: names.2 :: detail.map Prod.fst) := by
      simp only [items, entry, List.map_cons, List.map_map, Function.comp_def]
      exact ((List.filter_sublist.map _).cons_cons _).cons_cons _
    exact hsub.nodup hnodup
  obtain ⟨ev, hev⟩ := evidence_isOk fun item hitem => ⟨_, hfixed item hitem⟩
  have hok : setOutcome b (names.1, ls) (names.2, rs) detail =
      .ok ⟨if b then .satisfied else .violated, if b then none else some .violation, ev, none⟩ := by
    rw [setOutcome, booleanOutcome, hev]
    rfl
  refine ⟨_, hok, rfl, ?_⟩
  obtain ⟨hperm, hvalues⟩ := evidence_spec hev
  refine ⟨hperm.nodup_iff.mpr hkeys, ?_, ?_, fun item hitem => ?_⟩
  · exact mem_evidence_of_mem hev hkeys (List.mem_cons_self ..)
      (encoded_sortedValues hls).canon_eq
  · exact mem_evidence_of_mem hev hkeys (List.mem_cons_of_mem _ (List.mem_cons_self ..))
      (encoded_sortedValues hrs).canon_eq
  · obtain ⟨v, hv, hcanon⟩ := hvalues item hitem
    rw [hfixed _ hv] at hcanon
    obtain rfl : v = item.2 := Except.ok.inj hcanon
    have hmem : item ∈ items := hv
    simp only [items, List.mem_cons, List.mem_map, List.mem_filter] at hmem
    rcases hmem with rfl | rfl | ⟨d, ⟨hd, -⟩, rfl⟩
    · exact .inl rfl
    · exact .inr (.inl rfl)
    · exact .inr (.inr ⟨(hdetail d hd).1, d.2, rfl, (hdetail d hd).2⟩)

/-! ## The operators -/

/-- The operators that compare two collections by their items. -/
def setOperators : List Operator :=
  collectionOperators ++
    [.equalsBaseline, .unchanged, .supersetOfBaseline, .noNewItems, .noRemovedItems]

section Operators

variable {operator : Operator} {v e wx wy : PyValue} {tolerance : Option PyFloat}
  {outcome : OperatorOutcome}

/-- What a set operator finds are items of its operands, or pairs of them. -/
theorem onCollections_spec (hv : canon v = .ok wx) (he : canon e = .ok wy) {ls rs : List PyValue}
    (hls : itemsOf wx = some ls) (hrs : itemsOf wy = some rs)
    (body : List PyValue → List PyValue → Except PyError OperatorOutcome) :
    onCollections v e body = body ls rs := by
  simp only [onCollections, collectionItems_eq hv, collectionItems_eq he, hls, hrs, ok_bind]

theorem onCollections_raw (hv : canon v = .ok wx) (he : canon e = .ok wy)
    (hnone : ¬ ((itemsOf wx).isSome ∧ (itemsOf wy).isSome))
    (body : List PyValue → List PyValue → Except PyError OperatorOutcome) :
    onCollections v e body =
      unknownTypeMismatch .authoring [("observed", v), ("expected", e)] := by
  simp only [onCollections, collectionItems_eq hv, collectionItems_eq he, ok_bind]
  cases hls : itemsOf wx with
  | none => rfl
  | some ls =>
      cases hrs : itemsOf wy with
      | none => rfl
      | some rs => exact absurd ⟨by simp [hls], by simp [hrs]⟩ hnone

theorem mem_matchedPairs {es os : List PyValue} {x : PyValue} (hx : x ∈ matchedPairs es os) :
    ∃ e ∈ es, ∃ o ∈ os, x = matchedPair e o := by
  rw [matchedPairs, sortedValues, List.mem_insertionSort] at hx
  have hpair := dedupValues_subset _ hx
  simp only [List.mem_flatMap, List.mem_map, List.mem_filter] at hpair
  obtain ⟨e, he, o, ⟨ho, -⟩, rfl⟩ := hpair
  exact ⟨e, he, o, ho, rfl⟩

/-- A pure set operator on two collections. -/
theorem pureDispatch_set (tolerance : Option PyFloat) (hop : operator ∈ collectionOperators) (hv : canon v = .ok wx)
    (he : canon e = .ok wy) (hx : Encoded wx) (hy : Encoded wy) {ls rs : List PyValue}
    (hls : itemsOf wx = some ls) (hrs : itemsOf wy = some rs) :
    ∃ o, pureDispatch operator v e tolerance = .ok o ∧
      SetEvidence ("observed", "expected") ls rs o.evidence := by
  have hspec (key : String) (items : List PyValue) (b : Bool)
      (hkey : key ∈ ["missing", "common", "matched", "extra"])
      (hitems : ∀ x ∈ items, x ∈ ls ∨ x ∈ rs ∨ ∃ e ∈ rs, ∃ o ∈ ls, x = matchedPair e o) :
      ∃ o, setOutcome b ("observed", ls) ("expected", rs) [(key, items)] = .ok o ∧
        SetEvidence ("observed", "expected") ls rs o.evidence := by
    obtain ⟨o, ho, -, hset⟩ := setOutcome_spec ("observed", "expected")
      [(key, items)] (encoded_items hx hls) (encoded_items hy hrs)
      (by simp only [List.mem_cons, List.not_mem_nil, or_false] at hkey
          rcases hkey with rfl | rfl | rfl | rfl <;> simp)
      (by simp only [List.mem_cons, List.not_mem_nil, or_false] at hkey
          rcases hkey with rfl | rfl | rfl | rfl <;> simpa [detailKeys] using hitems) b
    exact ⟨o, ho, hset⟩
  have hincludes : ∃ o, includesAll v e = .ok o ∧
      SetEvidence ("observed", "expected") ls rs o.evidence := by
    rw [includesAll, onCollections_spec hv he hls hrs]
    exact hspec _ _ _ (by simp) fun x hx => .inr (.inl (List.mem_of_mem_filter hx))
  simp only [collectionOperators, List.mem_cons, List.not_mem_nil, or_false] at hop
  rcases hop with rfl | rfl | rfl | rfl | rfl
  · exact hincludes
  · rw [pureDispatch, includesAny, onCollections_spec hv he hls hrs]
    exact hspec _ _ _ (by simp) fun x hx => .inr (.inl (List.mem_of_mem_filter hx))
  · rw [pureDispatch, excludesAll, onCollections_spec hv he hls hrs]
    exact hspec _ _ _ (by simp) fun x hx => .inr (.inr (mem_matchedPairs hx))
  · rw [pureDispatch, subsetOf, onCollections_spec hv he hls hrs]
    exact hspec _ _ _ (by simp) fun x hx => .inl (List.mem_of_mem_filter hx)
  · exact hincludes

theorem numericCompare_raw {relation : Relation} (hv : canon v = .ok wx) (he : canon e = .ok wy)
    (h : numericCompare v e tolerance relation = .ok outcome) :
    RawEvidence ("observed", "expected") wx wy outcome.evidence := by
  rw [numericCompare] at h
  split at h
  · obtain ⟨satisfied, -, h⟩ := bind_eq_ok_iff.mp h
    exact rawEvidence_of_items hv he (by simp) (by simp) (evidence_of_booleanOutcome h)
  · exact rawEvidence_unknown hv he (by simp) h

theorem withinRange_raw (hv : canon v = .ok wx) (he : canon e = .ok wy)
    (h : withinRange v e tolerance = .ok outcome) :
    RawEvidence ("observed", "expected") wx wy outcome.evidence := by
  have hnumber : ∀ x : PyNum, ∃ s, PyNum.toPy x = .scalar s := by
    intro x
    cases x <;> exact ⟨_, rfl⟩
  rw [withinRange] at h
  split at h
  · exact rawEvidence_unknown hv he (by simp) h
  · rw [he, ok_bind] at h
    split at h
    · exact rawEvidence_unknown hv he (by simp) h
    · obtain ⟨low, -, h⟩ := bind_eq_ok_iff.mp h
      obtain ⟨high, -, h⟩ := bind_eq_ok_iff.mp h
      exact rawEvidence_of_items hv he (by simp) (by simp [hnumber])
        (evidence_of_booleanOutcome h)

/-- Every other outcome of a pure operator. -/
theorem pureDispatch_raw (hv : canon v = .ok wx) (he : canon e = .ok wy)
    (hnot : ¬ (operator ∈ collectionOperators ∧ (itemsOf wx).isSome ∧ (itemsOf wy).isSome))
    (h : pureDispatch operator v e tolerance = .ok outcome) :
    RawEvidence ("observed", "expected") wx wy outcome.evidence := by
  have hset (hop : operator ∈ collectionOperators)
      {body : List PyValue → List PyValue → Except PyError OperatorOutcome}
      (h : onCollections v e body = .ok outcome) :
      RawEvidence ("observed", "expected") wx wy outcome.evidence := by
    rw [onCollections_raw hv he fun hsome => hnot ⟨hop, hsome⟩] at h
    exact rawEvidence_unknown hv he (by simp) h
  have hnone (h : unknownTypeMismatch .evaluatorInternal [] = .ok outcome) :
      RawEvidence ("observed", "expected") wx wy outcome.evidence := by
    cases h
    exact ⟨by simp, by simp⟩
  cases operator <;> rw [pureDispatch] at h
  case equals | notEquals =>
    rw [hv, he] at h
    exact rawEvidence_pair hv he (by simp) (evidence_of_booleanOutcome h)
  case includesAll | includesAny | excludesAll | subsetOf | supersetOf =>
    exact hset (by simp [collectionOperators]) h
  case lessThan | lessThanOrEqual | greaterThan | greaterThanOrEqual =>
    exact numericCompare_raw hv he h
  case withinRange => exact withinRange_raw hv he h
  all_goals first | exact hnone h | simp

theorem pure_evidence (hv : canon v = .ok wx) (he : canon e = .ok wy) (hx : Encoded wx)
    (hy : Encoded wy) (h : evaluatePureOperator operator v e tolerance = .ok outcome) :
    (∃ ls rs, operator ∈ collectionOperators ∧ itemsOf wx = some ls ∧ itemsOf wy = some rs ∧
      SetEvidence ("observed", "expected") ls rs outcome.evidence) ∨
    (¬ (operator ∈ collectionOperators ∧ (itemsOf wx).isSome ∧ (itemsOf wy).isSome) ∧
      RawEvidence ("observed", "expected") wx wy outcome.evidence) := by
  by_cases hset : operator ∈ collectionOperators ∧ (itemsOf wx).isSome ∧ (itemsOf wy).isSome
  · obtain ⟨hop, hls, hrs⟩ := hset
    obtain ⟨ls, hls⟩ := Option.isSome_iff_exists.mp hls
    obtain ⟨rs, hrs⟩ := Option.isSome_iff_exists.mp hrs
    obtain ⟨o, ho, hevidence⟩ := pureDispatch_set tolerance hop hv he hx hy hls hrs
    rw [evaluatePureOperator, ho] at h
    cases h
    exact .inl ⟨ls, rs, hop, hls, hrs, hevidence⟩
  · refine .inr ⟨hset, ?_⟩
    cases hdispatch : pureDispatch operator v e tolerance with
    | ok o =>
        rw [evaluatePureOperator, hdispatch] at h
        cases h
        exact pureDispatch_raw hv he hset hdispatch
    | error error =>
        rw [evaluatePureOperator, hdispatch] at h
        cases error with
        | typeError => exact rawEvidence_unknown hv he (by simp) h
        | _ => cases h

/-! ### Against the baseline -/

theorem baselineSetOutcome {ls rs : List PyValue} (hls : ∀ x ∈ ls, Encoded x)
    (hrs : ∀ x ∈ rs, Encoded x) (detail : List (String × List PyValue))
    (hkeys : ("baseline" :: "candidate" :: detail.map Prod.fst).Nodup)
    (hdetail : ∀ d ∈ detail, d.1 ∈ detailKeys ∧ ∀ x ∈ d.2, x ∈ ls ∨ x ∈ rs) (b : Bool) :
    ∃ o, setOutcome b ("baseline", ls) ("candidate", rs) detail = .ok o ∧
      SetEvidence ("baseline", "candidate") ls rs o.evidence := by
  obtain ⟨o, ho, -, hset⟩ := setOutcome_spec ("baseline", "candidate") detail hls hrs hkeys
    (fun d hd => ⟨(hdetail d hd).1, fun x hx =>
      ((hdetail d hd).2 x hx).elim .inl fun h => .inr (.inl h)⟩) b
  exact ⟨o, ho, hset⟩

theorem onBaselineCollections_set (hv : canon v = .ok wx) (he : canon e = .ok wy)
    (hx : Encoded wx) (hy : Encoded wy) {ls rs : List PyValue} (hls : itemsOf wx = some ls)
    (hrs : itemsOf wy = some rs) {key : String} (hkey : key ∈ ["missing", "extra"])
    {offending : List PyValue → List PyValue → List PyValue}
    (hoffending : ∀ x ∈ offending ls rs, x ∈ ls ∨ x ∈ rs) :
    ∃ o, onBaselineCollections v e key offending = .ok o ∧
      SetEvidence ("baseline", "candidate") ls rs o.evidence := by
  simp only [onBaselineCollections, collectionItems_eq hv, collectionItems_eq he, hls, hrs,
    ok_bind]
  simp only [List.mem_cons, List.not_mem_nil, or_false] at hkey
  apply baselineSetOutcome (encoded_items hx hls) (encoded_items hy hrs)
  · rcases hkey with rfl | rfl <;> simp
  · rcases hkey with rfl | rfl <;> simpa [detailKeys] using hoffending

/-- A set operator against the baseline, on two collections. -/
theorem baselineDispatch_set (hop : operator ∈ setOperators) (hbaseline : operator ∈ baselineOperators)
    (hv : canon v = .ok wx) (he : canon e = .ok wy) (hx : Encoded wx) (hy : Encoded wy)
    {ls rs : List PyValue} (hls : itemsOf wx = some ls) (hrs : itemsOf wy = some rs) :
    ∃ o, baselineDispatch operator v e = .ok o ∧
      (SetEvidence ("baseline", "candidate") ls rs o.evidence ∨
        (o.status = .satisfied ∧ RawEvidence ("baseline", "candidate") wx wy o.evidence)) := by
  have hequals : ∃ o, Operators.equalsBaseline v e = .ok o ∧
      (SetEvidence ("baseline", "candidate") ls rs o.evidence ∨
        (o.status = .satisfied ∧ RawEvidence ("baseline", "candidate") wx wy o.evidence)) := by
    simp only [Operators.equalsBaseline, hv, he, ok_bind]
    by_cases heq : wy.eq wx = true
    · rw [if_pos heq]
      obtain ⟨ev, hev⟩ := evidence_isOk (presentable_pair (a := "baseline") (b := "candidate")
        ⟨wx, hv⟩ ⟨wy, he⟩)
      refine ⟨⟨.satisfied, none, ev, none⟩, ?_, .inr ⟨rfl, ?_⟩⟩
      · rw [baselineBooleanOutcome, booleanOutcome, hev]
        rfl
      · exact rawEvidence_pair hv he (by simp) hev
    · rw [if_neg heq]
      simp only [collectionItems_eq hv, collectionItems_eq he, hls, hrs, ok_bind]
      obtain ⟨o, ho, hset⟩ := baselineSetOutcome (encoded_items hx hls) (encoded_items hy hrs)
        [("added", rs.filter fun item => !item.elem ls),
          ("removed", ls.filter fun item => !item.elem rs)] (by simp)
        (by
          simp only [List.forall_mem_cons, List.mem_filter]
          exact ⟨⟨by simp [detailKeys], fun x hx => .inr hx.1⟩,
            ⟨by simp [detailKeys], fun x hx => .inl hx.1⟩, by simp⟩) false
      exact ⟨o, ho, .inl hset⟩
  have hset {key : String} (hkey : key ∈ ["missing", "extra"])
      {offending : List PyValue → List PyValue → List PyValue}
      (hoffending : ∀ x ∈ offending ls rs, x ∈ ls ∨ x ∈ rs) :
      ∃ o, onBaselineCollections v e key offending = .ok o ∧
        (SetEvidence ("baseline", "candidate") ls rs o.evidence ∨
          (o.status = .satisfied ∧ RawEvidence ("baseline", "candidate") wx wy o.evidence)) := by
    obtain ⟨o, ho, hevidence⟩ := onBaselineCollections_set hv he hx hy hls hrs hkey hoffending
    exact ⟨o, ho, .inl hevidence⟩
  cases operator <;> rw [baselineDispatch]
  case equalsBaseline | unchanged => exact hequals
  case supersetOfBaseline | noRemovedItems =>
    exact hset (by simp) fun x hx => .inl (List.mem_of_mem_filter hx)
  case noNewItems => exact hset (by simp) fun x hx => .inr (List.mem_of_mem_filter hx)
  all_goals
    first
      | exact absurd hop (by decide)
      | exact absurd hbaseline (by decide)

theorem baselineDispatch_raw (hv : canon v = .ok wx) (he : canon e = .ok wy)
    (hnot : ¬ (operator ∈ setOperators ∧ (itemsOf wx).isSome ∧ (itemsOf wy).isSome))
    (h : baselineDispatch operator v e = .ok outcome) :
    RawEvidence ("baseline", "candidate") wx wy outcome.evidence := by
  have hboolean {b : Bool} (h : baselineBooleanOutcome b v e = .ok outcome) :
      RawEvidence ("baseline", "candidate") wx wy outcome.evidence :=
    rawEvidence_pair hv he (by simp) (evidence_of_booleanOutcome h)
  have hset (hop : operator ∈ setOperators) {key : String}
      {offending : List PyValue → List PyValue → List PyValue}
      (h : onBaselineCollections v e key offending = .ok outcome) :
      RawEvidence ("baseline", "candidate") wx wy outcome.evidence := by
    simp only [onBaselineCollections, collectionItems_eq hv, collectionItems_eq he, ok_bind] at h
    split at h
    · next hls hrs => exact absurd ⟨hop, by simp [hls], by simp [hrs]⟩ hnot
    · exact rawEvidence_unknown hv he (by simp) h
  have hequals (hop : operator ∈ setOperators) (h : Operators.equalsBaseline v e = .ok outcome) :
      RawEvidence ("baseline", "candidate") wx wy outcome.evidence := by
    simp only [Operators.equalsBaseline, hv, he, ok_bind, collectionItems_eq hv,
      collectionItems_eq he] at h
    split at h
    · exact hboolean h
    · split at h
      · next hls hrs => exact absurd ⟨hop, by simp [hls], by simp [hrs]⟩ hnot
      · exact hboolean h
  have hnone (h : unknownTypeMismatch .evaluatorInternal [] = .ok outcome) :
      RawEvidence ("baseline", "candidate") wx wy outcome.evidence := by
    cases h
    exact ⟨by simp, by simp⟩
  cases operator <;> rw [baselineDispatch] at h
  case equalsBaseline | unchanged => exact hequals (by decide) h
  case notEqualsBaseline | changed =>
    rw [hv, he] at h
    exact hboolean h
  case supersetOfBaseline | noNewItems | noRemovedItems => exact hset (by decide) h
  all_goals first | exact hnone h | simp

theorem baseline_evidence (hbaseline : operator ∈ baselineOperators) (hv : canon v = .ok wx)
    (he : canon e = .ok wy) (hx : Encoded wx) (hy : Encoded wy)
    (h : evaluateBaselineOperator operator v e = .ok outcome) :
    (∃ ls rs, operator ∈ setOperators ∧ itemsOf wx = some ls ∧ itemsOf wy = some rs ∧
      SetEvidence ("baseline", "candidate") ls rs outcome.evidence) ∨
    ((operator ∈ setOperators ∧ (itemsOf wx).isSome ∧ (itemsOf wy).isSome →
        outcome.status = .satisfied) ∧
      RawEvidence ("baseline", "candidate") wx wy outcome.evidence) := by
  by_cases hset : operator ∈ setOperators ∧ (itemsOf wx).isSome ∧ (itemsOf wy).isSome
  · obtain ⟨hop, hls, hrs⟩ := hset
    obtain ⟨ls, hls⟩ := Option.isSome_iff_exists.mp hls
    obtain ⟨rs, hrs⟩ := Option.isSome_iff_exists.mp hrs
    obtain ⟨o, ho, hevidence⟩ := baselineDispatch_set hop hbaseline hv he hx hy hls hrs
    rw [evaluateBaselineOperator, ho] at h
    cases h
    rcases hevidence with hevidence | ⟨hstatus, hevidence⟩
    · exact .inl ⟨ls, rs, hop, hls, hrs, hevidence⟩
    · exact .inr ⟨fun _ => hstatus, hevidence⟩
  · refine .inr ⟨fun hsome => absurd hsome hset, ?_⟩
    cases hdispatch : baselineDispatch operator v e with
    | ok o =>
        rw [evaluateBaselineOperator, hdispatch] at h
        cases h
        exact baselineDispatch_raw hv he hset hdispatch
    | error error =>
        rw [evaluateBaselineOperator, hdispatch] at h
        cases error with
        | typeError => exact rawEvidence_unknown hv he (by simp) h
        | _ => cases h

end Operators

end SemanticCi.Repair
