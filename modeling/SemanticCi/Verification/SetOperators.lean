import SemanticCi.Verification.JsonEquality

/-! The set operators on a collection of records or strings: they quantify over the items of
the two sides, and an expected record asks for its own keys only. -/

namespace SemanticCi.Operators

open SemanticCi.Python SemanticCi.Framework SemanticCi.Matching ExceptRules

/-! ## The two sides -/

/-- A record, without a repeated key inside, or a string. -/
def IsRecordOrString : JsonValue → Prop
  | .object fields => DistinctFields (.object fields)
  | .str _ => True
  | _ => False

/-- What a path of a state or of a delta resolves to: a collection of records or strings. -/
structure ObservedCollection where
  value : PyValue
  items : List JsonValue
  holds : HoldsJson value (.array items)
  shape : ∀ x ∈ items, IsRecordOrString x

/-- A literal with the items that `normalize_collection_expected` returns. -/
structure ExpectedList (target : TargetPath) (operator : Operator) where
  value : PyValue
  items : List JsonValue
  holds : HoldsJson value (.array items)
  normalized : ∃ literal v, normalizeCollectionExpected target operator literal = .ok v ∧
    HoldsJson v (.array items)
  distinct : ∀ x ∈ items, DistinctFields x

/-! ## Matching -/

/-- The value under a key of the target file, where `from` is the name of `from_`. -/
def fieldValue (record : JsonMapping) (key : String) : Option JsonValue :=
  (JsonValue.get? record key).or
    (if key = "from" then JsonValue.get? record "from_" else none)

/-- Equality as `equals` decides it. -/
def EqualValues (x y : JsonValue) : Prop := SameJson (flattenKinds x) (flattenKinds y)

/-- Every key of the expected record is present and equal in the observed one. -/
def RecordMatches (expected observed : JsonMapping) : Prop :=
  ∀ p ∈ expected, ∃ value, fieldValue observed p.1 = some value ∧ EqualValues p.2 value

/-- A list among the expected items passes the Match Schema unchecked, and the code reads it as
the mapping of its pairs when it is one. -/
def ItemMatches : JsonValue → JsonValue → Prop
  | .object expected, .object observed => RecordMatches expected observed
  | .array expected, observed => Matches (jsonNorm (.array expected)) (jsonNorm observed)
  | expected, observed => EqualValues expected observed

/-- The documented semantics of the five operators. -/
def ListHolds (operator : Operator) (observed expected : List JsonValue) : Prop :=
  match operator with
  | .includesAll | .supersetOf => ∀ e ∈ expected, ∃ o ∈ observed, ItemMatches e o
  | .includesAny => ∃ e ∈ expected, ∃ o ∈ observed, ItemMatches e o
  | .excludesAll => ∀ e ∈ expected, ∀ o ∈ observed, ¬ ItemMatches e o
  | .subsetOf => ∀ o ∈ observed, ∃ e ∈ expected, ItemMatches e o
  | _ => False

/-! ## Records of a normalized list -/

/-- What normalization leaves of a mapping: a record with a key, under a Match Schema that allows
all of its keys. -/
def AllowedFields (target : TargetPath) (v : PyValue) : Prop :=
  ∀ entries, v = .dict entries → entries ≠ [] ∧ ∃ schema, schemaForTarget target = some schema ∧
    ∀ p ∈ entries, ∃ key ∈ schema.allowedKeys, p.1 = .str key

theorem alias_not_allowed {target : TargetPath} {schema : MatchSchema}
    (h : schemaForTarget target = some schema) : "from_" ∉ schema.allowedKeys := by
  have hall : ∀ p ∈ schemas, "from_" ∉ p.2.allowedKeys := by decide
  obtain ⟨front, back, hschemas, -⟩ := List.lookup_eq_some_iff.mp h
  exact hall (target, schema) (by simp [hschemas])

theorem allowedFields_normalizeRecord {target : TargetPath} {schema : MatchSchema}
    (hschema : schemaForTarget target = some schema) {entries : List (PyScalar × PyValue)}
    {v : PyValue} (h : normalizeRecord target schema entries = .ok v) : AllowedFields target v := by
  obtain ⟨sorted, rfl, hallowed⟩ := keys_of_normalizeRecord h
  obtain ⟨-, -, hrequired, sorted', hsorted, hdict⟩ := (normalizeRecord_eq_ok_iff _ _ _ _).mp h
  cases hdict
  intro entries' heq
  cases heq
  refine ⟨?_, schema, hschema, hallowed⟩
  rintro rfl
  obtain rfl := (sortByKey_perm hsorted).nil_eq
  exact hrequired (by simp [stringKeys])

theorem allowedFields_normalizeItem {target : TargetPath} {item v : PyValue}
    (h : normalizeItem target item = .ok v) : AllowedFields target v := by
  unfold normalizeItem at h
  split at h
  · cases h
  · rename_i schema hschema
    exact allowedFields_normalizeRecord hschema h
  · rename_i s schema hschema
    cases h
    intro entries heq
    cases heq
    refine ⟨List.cons_ne_nil _ _, schema, hschema, fun p hp => ?_⟩
    obtain rfl := List.mem_singleton.mp hp
    exact ⟨schema.requiredKey, List.mem_cons_self, rfl⟩
  · rename_i hnone hsome _
    cases h
    intro entries heq
    subst heq
    cases hschema : schemaForTarget target with
    | none => exact (hnone entries rfl hschema).elim
    | some schema => exact (hsome entries schema rfl hschema).elim

theorem allowedFields_of_normalized {target : TargetPath} {operator : Operator}
    (hop : operator ∈ collectionOperators) {literal : PyValue} {kind : SeqKind}
    {vs : List PyValue}
    (h : normalizeCollectionExpected target operator literal = .ok (.seq kind vs)) :
    ∀ v ∈ vs, AllowedFields target v := by
  unfold normalizeCollectionExpected at h
  rw [if_neg (not_not.mpr hop)] at h
  split at h
  · split_ifs at h
    cases h
    simp
  · split at h
    · cases h
    · rename_i schema hschema
      obtain ⟨record, hrecord, hv⟩ := bind_eq_ok_iff.mp h
      cases hv
      intro v hv
      obtain rfl := List.mem_singleton.mp hv
      exact allowedFields_normalizeRecord hschema hrecord
  · obtain ⟨ys, hys, hv⟩ := bind_eq_ok_iff.mp h
    cases hv
    intro v hv
    obtain ⟨item, -, hitem⟩ := exists_of_mem_mapM hys hv
    exact allowedFields_normalizeItem hitem
  · rename_i hnil hdict hseq
    cases h
    exact (hseq kind vs rfl).elim

/-- A record of a normalized list has a key, and the Match Schema allows all of its keys. -/
theorem ExpectedList.record_allowed {target : TargetPath} {operator : Operator}
    (hop : operator ∈ collectionOperators) (expected : ExpectedList target operator)
    {fields : JsonMapping} (h : .object fields ∈ expected.items) :
    fields ≠ [] ∧ ∃ schema, schemaForTarget target = some schema ∧
      ∀ f ∈ fields, f.1 ∈ schema.allowedKeys := by
  obtain ⟨literal, v, hv, hholds⟩ := expected.normalized
  cases hholds with
  | @array kind vs _ hkind hlength hitems =>
      obtain ⟨i, hi, hget⟩ := List.getElem_of_mem h
      obtain ⟨w, hw⟩ : ∃ w, vs[i]? = some w := ⟨_, List.getElem?_eq_getElem (hlength ▸ hi)⟩
      have hitem := hitems i w _ hw (hget ▸ List.getElem?_eq_getElem hi)
      have hallowed := allowedFields_of_normalized hop hv w (List.mem_of_getElem? hw)
      cases hitem with
      | @object entries _ hkeys hvalues =>
          obtain ⟨hne, schema, hschema, hall⟩ := hallowed entries rfl
          refine ⟨?_, schema, hschema, fun f hf => ?_⟩
          · rintro rfl
            exact hne (by simpa using hkeys)
          · have hkey : PyScalar.str f.1 ∈ entries.map Prod.fst := by
              rw [hkeys]
              exact List.mem_map.mpr ⟨f, hf, rfl⟩
            obtain ⟨p, hp, hpkey⟩ := List.mem_map.mp hkey
            obtain ⟨key, hkey, hpstr⟩ := hall p hp
            rw [hpkey, PyScalar.str.injEq] at hpstr
            exact hpstr ▸ hkey

theorem ExpectedList.record_named {target : TargetPath} {operator : Operator}
    (hop : operator ∈ collectionOperators) (expected : ExpectedList target operator)
    {fields : JsonMapping} (h : .object fields ∈ expected.items) :
    fields ≠ [] ∧ "from_" ∉ fields.map Prod.fst := by
  obtain ⟨hne, schema, hschema, hallowed⟩ := expected.record_allowed hop h
  refine ⟨hne, fun hmem => ?_⟩
  obtain ⟨f, hf, hname⟩ := List.mem_map.mp hmem
  exact alias_not_allowed hschema (hname ▸ hallowed f hf)

/-! ## Matching on normal forms -/

theorem equalValues_iff {x y : JsonValue} : EqualValues x y ↔ jsonNorm x = jsonNorm y :=
  sameJson_flattenKinds_iff

theorem map_fieldValue {record : JsonMapping} (hne : record ≠ [])
    (hdistinct : (record.map Prod.fst).Nodup) (key : String) :
    (fieldValue record key).map jsonNorm = shown (jsonNorm (.object record)) key := by
  rw [shown_object hne hdistinct, fieldValue, Option.map_or]
  split <;> rfl

/-- Two records match by inclusion of the expected one. -/
theorem matches_object_iff {es os : JsonMapping} (hne : es ≠ [])
    (hfrom : "from_" ∉ es.map Prod.fst) (hes : (es.map Prod.fst).Nodup)
    (hos : (os.map Prod.fst).Nodup) :
    Matches (jsonNorm (.object es)) (jsonNorm (.object os)) ↔ RecordMatches es os := by
  obtain ⟨p, hp⟩ := List.exists_mem_of_ne_nil es hne
  by_cases hnil : os = []
  · subst hnil
    apply iff_of_false
    · intro h
      have heq : jsonNorm (.object es) = jsonNorm (.object []) := by
        rw [Matches, normPairs?_object hne] at h
        exact h
      have hget := get?_of_jsonNorm_eq heq p.1
      rw [JsonValue.get?, find?_key_of_mem hes hp] at hget
      cases hget
    · intro h
      obtain ⟨value, hvalue, -⟩ := h p hp
      simp [fieldValue, JsonValue.get?] at hvalue
  · have hpairs := normPairs?_object hne
    have hnames : NamesOnly (es.map Prod.fst) (jsonNorm (.object es)) := by
      intro pairs hpairs' q hq
      rw [hpairs] at hpairs'
      obtain rfl := Option.some.inj hpairs'
      obtain ⟨r, hr, rfl⟩ := List.mem_map.mp hq
      rw [sortPairs, List.mem_insertionSort] at hr
      obtain ⟨f, hf, rfl⟩ := List.mem_map.mp hr
      exact ⟨f.1, List.mem_map_of_mem hf, rfl⟩
    have hrecord : normPairs? (jsonNorm (.object os)) ≠ none := by
      rw [normPairs?_object hnil]
      exact Option.some_ne_none _
    have hentry (q : String × JsonValue) (hq : q ∈ es) :
        entryValue (shownPairs es) (.scalar (.str q.1)) = some (jsonNorm q.2) := by
      have hshown := shown_object hne hes q.1
      rw [shown, hpairs, Option.bind_some, JsonValue.get?, find?_key_of_mem hes hq] at hshown
      exact hshown
    rw [matches_iff_shown hfrom hnames hrecord, hpairs]
    simp only [Option.some.injEq, exists_eq_left']
    constructor
    · intro h q hq
      have hvalue := h q.1 (List.mem_map_of_mem hq) _ (hentry q hq)
      rw [← map_fieldValue hnil hos, Option.map_eq_some_iff] at hvalue
      obtain ⟨value, hget, hnorm⟩ := hvalue
      exact ⟨value, hget, equalValues_iff.mpr hnorm.symm⟩
    · intro h key hkey value hvalue
      obtain ⟨q, hq, rfl⟩ := List.mem_map.mp hkey
      obtain ⟨w, hget, hequal⟩ := h q hq
      rw [hentry q hq, Option.some.injEq] at hvalue
      rw [← map_fieldValue hnil hos, hget, Option.map_some, ← equalValues_iff.mp hequal, hvalue]

theorem matches_of_not_pairs {n m : Norm} (h : normPairs? n = none ∨ normPairs? m = none) :
    Matches n m ↔ n = m := by
  unfold Matches
  rcases h with h | h
  · simp [h]
  · cases hn : normPairs? n <;> simp [h]

theorem ExpectedList.matches_iff {target : TargetPath} {operator : Operator}
    (hop : operator ∈ collectionOperators) (expected : ExpectedList target operator)
    {e o : JsonValue} (he : e ∈ expected.items) (ho : IsRecordOrString o) :
    Matches (jsonNorm e) (jsonNorm o) ↔ ItemMatches e o := by
  have hequal (hscalar : normPairs? (jsonNorm e) = none) :
      Matches (jsonNorm e) (jsonNorm o) ↔ EqualValues e o := by
    rw [matches_of_not_pairs (.inl hscalar), equalValues_iff]
  cases e with
  | null => exact hequal rfl
  | bool b => exact hequal (by simp [jsonNorm, normPairs?])
  | int i => exact hequal rfl
  | float d => exact hequal rfl
  | str s => exact hequal rfl
  | array items => exact Iff.rfl
  | object es =>
      obtain ⟨hne, hfrom⟩ := expected.record_named hop he
      cases expected.distinct _ he with
      | object hes _ =>
      cases o with
      | object os =>
          cases ho with
          | object hos _ => exact matches_object_iff hne hfrom hes hos
      | str s =>
          rw [matches_of_not_pairs (.inr rfl), ← equalValues_iff]
          exact Iff.rfl
      | _ => exact ho.elim

/-! ## The operators -/

theorem members_array (items : List JsonValue) :
    Members (jsonNorm (.array items)) = {n | ∃ x ∈ items, jsonNorm x = n} := by
  ext n
  simp

theorem setHolds_iff {target : TargetPath} {operator : Operator}
    (hop : operator ∈ collectionOperators) (observed : ObservedCollection)
    (expected : ExpectedList target operator) :
    SetHolds operator (Members (jsonNorm (.array observed.items)))
      (Members (jsonNorm (.array expected.items))) ↔
      ListHolds operator observed.items expected.items := by
  have hmatch {e o : JsonValue} (he : e ∈ expected.items) (ho : o ∈ observed.items) :
      Matches (jsonNorm e) (jsonNorm o) ↔ ItemMatches e o :=
    expected.matches_iff hop he (observed.shape o ho)
  have hincludes : (∀ e ∈ expected.items, ∃ o ∈ observed.items,
      Matches (jsonNorm e) (jsonNorm o)) ↔
      ∀ e ∈ expected.items, ∃ o ∈ observed.items, ItemMatches e o :=
    forall_congr' fun e => imp_congr_right fun he => exists_congr fun o =>
      and_congr_right fun ho => hmatch he ho
  rw [members_array, members_array]
  simp only [collectionOperators, List.mem_cons, List.not_mem_nil, or_false] at hop
  rcases hop with rfl | rfl | rfl | rfl | rfl
  · simpa [SetHolds, ListHolds] using hincludes
  · simp only [SetHolds, ListHolds, Set.mem_ofPred_eq, exists_exists_and_eq_and]
    exact exists_congr fun e => and_congr_right fun he => exists_congr fun o =>
      and_congr_right fun ho => hmatch he ho
  · simp only [SetHolds, ListHolds, Set.mem_ofPred_eq, forall_exists_index, and_imp,
      forall_apply_eq_imp_iff₂]
    exact forall_congr' fun e => imp_congr_right fun he => forall_congr' fun o =>
      imp_congr_right fun ho => not_congr (hmatch he ho)
  · simp only [SetHolds, ListHolds, Set.mem_ofPred_eq, forall_exists_index, and_imp,
      forall_apply_eq_imp_iff₂, exists_exists_and_eq_and]
    exact forall_congr' fun o => imp_congr_right fun ho => exists_congr fun e =>
      and_congr_right fun he => hmatch he ho
  · simpa [SetHolds, ListHolds] using hincludes

theorem decides_members {operator : Operator} (hop : operator ∈ collectionOperators)
    {observed expected : List JsonValue} {v e : PyValue} (hv : HoldsJson v (.array observed))
    (he : HoldsJson e (.array expected)) (tolerance : Option PyFloat) :
    Decides (evaluatePureOperator operator v e tolerance)
      (SetHolds operator (Members (jsonNorm (.array observed)))
        (Members (jsonNorm (.array expected)))) := by
  obtain ⟨v', hv', hobserved⟩ := hv.canon
  obtain ⟨e', he', hexpected⟩ := he.canon
  have hcollection (items : List JsonValue) : IsCollection (jsonNorm (.array items)) := by
    rw [jsonNorm_array]
    trivial
  rw [← hobserved, ← hexpected]
  apply (decides_setOperator hop hv' he' _ _ tolerance).evaluatePureOperator
  · rw [hobserved]
    exact hcollection observed
  · rw [hexpected]
    exact hcollection expected

theorem Judged.unique {o : Except PyError OperatorOutcome} {s s' : ResultStatus}
    {c c' : Option UnknownCause} (h : Judged o s c) (h' : Judged o s' c') : s = s' ∧ c = c' := by
  obtain ⟨x, hx, rfl, rfl⟩ := h
  obtain ⟨y, hy, rfl, rfl⟩ := h'
  rw [hx, Except.ok.injEq] at hy
  exact ⟨by rw [hy], by rw [hy]⟩

theorem Decides.judged_congr {o o' : Except PyError OperatorOutcome} {p : Prop}
    (h : Decides o p) (h' : Decides o' p) {s : ResultStatus} {c : Option UnknownCause}
    (ho : Judged o s c) : Judged o' s c := by
  by_cases hp : p
  · obtain ⟨rfl, rfl⟩ := ho.unique (h.satisfied hp)
    exact h'.satisfied hp
  · obtain ⟨rfl, rfl⟩ := ho.unique (h.violated hp)
    exact h'.violated hp

/-- Every item of one list is an item of the other, perhaps with its keys in another order:
the lists differ by permuting and repeating items and by reordering keys. -/
structure SameItems (xs ys : List JsonValue) : Prop where
  left : ∀ x ∈ xs, ∃ y ∈ ys, SameJson x y
  right : ∀ y ∈ ys, ∃ x ∈ xs, SameJson x y

theorem SameItems.members_eq {xs ys : List JsonValue} (h : SameItems xs ys)
    (hxs : ∀ x ∈ xs, DistinctFields x) (hys : ∀ y ∈ ys, DistinctFields y) :
    Members (jsonNorm (.array xs)) = Members (jsonNorm (.array ys)) := by
  rw [members_array, members_array]
  ext n
  constructor
  · rintro ⟨x, hx, rfl⟩
    obtain ⟨y, hy, hsame⟩ := h.left x hx
    exact ⟨y, hy, (hsame.jsonNorm_eq (hxs x hx) (hys y hy)).symm⟩
  · rintro ⟨y, hy, rfl⟩
    obtain ⟨x, hx, hsame⟩ := h.right y hy
    exact ⟨x, hx, hsame.jsonNorm_eq (hxs x hx) (hys y hy)⟩

theorem ObservedCollection.distinct (observed : ObservedCollection) :
    ∀ x ∈ observed.items, DistinctFields x := by
  intro x hx
  have hshape := observed.shape x hx
  cases x with
  | object fields => exact hshape
  | str s => exact .str s
  | _ => exact hshape.elim

section Documented

variable (target : TargetPath) (operator : Operator) (tolerance : Option PyFloat)

/-- The outcome of the operator on the two sides. -/
def setOutcomeOf (observed : ObservedCollection) (expected : ExpectedList target operator) :
    Except PyError OperatorOutcome :=
  evaluatePureOperator operator observed.value expected.value tolerance

/-- A set operator under the documented semantics. -/
structure DocumentedSemantics : Prop where
  decides : ∀ observed expected, Decides (setOutcomeOf target operator tolerance observed expected)
    (ListHolds operator observed.items expected.items)
  rearranged : ∀ observed observed' expected expected',
    SameItems observed.items observed'.items → SameItems expected.items expected'.items →
      ∀ status cause, Judged (setOutcomeOf target operator tolerance observed expected) status cause →
        Judged (setOutcomeOf target operator tolerance observed' expected') status cause
  monotone : operator ∈ [Operator.includesAll, .includesAny, .supersetOf] →
    ∀ observed observed' expected, observed.items ⊆ observed'.items →
      Judged (setOutcomeOf target operator tolerance observed expected) .satisfied none →
        Judged (setOutcomeOf target operator tolerance observed' expected) .satisfied none
  antitone : operator ∈ [Operator.excludesAll, .subsetOf] →
    ∀ observed observed' expected, observed.items ⊆ observed'.items →
      Judged (setOutcomeOf target operator tolerance observed' expected) .satisfied none →
        Judged (setOutcomeOf target operator tolerance observed expected) .satisfied none

end Documented

theorem listHolds_mono {operator : Operator}
    (hop : operator ∈ [Operator.includesAll, .includesAny, .supersetOf])
    {observed observed' expected : List JsonValue} (hsub : observed ⊆ observed')
    (h : ListHolds operator observed expected) : ListHolds operator observed' expected := by
  have hincludes (hall : ∀ e ∈ expected, ∃ o ∈ observed, ItemMatches e o) :
      ∀ e ∈ expected, ∃ o ∈ observed', ItemMatches e o := by
    intro e he
    obtain ⟨o, ho, hmatch⟩ := hall e he
    exact ⟨o, hsub ho, hmatch⟩
  simp only [List.mem_cons, List.not_mem_nil, or_false] at hop
  rcases hop with rfl | rfl | rfl
  · exact hincludes h
  · obtain ⟨e, he, o, ho, hmatch⟩ := h
    exact ⟨e, he, o, hsub ho, hmatch⟩
  · exact hincludes h

theorem listHolds_anti {operator : Operator}
    (hop : operator ∈ [Operator.excludesAll, .subsetOf])
    {observed observed' expected : List JsonValue} (hsub : observed ⊆ observed')
    (h : ListHolds operator observed' expected) : ListHolds operator observed expected := by
  simp only [List.mem_cons, List.not_mem_nil, or_false] at hop
  rcases hop with rfl | rfl
  · exact fun e he o ho => h e he o (hsub ho)
  · exact fun o ho => h o (hsub ho)

section Documented

variable {target : TargetPath} {operator : Operator} (hop : operator ∈ collectionOperators)
  (tolerance : Option PyFloat) (observed : ObservedCollection)
  (expected : ExpectedList target operator)

include hop

theorem decides_members_of :
    Decides (setOutcomeOf target operator tolerance observed expected)
      (SetHolds operator (Members (jsonNorm (.array observed.items)))
        (Members (jsonNorm (.array expected.items)))) :=
  decides_members hop observed.holds expected.holds tolerance

theorem documented_decides :
    Decides (setOutcomeOf target operator tolerance observed expected)
      (ListHolds operator observed.items expected.items) :=
  (decides_members_of hop tolerance observed expected).congr (setHolds_iff hop observed expected)

end Documented

/-- The five set operators follow the documented semantics. -/
theorem setOperators_documented (target : TargetPath) {operator : Operator}
    (hop : operator ∈ collectionOperators) (tolerance : Option PyFloat) :
    DocumentedSemantics target operator tolerance where
  decides := documented_decides hop tolerance
  rearranged observed observed' expected expected' hobserved hexpected status cause := by
    have hbefore := decides_members_of hop tolerance observed expected
    have hafter := decides_members_of hop tolerance observed' expected'
    rw [← hobserved.members_eq observed.distinct observed'.distinct,
      ← hexpected.members_eq expected.distinct expected'.distinct] at hafter
    exact hbefore.judged_congr hafter
  monotone hmono observed observed' expected hsub h := by
    have hbefore := documented_decides hop tolerance observed expected
    have hafter := documented_decides hop tolerance observed' expected
    apply hafter.satisfied
    exact listHolds_mono hmono hsub (hbefore.of_satisfied h)
  antitone hanti observed observed' expected hsub h := by
    have hbefore := documented_decides hop tolerance observed expected
    have hafter := documented_decides hop tolerance observed' expected
    apply hbefore.satisfied
    exact listHolds_anti hanti hsub (hafter.of_satisfied h)

/-- The semantics of `excludes_all` on the effects of a state. -/
theorem setOperators_documented_effects : DocumentedSemantics ["effects"] .excludesAll none :=
  setOperators_documented ["effects"] (by decide) none

end SemanticCi.Operators
