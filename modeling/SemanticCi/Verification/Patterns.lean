import SemanticCi.Verification.Matching
import SemanticCi.Verification.Records
import SemanticCi.Verification.Compiler

/-! Patterns against records: a pattern that names only some fields sees nothing else of a
record, and the Match Schema lets only such patterns through among mappings and strings. -/

namespace SemanticCi.Matching

open SemanticCi.Python SemanticCi.StateSchema SemanticCi.Framework SemanticCi.Operators
  SemanticCi.Compiler ExceptRules

/-! ## What a record shows under a key -/

/-- The value that matching sees under a key. -/
def shown (record : Norm) (key : String) : Option Norm :=
  (normPairs? record).bind fun pairs => entryValue pairs (.scalar (.str key))

/-- The pattern reads as a mapping at most with these keys. -/
def NamesOnly (keys : List String) (pattern : Norm) : Prop :=
  ∀ pairs, normPairs? pattern = some pairs → ∀ p ∈ pairs, ∃ key ∈ keys, p.1 = .scalar (.str key)

theorem mem_of_lastValue {pairs : List (Norm × Norm)} {key value : Norm}
    (h : lastValue pairs key = some value) : ∃ p ∈ pairs, p.1 = key := by
  simp only [lastValue, Option.map_eq_some_iff] at h
  obtain ⟨p, hp, -⟩ := h
  exact ⟨p, by simpa using List.mem_of_find?_eq_some hp, by simpa using List.find?_some hp⟩

/-- Without the alias among its keys, a mapping only has values under its own keys. -/
theorem key_of_entryValue {keys : List String} (hkeys : "from_" ∉ keys)
    {pairs : List (Norm × Norm)} (hpairs : ∀ p ∈ pairs, ∃ key ∈ keys, p.1 = .scalar (.str key))
    {key value : Norm} (h : entryValue pairs key = some value) :
    ∃ k ∈ keys, key = .scalar (.str k) := by
  unfold entryValue at h
  cases hlast : lastValue pairs key with
  | some v =>
      obtain ⟨p, hp, rfl⟩ := mem_of_lastValue hlast
      exact hpairs p hp
  | none =>
      rw [hlast, Option.none_or] at h
      split at h
      · obtain ⟨p, hp, hfrom⟩ := mem_of_lastValue h
        obtain ⟨k, hk, hpk⟩ := hpairs p hp
        have hk' : k = "from_" := by simpa using hpk.symm.trans hfrom
        exact absurd (hk' ▸ hk) hkeys
      · cases h

/-- A pattern that names only some keys matches by what the record shows under them. -/
theorem matches_iff_shown {keys : List String} (hkeys : "from_" ∉ keys) {pattern record : Norm}
    (hpattern : NamesOnly keys pattern) (hrecord : normPairs? record ≠ none) :
    Matches pattern record ↔ ∃ pairs, normPairs? pattern = some pairs ∧
      ∀ key ∈ keys, ∀ value, entryValue pairs (.scalar (.str key)) = some value →
        shown record key = some value := by
  obtain ⟨os, hos⟩ := Option.ne_none_iff_exists'.mp hrecord
  unfold Matches
  cases hpairs : normPairs? pattern with
  | none =>
      simp only [reduceCtorEq, false_and, exists_false, iff_false]
      rintro rfl
      exact hrecord hpairs
  | some pairs =>
      simp only [hos, shown, Option.bind_some, Option.some.injEq, exists_eq_left']
      constructor
      · intro h key _ value hvalue
        exact h _ value hvalue
      · intro h key value hvalue
        obtain ⟨k, hk, rfl⟩ := key_of_entryValue hkeys (hpattern pairs hpairs) hvalue
        exact h k hk value hvalue

theorem matches_congr {keys : List String} (hkeys : "from_" ∉ keys) {pattern n n' : Norm}
    (hpattern : NamesOnly keys pattern) (hn : normPairs? n ≠ none) (hn' : normPairs? n' ≠ none)
    (h : ∀ key ∈ keys, shown n key = shown n' key) : Matches pattern n ↔ Matches pattern n' := by
  rw [matches_iff_shown hkeys hpattern hn, matches_iff_shown hkeys hpattern hn']
  refine exists_congr fun pairs => and_congr_right fun _ => ?_
  refine forall_congr' fun key => imp_congr_right fun hkey => ?_
  rw [h key hkey]

/-! ## Records -/

theorem find?_reverse_of_nodup {α : Type} {items : List (String × α)}
    (h : (items.map Prod.fst).Nodup) (key : String) :
    (items.reverse.find? fun p => p.1 = key) = items.find? fun p => p.1 = key := by
  cases hfind : items.find? fun p => p.1 = key with
  | none =>
      rw [List.find?_eq_none] at hfind ⊢
      exact fun p hp => hfind p (List.mem_reverse.mp hp)
  | some p =>
      have hp := List.mem_of_find?_eq_some hfind
      have hkey : p.1 = key := by simpa using List.find?_some hfind
      obtain ⟨q, hq⟩ : ∃ q, items.reverse.find? (fun p => p.1 = key) = some q := by
        rw [← Option.isSome_iff_exists, List.find?_isSome]
        exact ⟨p, List.mem_reverse.mpr hp, by simpa using hkey⟩
      have hqkey : q.1 = key := by simpa using List.find?_some hq
      have hqmem := List.mem_reverse.mp (List.mem_of_find?_eq_some hq)
      rw [hq, List.inj_on_of_nodup_map h hqmem hp (hqkey.trans hkey.symm)]

/-- The pairs of an object in canonical form. -/
def shownPairs (items : JsonMapping) : List (Norm × Norm) :=
  (sortPairs (items.map fun p => (p.1, jsonNorm p.2))).map fun p => (.scalar (.str p.1), p.2)

theorem mapM_normPair?_tuples {α : Type} (key value : α → Norm) (xs : List α) :
    (xs.map fun x => Norm.tuple [key x, value x]).mapM normPair? =
      some (xs.map fun x => (key x, value x)) := by
  induction xs with
  | nil => rfl
  | cons x xs ih =>
      rw [List.map_cons, List.mapM_cons, ih]
      rfl

/-- A nonempty list of pairs reads as a mapping. -/
theorem normPairs?_tuples {α : Type} (key value : α → Norm) {xs : List α} (h : xs ≠ []) :
    normPairs? (.tuple (xs.map fun x => Norm.tuple [key x, value x])) =
      some (xs.map fun x => (key x, value x)) := by
  rw [← mapM_normPair?_tuples]
  cases xs with
  | nil => exact absurd rfl h
  | cons x xs => rfl

theorem normPairs?_object {items : JsonMapping} (h : items ≠ []) :
    normPairs? (jsonNorm (.object items)) = some (shownPairs items) := by
  rw [jsonNorm_object, shownPairs]
  refine normPairs?_tuples _ _ fun hnil => h ?_
  have hlength := congrArg List.length hnil
  rwa [sortPairs, List.length_insertionSort, List.length_map, List.length_nil,
    List.length_eq_zero_iff] at hlength

theorem lastValue_shownPairs {items : JsonMapping} (h : (items.map Prod.fst).Nodup)
    (key : String) :
    lastValue (shownPairs items) (.scalar (.str key)) =
      (JsonValue.get? items key).map jsonNorm := by
  have hnodup : ((sortPairs (items.map fun p => (p.1, jsonNorm p.2))).map Prod.fst).Nodup := by
    have hperm : (sortPairs (items.map fun p => (p.1, jsonNorm p.2))).Perm
        (items.map fun p => (p.1, jsonNorm p.2)) := List.perm_insertionSort ..
    rw [(hperm.map _).nodup_iff]
    simpa [Function.comp_def] using h
  have hcomp : (fun p : String × Norm => decide ((Norm.scalar (.str p.1)) = .scalar (.str key))) =
      fun p => decide (p.1 = key) := by
    funext p
    simp
  rw [lastValue, shownPairs, ← List.map_reverse, List.find?_map, Function.comp_def]
  simp only [hcomp]
  rw [find?_reverse_of_nodup hnodup, find?_sortPairs, List.find?_map, JsonValue.get?]
  simp only [Option.map_map, Function.comp_def]

/-- A record shows its fields, and an import also shows `from_` as `from`. -/
theorem shown_object {items : JsonMapping} (hne : items ≠ []) (h : (items.map Prod.fst).Nodup)
    (key : String) :
    shown (jsonNorm (.object items)) key = ((JsonValue.get? items key).map jsonNorm).or
      (if key = "from" then (JsonValue.get? items "from_").map jsonNorm else none) := by
  have hfrom : ((Norm.scalar (.str key)) = fromKey) ↔ key = "from" := by simp
  simp only [shown, normPairs?_object hne, Option.bind_some, entryValue, hfrom,
    lastValue_shownPairs h]

/-! ## What the Match Schema accepts -/

/-- The keys of which a record must have one. -/
def requiredKeys (schema : MatchSchema) : List String :=
  if schema.requiredAnyKeys = [] then [schema.requiredKey] else schema.requiredAnyKeys

/-- What the Match Schema accepts of a record does not depend on the target it is told. -/
theorem normalizeRecord_eq_ok_iff (target : TargetPath) (schema : MatchSchema)
    (item : List (PyScalar × PyValue)) (v : PyValue) :
    normalizeRecord target schema item = .ok v ↔
      stringKeys item (schema.forbiddenKeys.map Prod.fst) = [] ∧
        sortByKey (unknownKeys schema item) = .ok [] ∧
        stringKeys item (requiredKeys schema) ≠ [] ∧
        ∃ sorted, sortByKey item = .ok sorted ∧ v = .dict sorted := by
  unfold normalizeRecord
  cases hforbidden : stringKeys item (schema.forbiddenKeys.map Prod.fst) with
  | cons key rest => simp
  | nil =>
      cases hunknown : sortByKey (unknownKeys schema item) with
      | error e => simp
      | ok unknown =>
          cases unknown with
          | cons entry rest => simp
          | nil =>
              by_cases hrequired : stringKeys item (requiredKeys schema) = []
              · have hrequired' := hrequired
                rw [requiredKeys] at hrequired'
                dsimp only
                rw [if_pos hrequired']
                refine iff_of_false (fun h => ?_) fun h => h.2.2.1 hrequired
                split_ifs at h
              · have hrequired' := hrequired
                rw [requiredKeys] at hrequired'
                dsimp only
                rw [if_neg hrequired']
                cases sortByKey item <;> simp [hrequired, eq_comm]

theorem normalizeItem_target {target target' : TargetPath}
    (hschema : schemaForTarget target' = schemaForTarget target) {item v : PyValue}
    (h : normalizeItem target item = .ok v) : normalizeItem target' item = .ok v := by
  unfold normalizeItem at h ⊢
  rw [hschema]
  split at h
  · cases h
  · rw [normalizeRecord_eq_ok_iff] at h
    exact (normalizeRecord_eq_ok_iff _ _ _ _).mpr h
  · exact h
  · exact h

theorem normalizeCollectionExpected_target {target target' : TargetPath}
    (hschema : schemaForTarget target' = schemaForTarget target) {operator : Operator}
    {literal v : PyValue} (h : normalizeCollectionExpected target operator literal = .ok v) :
    normalizeCollectionExpected target' operator literal = .ok v := by
  have hmapM (items ys : List PyValue) (hitems : items.mapM (normalizeItem target) = .ok ys) :
      items.mapM (normalizeItem target') = .ok ys := by
    rw [mapM_eq_ok_iff] at hitems ⊢
    exact hitems.imp fun _ _ => normalizeItem_target hschema
  unfold normalizeCollectionExpected at h ⊢
  rw [hschema]
  split at h
  · rename_i hop
    rw [if_pos hop]
    exact h
  · rename_i hop
    rw [if_neg hop]
    split at h
    · exact h
    · split at h
      · cases h
      · obtain ⟨record, hrecord, hv⟩ := bind_eq_ok_iff.mp h
        rw [normalizeRecord_eq_ok_iff] at hrecord
        exact bind_eq_ok_iff.mpr ⟨record, (normalizeRecord_eq_ok_iff _ _ _ _).mpr hrecord, hv⟩
    · obtain ⟨ys, hys, hv⟩ := bind_eq_ok_iff.mp h
      exact bind_eq_ok_iff.mpr ⟨ys, hmapM _ _ hys, hv⟩
    · exact h

/-! ## Patterns of an accepted literal -/

/-- A list whose items are strings, other scalars, sets or mappings, as opposed to lists. -/
def FlatItems : PyValue → Prop
  | .seq _ items => ∀ item ∈ items, item.isListOrTuple = false
  | _ => True

theorem namesOnly_of_none {keys : List String} {pattern : Norm} (h : normPairs? pattern = none) :
    NamesOnly keys pattern := by
  intro pairs hpairs
  rw [h] at hpairs
  cases hpairs

/-- The canonical form of a mapping names the keys of the mapping. -/
theorem namesOnly_of_canon_dict {keys : List String} {entries : List (PyScalar × PyValue)}
    (hkeys : ∀ p ∈ entries, ∃ key ∈ keys, p.1 = .str key) {w : PyValue}
    (h : canon (.dict entries) = .ok w) : NamesOnly keys w.norm := by
  obtain ⟨pairs, hpairs, hrest⟩ := bind_eq_ok_iff.mp h
  obtain ⟨sorted, hsorted, hw⟩ := bind_eq_ok_iff.mp hrest
  cases hw
  have hkeys' : ∀ p ∈ sorted, ∃ key ∈ keys, p.1 = .str key := by
    intro p hp
    obtain ⟨q, hq, hqp, -⟩ := exists_of_mem_forall₂ ((canonPairs_eq_ok_iff _ _).mp hpairs)
      ((sortByKey_perm hsorted).mem_iff.mp hp)
    rw [← hqp]
    exact hkeys q hq
  have hnorm : (PyValue.seq .canonicalMapping (sorted.map fun item =>
      .tuple [.scalar item.1, item.2])).norm =
      .tuple (sorted.map fun item => .tuple [.scalar item.1.norm, item.2.norm]) := by
    simp [Function.comp_def]
  rw [hnorm]
  by_cases hnil : sorted = []
  · rw [hnil]
    exact namesOnly_of_none rfl
  · intro result hresult p hp
    rw [normPairs?_tuples _ _ hnil] at hresult
    obtain rfl := Option.some.inj hresult
    obtain ⟨item, hitem, rfl⟩ := List.mem_map.mp hp
    obtain ⟨key, hkey, hitemkey⟩ := hkeys' item hitem
    exact ⟨key, hkey, by rw [hitemkey]; rfl⟩

theorem keys_of_normalizeRecord {target : TargetPath} {schema : MatchSchema}
    {entries : List (PyScalar × PyValue)} {v : PyValue}
    (h : normalizeRecord target schema entries = .ok v) :
    ∃ sorted, v = .dict sorted ∧ ∀ p ∈ sorted, ∃ key ∈ schema.allowedKeys, p.1 = .str key := by
  obtain ⟨-, hunknown, -, sorted, hsorted, rfl⟩ := (normalizeRecord_eq_ok_iff _ _ _ _).mp h
  refine ⟨sorted, rfl, fun p hp => ?_⟩
  have hp' := (sortByKey_perm hsorted).mem_iff.mp hp
  have hnil : unknownKeys schema entries = [] := (sortByKey_perm hunknown).nil_eq.symm
  rw [unknownKeys, List.filter_eq_nil_iff] at hnil
  simpa using hnil p hp'

/-- An accepted item that is not itself a list only names what the schema allows. -/
theorem namesOnly_of_normalizeItem {target : TargetPath} {schema : MatchSchema}
    (hschema : schemaForTarget target = some schema) {item v w : PyValue}
    (hitem : item.isListOrTuple = false) (h : normalizeItem target item = .ok v)
    (hw : canon v = .ok w) : NamesOnly schema.allowedKeys w.norm := by
  unfold normalizeItem at h
  rw [hschema] at h
  split at h
  · cases h
  · rename_i hsome
    cases hsome
    obtain ⟨sorted, rfl, hkeys⟩ := keys_of_normalizeRecord h
    exact namesOnly_of_canon_dict hkeys hw
  · rename_i s _ hsome
    cases hsome
    cases h
    refine namesOnly_of_canon_dict (fun p hp => ?_) hw
    obtain rfl := List.mem_singleton.mp hp
    exact ⟨schema.requiredKey, List.mem_cons_self, rfl⟩
  · rename_i hdict _
    cases h
    apply namesOnly_of_none
    cases v with
    | scalar s =>
        cases hw
        rfl
    | seq kind items => cases hitem
    | dict entries => exact (hdict entries schema rfl rfl).elim
    | set items =>
        cases hw
        rfl

theorem members_canon_seq {kind : SeqKind} {items : List PyValue} {e : PyValue}
    (h : canon (.seq kind items) = .ok e) {pattern : Norm} (hpattern : pattern ∈ Members e.norm) :
    ∃ item ∈ items, ∃ w, canon item = .ok w ∧ w.norm = pattern := by
  obtain ⟨kind', zs, hzs, rfl⟩ := exists_of_canon_seq h
  rw [norm_seq, mem_members_tuple, List.mem_map] at hpattern
  obtain ⟨z, hz, rfl⟩ := hpattern
  obtain ⟨item, hitem, hcanon⟩ := exists_of_mem_forall₂ ((canonList_eq_ok_iff _ _).mp hzs) hz
  exact ⟨item, hitem, z, hcanon, rfl⟩

theorem freezeExpected_normalizeItem {target : TargetPath} {schema : MatchSchema}
    (hschema : schemaForTarget target = some schema) {item v : PyValue}
    (hitem : item.isListOrTuple = false) (h : normalizeItem target item = .ok v) :
    freezeExpected v = v := by
  unfold normalizeItem at h
  rw [hschema] at h
  split at h
  · cases h
  · obtain ⟨sorted, rfl, -⟩ := keys_of_normalizeRecord h
    rfl
  · cases h
    rfl
  · cases h
    cases v with
    | seq kind items => cases hitem
    | scalar s => rfl
    | dict entries => rfl
    | set items => rfl

/-- Every pattern of an accepted literal without nested lists only names what the schema
allows. -/
theorem namesOnly_of_accepted {target : TargetPath} {schema : MatchSchema}
    (hschema : schemaForTarget target = some schema) {operator : Operator}
    (hop : operator ∈ collectionOperators) {literal v e : PyValue} (hflat : FlatItems literal)
    (h : normalizeCollectionExpected target operator literal = .ok v)
    (he : canon (freezeExpected v) = .ok e) :
    ∀ pattern ∈ Members e.norm, NamesOnly schema.allowedKeys pattern := by
  intro pattern hpattern
  unfold normalizeCollectionExpected at h
  rw [if_neg (not_not.mpr hop), hschema] at h
  split at h
  · rename_i kind
    have hnone {kind : SeqKind} (hcanon : canon (.seq kind []) = .ok e) : False := by
      obtain ⟨item, hitem, -⟩ := members_canon_seq hcanon hpattern
      cases hitem
    split_ifs at h
    cases h
    cases kind with
    | list => exact (@hnone .tuple he).elim
    | tuple => exact (hnone he).elim
    | canonicalMapping => exact (hnone he).elim
  · obtain ⟨record, hrecord, hv⟩ := bind_eq_ok_iff.mp h
    cases hv
    obtain ⟨item, hitem, w, hw, rfl⟩ := members_canon_seq he hpattern
    obtain rfl := List.mem_singleton.mp hitem
    obtain ⟨sorted, rfl, hkeys⟩ := keys_of_normalizeRecord hrecord
    exact namesOnly_of_canon_dict hkeys hw
  · rename_i items _
    obtain ⟨ys, hys, hv⟩ := bind_eq_ok_iff.mp h
    cases hv
    obtain ⟨item, hitem, w, hw, rfl⟩ := members_canon_seq he hpattern
    rw [freezeList_eq_map] at hitem
    obtain ⟨y, hy, rfl⟩ := List.mem_map.mp hitem
    obtain ⟨source, hsource, hnormalized⟩ := exists_of_mem_mapM hys hy
    rw [freezeExpected_normalizeItem hschema (hflat source hsource) hnormalized] at hw
    exact namesOnly_of_normalizeItem hschema (hflat source hsource) hnormalized hw
  · rename_i hdict hseq
    cases h
    cases literal with
    | scalar s =>
        cases he
        cases hpattern
    | seq kind items => exact (hseq kind items rfl).elim
    | dict entries => exact (hdict entries rfl).elim
    | set items =>
        cases he
        obtain ⟨a, -, rfl⟩ := hpattern
        exact namesOnly_of_none rfl

end SemanticCi.Matching
