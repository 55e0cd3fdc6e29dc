import SemanticCi.Verification.Operators
import SemanticCi.Verification.Patterns

/-! JSON equality against the equality that `equals` computes. Canonical values forget two
things: a boolean counts as a number, and a record is the array of its pairs. -/

namespace SemanticCi.Operators

open SemanticCi.Python ExceptRules

/-! ## JSON equality -/

inductive JsonKind where
  | null
  | boolean
  | number
  | string
  | array
  | object
deriving DecidableEq

def jsonKind : JsonValue → JsonKind
  | .null => .null
  | .bool _ => .boolean
  | .int _ | .float _ => .number
  | .str _ => .string
  | .array _ => .array
  | .object _ => .object

def jsonNumber? : JsonValue → Option Dyadic
  | .int i => some (Dyadic.ofInt i)
  | .float d => some d
  | _ => none

/-- The two values are the same JSON value: arrays agree element by element, objects key by
key in whatever order their keys are written. -/
inductive SameJson : JsonValue → JsonValue → Prop where
  | null : SameJson .null .null
  | boolean (b : Bool) : SameJson (.bool b) (.bool b)
  | number {x y : JsonValue} {d : Dyadic} (hx : jsonNumber? x = some d)
      (hy : jsonNumber? y = some d) : SameJson x y
  | string (s : String) : SameJson (.str s) (.str s)
  | array {xs ys : List JsonValue} (hlength : xs.length = ys.length)
      (hitems : ∀ (i : ℕ) x y, xs[i]? = some x → ys[i]? = some y → SameJson x y) :
      SameJson (.array xs) (.array ys)
  | object {xs ys : JsonMapping}
      (hkeys : ∀ key, (JsonValue.get? xs key).isSome = (JsonValue.get? ys key).isSome)
      (hfields : ∀ key x y, JsonValue.get? xs key = some x → JsonValue.get? ys key = some y →
        SameJson x y) : SameJson (.object xs) (.object ys)

/-- Somewhere the two values hold different kinds at the same place. -/
inductive KindClash : JsonValue → JsonValue → Prop where
  | here {x y : JsonValue} (hkind : jsonKind x ≠ jsonKind y) : KindClash x y
  | item {xs ys : List JsonValue} {i : ℕ} {x y : JsonValue} (hx : xs[i]? = some x)
      (hy : ys[i]? = some y) (h : KindClash x y) : KindClash (.array xs) (.array ys)
  | field {xs ys : JsonMapping} {key : String} {x y : JsonValue}
      (hx : JsonValue.get? xs key = some x) (hy : JsonValue.get? ys key = some y)
      (h : KindClash x y) : KindClash (.object xs) (.object ys)

mutual

/-- Every boolean is replaced by the number 0 or 1, and every object by the array of its
`[key, value]` pairs in key order. -/
def flattenKinds : JsonValue → JsonValue
  | .bool b => .int (if b then 1 else 0)
  | .array items => .array (flattenItems items)
  | .object items =>
      .array ((sortPairs (flattenFields items)).map fun p => .array [.str p.1, p.2])
  | j => j

def flattenItems : List JsonValue → List JsonValue
  | [] => []
  | x :: xs => flattenKinds x :: flattenItems xs

def flattenFields : JsonMapping → JsonMapping
  | [] => []
  | (k, v) :: rest => (k, flattenKinds v) :: flattenFields rest

end

/-- No object inside repeats a key. -/
inductive DistinctFields : JsonValue → Prop where
  | null : DistinctFields .null
  | bool (b : Bool) : DistinctFields (.bool b)
  | int (i : ℤ) : DistinctFields (.int i)
  | float (d : Dyadic) : DistinctFields (.float d)
  | str (s : String) : DistinctFields (.str s)
  | array {items : List JsonValue} (h : ∀ x ∈ items, DistinctFields x) :
      DistinctFields (.array items)
  | object {items : JsonMapping} (hkeys : (items.map Prod.fst).Nodup)
      (h : ∀ p ∈ items, DistinctFields p.2) : DistinctFields (.object items)

/-- Induction over JSON data with the members of an array or object as hypotheses. -/
@[elab_as_elim]
theorem jsonValue_induction {motive : JsonValue → Prop} (j : JsonValue) (null : motive .null)
    (bool : ∀ b, motive (.bool b)) (int : ∀ i, motive (.int i))
    (float : ∀ d, motive (.float d)) (str : ∀ s, motive (.str s))
    (array : ∀ items, (∀ x ∈ items, motive x) → motive (.array items))
    (object : ∀ items : JsonMapping, (∀ p ∈ items, motive p.2) → motive (.object items)) :
    motive j := by
  induction j using jsonNorm.induct (motive_2 := fun items => ∀ p ∈ items, motive p.2)
    (motive_3 := fun items => ∀ x ∈ items, motive x) with
  | case1 => exact null
  | case2 b => exact bool b
  | case3 i => exact int i
  | case4 d => exact float d
  | case5 s => exact str s
  | case6 items ih => exact array items ih
  | case7 items ih => exact object items ih
  | case8 p hp => cases hp
  | case9 x xs ihx ihxs y hy =>
      rcases List.mem_cons.mp hy with rfl | hy
      · exact ihx
      · exact ihxs y hy
  | case10 p hp => cases hp
  | case11 k v rest ihv ihrest p hp =>
      rcases List.mem_cons.mp hp with rfl | hp
      · exact ihv
      · exact ihrest p hp

/-! ## Flattening -/

@[simp] theorem flattenItems_eq_map (items : List JsonValue) :
    flattenItems items = items.map flattenKinds := by
  induction items with
  | nil => rfl
  | cons x xs ih => simp [flattenItems, ih]

@[simp] theorem flattenFields_eq_map (items : JsonMapping) :
    flattenFields items = items.map fun p => (p.1, flattenKinds p.2) := by
  induction items with
  | nil => rfl
  | cons p rest ih => simp [flattenFields, ih]

/-- Flattening does not change what Python compares. -/
theorem jsonNorm_flattenKinds (j : JsonValue) : jsonNorm (flattenKinds j) = jsonNorm j := by
  induction j using jsonValue_induction with
  | null => rfl
  | bool b => cases b <;> simp [flattenKinds, jsonNorm] <;> rfl
  | int i => rfl
  | float d => rfl
  | str s => rfl
  | array items ih => simpa [flattenKinds] using ih
  | object items ih =>
      have hsort : (sortPairs (items.map fun p => (p.1, flattenKinds p.2))).map
          (fun p => (p.1, jsonNorm p.2)) =
          sortPairs (items.map fun p => (p.1, jsonNorm p.2)) := by
        have hmap : (sortPairs (items.map fun p => (p.1, flattenKinds p.2))).map
            (fun p => (p.1, jsonNorm p.2)) =
            sortPairs ((items.map fun p => (p.1, flattenKinds p.2)).map
              fun p => (p.1, jsonNorm p.2)) :=
          List.map_insertionSort _ _ _ _ fun _ _ _ _ => Iff.rfl
        rw [hmap, List.map_map]
        congr 1
        exact List.map_congr_left fun p hp => Prod.ext rfl (ih p hp)
      rw [jsonNorm_object, ← hsort]
      simp [flattenKinds, Function.comp_def]

/-- Neither a boolean nor an object is inside. -/
inductive Flat : JsonValue → Prop where
  | null : Flat .null
  | int (i : ℤ) : Flat (.int i)
  | float (d : Dyadic) : Flat (.float d)
  | str (s : String) : Flat (.str s)
  | array {items : List JsonValue} (h : ∀ x ∈ items, Flat x) : Flat (.array items)

theorem flat_flattenKinds (j : JsonValue) : Flat (flattenKinds j) := by
  induction j using jsonValue_induction with
  | null => exact .null
  | bool b => exact .int _
  | int i => exact .int i
  | float d => exact .float d
  | str s => exact .str s
  | array items ih =>
      refine .array fun x hx => ?_
      rw [flattenItems_eq_map] at hx
      obtain ⟨y, hy, rfl⟩ := List.mem_map.mp hx
      exact ih y hy
  | object items ih =>
      refine .array fun x hx => ?_
      obtain ⟨p, hp, rfl⟩ := List.mem_map.mp hx
      rw [sortPairs, List.mem_insertionSort, flattenFields_eq_map] at hp
      obtain ⟨q, hq, rfl⟩ := List.mem_map.mp hp
      refine .array fun y hy => ?_
      rcases List.mem_pair.mp hy with rfl | rfl
      · exact .str q.1
      · exact ih q hq

theorem Flat.distinctFields {j : JsonValue} (h : Flat j) : DistinctFields j := by
  induction h with
  | null => exact .null
  | int i => exact .int i
  | float d => exact .float d
  | str s => exact .str s
  | array _ ih => exact .array ih

/-! ## Equality of normal forms -/

theorem jsonNorm_of_number {x : JsonValue} {d : Dyadic} (h : jsonNumber? x = some d) :
    jsonNorm x = .scalar (.num (.finite d)) := by
  cases x with
  | int i => cases h; exact jsonNorm_int i
  | float f => cases h; simp [jsonNorm]
  | _ => cases h

theorem jsonKind_of_number {x : JsonValue} {d : Dyadic} (h : jsonNumber? x = some d) :
    jsonKind x = .number := by
  cases x with
  | int i => rfl
  | float f => rfl
  | _ => cases h

theorem map_jsonNorm_getElem? {xs ys : List JsonValue}
    (h : xs.map jsonNorm = ys.map jsonNorm) {i : ℕ} {x y : JsonValue} (hx : xs[i]? = some x)
    (hy : ys[i]? = some y) : jsonNorm x = jsonNorm y := by
  have hi := congrArg (fun items : List Norm => items[i]?) h
  simpa [hx, hy] using hi

theorem find?_key_of_mem {α : Type} {items : List (String × α)}
    (hitems : (items.map Prod.fst).Nodup) {p : String × α} (hp : p ∈ items) :
    (items.find? fun q => q.1 = p.1) = some p := by
  obtain ⟨q, hq⟩ : ∃ q, items.find? (fun q => q.1 = p.1) = some q := by
    rw [← Option.isSome_iff_exists, List.find?_isSome]
    exact ⟨p, hp, by simp⟩
  have hkey : q.1 = p.1 := by simpa using List.find?_some hq
  rw [hq, List.inj_on_of_nodup_map hitems (List.mem_of_find?_eq_some hq) hp hkey]

/-- Two mappings with distinct keys and the same value under every key sort to one list. -/
theorem sortPairs_eq_of_find? {α : Type} {xs ys : List (String × α)}
    (hxs : (xs.map Prod.fst).Nodup) (hys : (ys.map Prod.fst).Nodup)
    (h : ∀ key, (xs.find? fun p => p.1 = key) = ys.find? fun p => p.1 = key) :
    sortPairs xs = sortPairs ys := by
  have hmem {items : List (String × α)} (hitems : (items.map Prod.fst).Nodup)
      (p : String × α) : p ∈ items ↔ (items.find? fun q => q.1 = p.1) = some p :=
    ⟨find?_key_of_mem hitems, List.mem_of_find?_eq_some⟩
  have hperm : xs.Perm ys := by
    rw [List.perm_ext_iff_of_nodup (.of_map _ hxs) (.of_map _ hys)]
    intro p
    rw [hmem hxs, hmem hys, h]
  have hsorted : (sortPairs xs).Perm (sortPairs ys) :=
    (List.perm_insertionSort ..).trans (hperm.trans (List.perm_insertionSort ..).symm)
  refine hsorted.eq_of_pairwise ?_ (List.pairwise_insertionSort _ _)
    (List.pairwise_insertionSort _ _)
  intro p q hp hq hpq hqp
  rw [sortPairs, List.mem_insertionSort] at hp hq
  exact List.inj_on_of_nodup_map hxs hp (hperm.mem_iff.mpr hq) (le_antisymm hpq hqp)

theorem SameJson.jsonNorm_eq {x y : JsonValue} (h : SameJson x y) (hx : DistinctFields x)
    (hy : DistinctFields y) : jsonNorm x = jsonNorm y := by
  induction h with
  | null => rfl
  | boolean b => rfl
  | number hxd hyd => rw [jsonNorm_of_number hxd, jsonNorm_of_number hyd]
  | string s => rfl
  | @array xs ys hlength hitems ih =>
      cases hx with
      | array hx =>
      cases hy with
      | array hy =>
      rw [jsonNorm_array, jsonNorm_array, Norm.tuple.injEq]
      apply List.ext_getElem
      · simpa using hlength
      · intro i hi hi'
        rw [List.getElem_map, List.getElem_map]
        apply ih i _ _ (List.getElem?_eq_getElem _) (List.getElem?_eq_getElem _)
        · exact hx _ (List.getElem_mem _)
        · exact hy _ (List.getElem_mem _)
  | @object xs ys hkeys hfields ih =>
      cases hx with
      | object hxkeys hx =>
      cases hy with
      | object hykeys hy =>
      have hvalue {items : JsonMapping} (hitems : ∀ p ∈ items, DistinctFields p.2) {key : String}
          {v : JsonValue} (hget : JsonValue.get? items key = some v) : DistinctFields v := by
        obtain ⟨p, hp, rfl⟩ := Option.map_eq_some_iff.mp hget
        exact hitems p (List.mem_of_find?_eq_some hp)
      have hfind (items : JsonMapping) (key : String) :
          ((items.map fun p => (p.1, jsonNorm p.2)).find? fun p => p.1 = key) =
            (JsonValue.get? items key).map fun v => (key, jsonNorm v) := by
        rw [List.find?_map, JsonValue.get?, Option.map_map, Function.comp_def]
        refine Option.map_congr fun p hp => ?_
        have hkey : p.1 = key := by simpa using List.find?_some hp
        simp [hkey]
      rw [jsonNorm_object, jsonNorm_object]
      congr 2
      apply sortPairs_eq_of_find?
      · simpa [Function.comp_def] using hxkeys
      · simpa [Function.comp_def] using hykeys
      · intro key
        rw [hfind, hfind]
        have hpresent := hkeys key
        cases hxv : JsonValue.get? xs key with
        | none =>
            rw [hxv, Option.isSome_none, eq_comm, Option.isSome_eq_false_iff,
              Option.isNone_iff_eq_none] at hpresent
            rw [hpresent]
        | some v =>
            rw [hxv, Option.isSome_some, eq_comm, Option.isSome_iff_exists] at hpresent
            obtain ⟨w, hyw⟩ := hpresent
            rw [hyw, Option.map_some, Option.map_some,
              ih key v w hxv hyw (hvalue hx hxv) (hvalue hy hyw)]

theorem SameJson.not_clash {x y : JsonValue} (h : SameJson x y) : ¬ KindClash x y := by
  induction h with
  | null => intro hclash; cases hclash; contradiction
  | boolean b => intro hclash; cases hclash; contradiction
  | @number x y d hx hy =>
      intro hclash
      cases hclash with
      | here hkind => exact hkind ((jsonKind_of_number hx).trans (jsonKind_of_number hy).symm)
      | item => cases hx
      | field => cases hx
  | string s => intro hclash; cases hclash; contradiction
  | array hlength hitems ih =>
      intro hclash
      cases hclash with
      | here hkind => exact hkind rfl
      | item hx hy h => exact ih _ _ _ hx hy h
  | object hkeys hfields ih =>
      intro hclash
      cases hclash with
      | here hkind => exact hkind rfl
      | field hx hy h => exact ih _ _ _ hx hy h

theorem number_of_jsonKind {x : JsonValue} (h : jsonKind x = .number) :
    ∃ d, jsonNumber? x = some d := by
  cases x with
  | int i => exact ⟨_, rfl⟩
  | float d => exact ⟨d, rfl⟩
  | _ => cases h

theorem SameJson.of_number {x y : JsonValue} (hx : jsonKind x = .number)
    (hy : jsonKind y = .number) (h : jsonNorm x = jsonNorm y) : SameJson x y := by
  obtain ⟨d, hd⟩ := number_of_jsonKind hx
  obtain ⟨e, he⟩ := number_of_jsonKind hy
  rw [jsonNorm_of_number hd, jsonNorm_of_number he] at h
  obtain rfl : d = e := by simpa using h
  exact .number hd he

/-- Where no kinds clash, Python's equality is JSON equality. -/
theorem sameJson_of_jsonNorm_eq {x y : JsonValue} (h : jsonNorm x = jsonNorm y)
    (hclash : ¬ KindClash x y) : SameJson x y := by
  have hkind : jsonKind y = jsonKind x := by
    by_contra hne
    exact hclash (.here (Ne.symm hne))
  induction x using jsonValue_induction generalizing y with
  | null => cases y <;> cases hkind; exact .null
  | bool b =>
      cases y <;> cases hkind
      rename_i b'
      cases b <;> cases b' <;> first | exact .boolean _ | exact absurd h (by decide)
  | int i => exact .of_number rfl hkind h
  | float d => exact .of_number rfl hkind h
  | str s =>
      cases y <;> cases hkind
      rename_i t
      obtain rfl : s = t := by simpa using h
      exact .string s
  | array xs ih =>
      cases y <;> cases hkind
      rename_i ys
      rw [jsonNorm_array, jsonNorm_array, Norm.tuple.injEq] at h
      apply SameJson.array
      · simpa using congrArg List.length h
      · intro i a b ha hb
        have hab : ¬ KindClash a b := fun hc => hclash (.item ha hb hc)
        apply ih a (List.mem_of_getElem? ha) (map_jsonNorm_getElem? h ha hb) hab
        by_contra hne
        exact hab (.here (Ne.symm hne))
  | object xs ih =>
      cases y <;> cases hkind
      rename_i ys
      have hget := get?_of_jsonNorm_eq h
      apply SameJson.object
      · intro key
        have hsome := congrArg Option.isSome (hget key)
        rwa [Option.isSome_map, Option.isSome_map] at hsome
      · intro key a b ha hb
        have hab : ¬ KindClash a b := fun hc => hclash (.field ha hb hc)
        have hnorm := hget key
        rw [ha, hb, Option.map_some, Option.map_some, Option.some.injEq] at hnorm
        obtain ⟨p, hp, rfl⟩ := Option.map_eq_some_iff.mp ha
        apply ih p (List.mem_of_find?_eq_some hp) hnorm hab
        by_contra hne
        exact hab (.here (Ne.symm hne))

/-- Flat values never clash while Python takes them for equal. -/
theorem KindClash.jsonNorm_ne {x y : JsonValue} (h : KindClash x y) (hx : Flat x) (hy : Flat y) :
    jsonNorm x ≠ jsonNorm y := by
  induction h with
  | here hkind =>
      cases hx <;> cases hy <;> first | exact absurd rfl hkind | simp [jsonNorm]
  | item hxi hyi _ ih =>
      cases hx with
      | array hx =>
      cases hy with
      | array hy =>
      intro heq
      rw [jsonNorm_array, jsonNorm_array, Norm.tuple.injEq] at heq
      exact ih (hx _ (List.mem_of_getElem? hxi)) (hy _ (List.mem_of_getElem? hyi))
        (map_jsonNorm_getElem? heq hxi hyi)
  | field => cases hx

/-- What Python takes for equal: the same JSON value once kinds are flattened. -/
theorem sameJson_flattenKinds_iff {x y : JsonValue} :
    SameJson (flattenKinds x) (flattenKinds y) ↔ jsonNorm x = jsonNorm y := by
  rw [← jsonNorm_flattenKinds x, ← jsonNorm_flattenKinds y]
  have hx := flat_flattenKinds x
  have hy := flat_flattenKinds y
  constructor
  · intro h
    exact h.jsonNorm_eq hx.distinctFields hy.distinctFields
  · intro h
    exact sameJson_of_jsonNorm_eq h fun hclash => hclash.jsonNorm_ne hx hy h

/-- JSON equality is Python's equality without a clash of kinds. -/
theorem sameJson_iff {x y : JsonValue} (hx : DistinctFields x) (hy : DistinctFields y) :
    SameJson x y ↔ SameJson (flattenKinds x) (flattenKinds y) ∧ ¬ KindClash x y := by
  rw [sameJson_flattenKinds_iff]
  constructor
  · intro h
    exact ⟨h.jsonNorm_eq hx hy, h.not_clash⟩
  · intro h
    exact sameJson_of_jsonNorm_eq h.1 h.2

/-! ## JSON data as Python values -/

/-- The Python value is this JSON value, with a list or a tuple for every array. -/
inductive HoldsJson : PyValue → JsonValue → Prop where
  | null : HoldsJson .none .null
  | bool (b : Bool) : HoldsJson (.bool b) (.bool b)
  | int (i : ℤ) : HoldsJson (.int i) (.int i)
  | float (d : Dyadic) : HoldsJson (.float (.finite d)) (.float d)
  | str (s : String) : HoldsJson (.str s) (.str s)
  | array {kind : SeqKind} {vs : List PyValue} {xs : List JsonValue}
      (hkind : kind ≠ .canonicalMapping) (hlength : vs.length = xs.length)
      (hitems : ∀ (i : ℕ) v x, vs[i]? = some v → xs[i]? = some x → HoldsJson v x) :
      HoldsJson (.seq kind vs) (.array xs)
  | object {items : List (PyScalar × PyValue)} {fields : JsonMapping}
      (hkeys : items.map Prod.fst = fields.map fun p => .str p.1)
      (hvalues : ∀ (i : ℕ) p f, items[i]? = some p → fields[i]? = some f →
        HoldsJson p.2 f.2) : HoldsJson (.dict items) (.object fields)

theorem canonList_of_items {vs : List PyValue} {xs : List JsonValue}
    (hlength : vs.length = xs.length)
    (h : ∀ (i : ℕ) v x, vs[i]? = some v → xs[i]? = some x →
      ∃ w, canon v = .ok w ∧ w.norm = jsonNorm x) :
    ∃ ws, canonList vs = .ok ws ∧ ws.map PyValue.norm = xs.map jsonNorm := by
  induction vs generalizing xs with
  | nil =>
      cases xs with
      | nil => exact ⟨[], rfl, rfl⟩
      | cons x xs => cases hlength
  | cons v vs ih =>
      cases xs with
      | nil => cases hlength
      | cons x xs =>
          obtain ⟨w, hw, hnorm⟩ := h 0 v x rfl rfl
          obtain ⟨ws, hws, hnorms⟩ := ih (by simpa using hlength)
            fun i v x hv hx => h (i + 1) v x (by simpa using hv) (by simpa using hx)
          exact ⟨w :: ws, by simp [canonList, hw, hws], by simp [hnorm, hnorms]⟩

theorem canonPairs_of_fields {items : List (PyScalar × PyValue)} {fields : JsonMapping}
    (hkeys : items.map Prod.fst = fields.map fun p => .str p.1)
    (h : ∀ (i : ℕ) p f, items[i]? = some p → fields[i]? = some f →
      ∃ w, canon p.2 = .ok w ∧ w.norm = jsonNorm f.2) :
    ∃ ws : List (String × PyValue), canonPairs items = .ok (ws.map strKey) ∧
      ws.map (fun p => (p.1, p.2.norm)) = fields.map fun p => (p.1, jsonNorm p.2) := by
  induction items generalizing fields with
  | nil =>
      cases fields with
      | nil => exact ⟨[], rfl, rfl⟩
      | cons f fields => cases hkeys
  | cons p items ih =>
      cases fields with
      | nil => cases hkeys
      | cons f fields =>
          obtain ⟨k, v⟩ := p
          obtain ⟨hk, hrest⟩ := List.cons.inj hkeys
          obtain ⟨w, hw, hnorm⟩ := h 0 (k, v) f rfl rfl
          obtain ⟨ws, hws, hnorms⟩ := ih hrest
            fun i p f hp hf => h (i + 1) p f (by simpa using hp) (by simpa using hf)
          have hkey : k = .str f.1 := hk
          exact ⟨(f.1, w) :: ws, by simp [canonPairs, hw, hws, strKey, hkey],
            by simp [hnorm, hnorms]⟩

theorem HoldsJson.canon {v : PyValue} {j : JsonValue} (h : HoldsJson v j) :
    ∃ w, canon v = .ok w ∧ w.norm = jsonNorm j := by
  induction h with
  | null => exact canon_toPy .null
  | bool b => exact canon_toPy (.bool b)
  | int i => exact canon_toPy (.int i)
  | float d => exact canon_toPy (.float d)
  | str s => exact canon_toPy (.str s)
  | @array kind vs xs hkind hlength hitems ih =>
      obtain ⟨ws, hws, hnorm⟩ := canonList_of_items hlength ih
      refine ⟨.tuple ws, ?_, by simp [hnorm]⟩
      cases kind with
      | list => simp [Operators.canon, hws]
      | tuple => simp [Operators.canon, hws]
      | canonicalMapping => exact absurd rfl hkind
  | object hkeys hvalues ih =>
      obtain ⟨ws, hws, hnorm⟩ := canonPairs_of_fields hkeys ih
      refine ⟨_, by simp only [Operators.canon, hws, ok_bind, sortByKey_strings]; rfl, ?_⟩
      have hsort : (sortPairs ws).map (fun p => (p.1, p.2.norm)) =
          sortPairs (ws.map fun p => (p.1, p.2.norm)) :=
        List.map_insertionSort _ _ _ ws fun _ _ _ _ => Iff.rfl
      rw [jsonNorm_object, ← hnorm, ← hsort]
      simp [strKey, PyScalar.norm, Function.comp_def]

theorem toPyList_eq_map (items : List JsonValue) :
    JsonValue.toPyList items = items.map JsonValue.toPy := by
  induction items with
  | nil => rfl
  | cons x xs ih => simp [JsonValue.toPyList, ih]

theorem toPyPairs_eq_map (items : JsonMapping) :
    JsonValue.toPyPairs items = items.map fun p => (.str p.1, p.2.toPy) := by
  induction items with
  | nil => rfl
  | cons p rest ih => simp [JsonValue.toPyPairs, ih]

theorem holdsJson_toPy (j : JsonValue) : HoldsJson j.toPy j := by
  induction j using jsonValue_induction with
  | null => exact .null
  | bool b => exact .bool b
  | int i => exact .int i
  | float d => exact .float d
  | str s => exact .str s
  | array items ih =>
      rw [JsonValue.toPy, toPyList_eq_map]
      refine .array (by decide) (List.length_map _) fun i v x hv hx => ?_
      rw [List.getElem?_map, hx] at hv
      obtain rfl := Option.some.inj hv
      exact ih x (List.mem_of_getElem? hx)
  | object items ih =>
      rw [JsonValue.toPy, toPyPairs_eq_map]
      refine .object (by simp) fun i p f hp hf => ?_
      rw [List.getElem?_map, hf] at hp
      obtain rfl := Option.some.inj hp
      exact ih f (List.mem_of_getElem? hf)

/-! ## The equality operators -/

/-- `equals` is satisfied exactly on one JSON value and `not_equals` exactly on two, each
violated otherwise. -/
structure JsonEquality (v w : PyValue) (x y : JsonValue) (tolerance : Option PyFloat) : Prop where
  equals : Decides (evaluatePureOperator .equals v w tolerance) (SameJson x y)
  notEquals : Decides (evaluatePureOperator .notEquals v w tolerance) (¬ SameJson x y)

section Equality

variable {v w : PyValue} {x y : JsonValue} (hv : HoldsJson v x) (hw : HoldsJson w y)
  (tolerance : Option PyFloat)

include hv hw

theorem decides_equals_flatten : Decides (evaluatePureOperator .equals v w tolerance)
    (SameJson (flattenKinds x) (flattenKinds y)) := by
  obtain ⟨v', hv', hx⟩ := hv.canon
  obtain ⟨w', hw', hy⟩ := hw.canon
  apply (decides_equals hv' hw' tolerance).evaluatePureOperator.congr
  rw [sameJson_flattenKinds_iff, hx, hy]

theorem decides_notEquals_flatten : Decides (evaluatePureOperator .notEquals v w tolerance)
    (¬ SameJson (flattenKinds x) (flattenKinds y)) := by
  obtain ⟨v', hv', hx⟩ := hv.canon
  obtain ⟨w', hw', hy⟩ := hw.canon
  apply (decides_notEquals hv' hw' tolerance).evaluatePureOperator.congr
  rw [sameJson_flattenKinds_iff, hx, hy]

end Equality

theorem Decides.iff {o : Except PyError OperatorOutcome} {p q : Prop} (hp : Decides o p)
    (hq : Decides o q) : p ↔ q :=
  ⟨fun h => hq.of_satisfied (hp.satisfied h), fun h => hp.of_satisfied (hq.satisfied h)⟩

/-- `equals` and `not_equals` are JSON equality and its negation, unless the two values hold
different kinds at some place and are yet the same once kinds are flattened. -/
theorem jsonEquality_iff {v w : PyValue} {x y : JsonValue} (hv : HoldsJson v x)
    (hw : HoldsJson w y) (hx : DistinctFields x) (hy : DistinctFields y)
    (tolerance : Option PyFloat) :
    JsonEquality v w x y tolerance ↔
      ¬ (KindClash x y ∧ SameJson (flattenKinds x) (flattenKinds y)) := by
  have heq := decides_equals_flatten hv hw tolerance
  have hne := decides_notEquals_flatten hv hw tolerance
  have hsame := sameJson_iff hx hy
  constructor
  · intro h hclash
    exact (hsame.mp ((heq.iff h.equals).mp hclash.2)).2 hclash.1
  · intro h
    have hiff : SameJson (flattenKinds x) (flattenKinds y) ↔ SameJson x y := by
      rw [hsame]
      exact ⟨fun hflat => ⟨hflat, fun hclash => h ⟨hclash, hflat⟩⟩, fun hboth => hboth.1⟩
    exact ⟨heq.congr hiff, hne.congr (not_congr hiff)⟩

/-- A record against the array of its pairs. -/
theorem jsonEquality_record_pairs :
    JsonEquality (.dict [(.str "fqn", .str "pkg.f")]) (.list [.list [.str "fqn", .str "pkg.f"]])
      (.object [("fqn", .str "pkg.f")]) (.array [.array [.str "fqn", .str "pkg.f"]]) none ↔
      ¬ (KindClash (.object [("fqn", .str "pkg.f")]) (.array [.array [.str "fqn", .str "pkg.f"]]) ∧
        SameJson (flattenKinds (.object [("fqn", .str "pkg.f")]))
          (flattenKinds (.array [.array [.str "fqn", .str "pkg.f"]]))) := by
  apply jsonEquality_iff (holdsJson_toPy (.object [("fqn", .str "pkg.f")]))
    (holdsJson_toPy (.array [.array [.str "fqn", .str "pkg.f"]]))
  · exact .object (by decide) (by simpa using .str "pkg.f")
  · refine .array fun x hx => ?_
    obtain rfl := List.mem_singleton.mp hx
    exact .array (by simpa using ⟨.str "fqn", .str "pkg.f"⟩)

/-- A lock of a count to 1 holds of the count and of `true`. -/
theorem true_equals_one : ¬ JsonEquality (.int 1) (.bool true) (.int 1) (.bool true) none := by
  intro h
  have hsame : SameJson (.int 1) (.bool true) := by
    apply h.equals.of_satisfied
    exact ⟨_, rfl, rfl, rfl⟩
  exact hsame.not_clash (.here (by decide))

end SemanticCi.Operators
