import SemanticCi.Model.RepairSerialization
import SemanticCi.Verification.JsonEquality

/-! Evidence in its canonical form: what canonicalization makes of JSON data, how it is written
as JSON, and what is restored from there. -/

namespace SemanticCi.Repair

open SemanticCi.Python SemanticCi.Operators SemanticCi.Report ExceptRules

/-! ## Canonical values -/

/-- A field of a mapping in the tuple encoding. -/
def fieldTuple (field : String × PyValue) : PyValue := .tuple [.str field.1, field.2]

/-- The tuple encoding of JSON data: tuples for the arrays, and for an object the marked tuple
of its fields in key order. -/
inductive Encoded : PyValue → Prop where
  | scalar (s : PyScalar) : Encoded (.scalar s)
  | tuple {items : List PyValue} (h : ∀ x ∈ items, Encoded x) : Encoded (.tuple items)
  | mapping {fields : List (String × PyValue)} (hkeys : (fields.map Prod.fst).Pairwise (· < ·))
      (h : ∀ f ∈ fields, Encoded f.2) : Encoded (.seq .canonicalMapping (fields.map fieldTuple))

theorem encoded_fieldTuple {field : String × PyValue} (h : Encoded field.2) :
    Encoded (fieldTuple field) := by
  refine .tuple fun x hx => ?_
  simp only [List.mem_cons, List.not_mem_nil, or_false] at hx
  rcases hx with rfl | rfl
  · exact .scalar _
  · exact h

theorem nodup_of_sorted {α : Type} {fields : List (String × α)}
    (h : (fields.map Prod.fst).Pairwise (· < ·)) : (fields.map Prod.fst).Nodup :=
  h.imp ne_of_lt

theorem canonList_of_fixed {items : List PyValue} (h : ∀ x ∈ items, canon x = .ok x) :
    canonList items = .ok items := by
  rw [canonList_eq_ok_iff]
  exact List.forall₂_same.mpr h

/-- Canonicalizing again changes nothing. -/
theorem Encoded.canon_eq {w : PyValue} (h : Encoded w) : canon w = .ok w := by
  induction h with
  | scalar s => rfl
  | tuple h ih =>
      simp only [canon, canonList_of_fixed ih, ok_bind]
      rfl
  | @mapping fields hkeys h ih =>
      have hfields : ∀ x ∈ fields.map fieldTuple, canon x = .ok x := by
        intro x hx
        obtain ⟨f, hf, rfl⟩ := List.mem_map.mp hx
        simp only [fieldTuple, canon, canonList, ih f hf, ok_bind, pure_eq_ok]
      simp only [canon, canonList_of_fixed hfields, ok_bind, pure_eq_ok]

/-- The members of a collection are encoded too. -/
theorem Encoded.members {w : PyValue} (h : Encoded w) {members : List PyValue}
    (hmembers : collectionMembers w = some members) : ∀ x ∈ members, Encoded x := by
  cases h with
  | scalar s => cases hmembers
  | tuple h =>
      cases hmembers
      exact h
  | mapping hkeys h =>
      cases hmembers
      intro x hx
      obtain ⟨f, hf, rfl⟩ := List.mem_map.mp hx
      exact encoded_fieldTuple (h f hf)

/-! ## The JSON form -/

theorem jsonCanonicalValues_eq_map (items : List PyValue) :
    jsonCanonicalValues items = items.map jsonCanonicalValue := by
  induction items with
  | nil => rfl
  | cons x xs ih => simp [jsonCanonicalValues, ih]

theorem jsonCanonicalPairs_eq_map (items : List (PyScalar × PyValue)) :
    jsonCanonicalPairs items = items.map fun item => (item.1, jsonCanonicalValue item.2) := by
  induction items with
  | nil => rfl
  | cons p rest ih => simp [jsonCanonicalPairs, ih]

theorem jsonCanonicalItems_fields (fields : List (String × PyValue)) :
    jsonCanonicalItems (fields.map fieldTuple) =
      fields.map fun f => (f.1, jsonCanonicalValue f.2) := by
  induction fields with
  | nil => rfl
  | cons f fields ih => simp [fieldTuple, jsonCanonicalItems, keyText, ih]

theorem dictOf_eq {entries : List (String × PyValue)} (h : (entries.map Prod.fst).Nodup) :
    dictOf entries = textDict entries := by
  rw [dictOf, OrderedDict.entries_ofPairs h, textDict]

@[simp] theorem json_tuple (items : List PyValue) :
    jsonCanonicalValue (.tuple items) = .list (items.map jsonCanonicalValue) := by
  rw [jsonCanonicalValue, jsonCanonicalValues_eq_map]
  simp

/-- A marked tuple is written as an object. -/
theorem json_mapping {fields : List (String × PyValue)} (h : (fields.map Prod.fst).Nodup) :
    jsonCanonicalValue (.seq .canonicalMapping (fields.map fieldTuple)) =
      textDict (fields.map fun f => (f.1, jsonCanonicalValue f.2)) := by
  rw [jsonCanonicalValue, jsonCanonicalItems_fields, dictOf_eq]
  simpa [Function.comp_def] using h

theorem json_textDict (entries : List (String × PyValue)) :
    jsonCanonicalValue (textDict entries) =
      textDict (entries.map fun entry => (entry.1, jsonCanonicalValue entry.2)) := by
  simp [textDict, jsonCanonicalValue, jsonCanonicalPairs_eq_map, Function.comp_def]

/-! ## Restoring -/

/-- The restored value is written in the same way again. -/
def Restores (j : PyValue) : Prop :=
  ∃ r, restoreJson j = .ok r ∧ jsonCanonicalValue r = j

theorem restoreList_of_restores (js : List PyValue) (h : ∀ j ∈ js, Restores j) :
    ∃ rs, restoreList js = .ok rs ∧ rs.map jsonCanonicalValue = js := by
  induction js with
  | nil => exact ⟨[], rfl, rfl⟩
  | cons j js ih =>
      obtain ⟨hj, hjs⟩ := List.forall_mem_cons.mp h
      obtain ⟨r, hr, hrj⟩ := hj
      obtain ⟨rs, hrs, hrsj⟩ := ih hjs
      exact ⟨r :: rs, by simp [restoreList, hr, hrs], by simp [hrj, hrsj]⟩

theorem restorePairs_of_restores (entries : List (String × PyValue))
    (h : ∀ entry ∈ entries, Restores entry.2) : ∃ rs : List (String × PyValue),
      restorePairs (entries.map strKey) = .ok (rs.map strKey) ∧
        rs.map (fun r => (r.1, jsonCanonicalValue r.2)) = entries := by
  induction entries with
  | nil => exact ⟨[], rfl, rfl⟩
  | cons entry entries ih =>
      obtain ⟨hentry, hentries⟩ := List.forall_mem_cons.mp h
      obtain ⟨r, hr, hrj⟩ := hentry
      obtain ⟨rs, hrs, hrsj⟩ := ih hentries
      exact ⟨(entry.1, r) :: rs, by simp [strKey, restorePairs, hr, hrs], by simp [hrj, hrsj]⟩

/-- Fields in key order are left there. -/
theorem sortPairs_of_sorted {α : Type} {fields : List (String × α)}
    (h : (fields.map Prod.fst).Pairwise (· < ·)) : sortPairs fields = fields := by
  rw [List.pairwise_map] at h
  exact List.Pairwise.insertionSort_eq (h.imp fun hlt => le_of_lt hlt)

theorem sortedItems_of_sorted {α : Type} (fields : List (String × α))
    (h : (fields.map Prod.fst).Pairwise (· < ·)) :
    sortedItems (fields.map strKey) = .ok (fields.map strKey) := by
  rw [sortedItems, sortByKey_strings, sortPairs_of_sorted h]

theorem Encoded.restores {w : PyValue} (h : Encoded w) : Restores (jsonCanonicalValue w) := by
  induction h with
  | scalar s => exact ⟨.scalar s, rfl, rfl⟩
  | @tuple items h ih =>
      obtain ⟨rs, hrs, hrsj⟩ := restoreList_of_restores (items.map jsonCanonicalValue)
        (List.forall_mem_map.mpr ih)
      exact ⟨.tuple rs, by simp [restoreJson, hrs], by rw [json_tuple, json_tuple, hrsj]⟩
  | @mapping fields hkeys h ih =>
      have hnodup := nodup_of_sorted hkeys
      obtain ⟨rs, hrs, hrsj⟩ :=
        restorePairs_of_restores (fields.map fun f => (f.1, jsonCanonicalValue f.2))
          (List.forall_mem_map.mpr ih)
      have hrkeys : rs.map Prod.fst = fields.map Prod.fst := by
        have hfst := congrArg (List.map Prod.fst) hrsj
        simpa [Function.comp_def] using hfst
      have hsorted := sortedItems_of_sorted rs (hrkeys ▸ hkeys : (rs.map Prod.fst).Pairwise (· < ·))
      refine ⟨textDict rs, ?_, ?_⟩
      · rw [json_mapping hnodup, textDict, restoreJson]
        have hentries : (fields.map fun f => (f.1, jsonCanonicalValue f.2)).map
            (fun entry => (PyScalar.str entry.1, entry.2)) =
            (fields.map fun f => (f.1, jsonCanonicalValue f.2)).map strKey := rfl
        rw [hentries, hrs, ok_bind, hsorted, ok_bind, pure_eq_ok]
        have hback : (rs.map strKey).map (fun item => (keyText item.1, item.2)) = rs := by
          simp [strKey, keyText, Function.comp_def]
        rw [hback, dictOf_eq (hrkeys ▸ hnodup)]
      · rw [json_textDict, hrsj, json_mapping hnodup]

/-! ## JSON data -/

mutual

/-- The value with the fields of every object in key order. -/
def sortKeys : JsonValue → JsonValue
  | .array items => .array (sortKeysItems items)
  | .object fields => .object (sortPairs (sortKeysFields fields))
  | j => j

def sortKeysItems : List JsonValue → List JsonValue
  | [] => []
  | x :: xs => sortKeys x :: sortKeysItems xs

def sortKeysFields : JsonMapping → JsonMapping
  | [] => []
  | (k, v) :: rest => (k, sortKeys v) :: sortKeysFields rest

end

theorem sortKeysItems_eq_map (items : List JsonValue) :
    sortKeysItems items = items.map sortKeys := by
  induction items with
  | nil => rfl
  | cons x xs ih => simp [sortKeysItems, ih]

theorem sortKeysFields_eq_map (fields : JsonMapping) :
    sortKeysFields fields = fields.map fun f => (f.1, sortKeys f.2) := by
  induction fields with
  | nil => rfl
  | cons f rest ih => simp [sortKeysFields, ih]

/-- How a value is shown in the JSON of a plan. -/
def shown (j : JsonValue) : PyValue := (sortKeys j).toPy

@[simp] theorem shown_array (items : List JsonValue) :
    shown (.array items) = .list (items.map shown) := by
  simp [shown, sortKeys, sortKeysItems_eq_map, JsonValue.toPy, toPyList_eq_map,
    Function.comp_def]

theorem map_sortPairs {α β : Type} (g : α → β) (fields : List (String × α)) :
    (sortPairs fields).map (fun f => (f.1, g f.2)) =
      sortPairs (fields.map fun f => (f.1, g f.2)) :=
  List.map_insertionSort _ _ _ fields fun _ _ _ _ => Iff.rfl

theorem shown_object (fields : JsonMapping) :
    shown (.object fields) = textDict (sortPairs (fields.map fun f => (f.1, shown f.2))) := by
  have hsort : sortPairs (fields.map fun f => (f.1, shown f.2)) =
      (sortPairs (fields.map fun f => (f.1, sortKeys f.2))).map fun f => (f.1, f.2.toPy) := by
    rw [map_sortPairs, List.map_map]
    rfl
  rw [hsort]
  simp [shown, sortKeys, sortKeysFields_eq_map, JsonValue.toPy, toPyPairs_eq_map, textDict,
    Function.comp_def]

theorem exists_canonList {P : PyValue → JsonValue → Prop} {vs : List PyValue}
    {xs : List JsonValue} (hlength : vs.length = xs.length)
    (h : ∀ (i : ℕ) v x, vs[i]? = some v → xs[i]? = some x → ∃ w, canon v = .ok w ∧ P w x) :
    ∃ ws, canonList vs = .ok ws ∧ List.Forall₂ P ws xs := by
  induction vs generalizing xs with
  | nil =>
      cases xs with
      | nil => exact ⟨[], rfl, .nil⟩
      | cons x xs => cases hlength
  | cons v vs ih =>
      cases xs with
      | nil => cases hlength
      | cons x xs =>
          obtain ⟨w, hw, hwx⟩ := h 0 v x rfl rfl
          obtain ⟨ws, hws, hwsx⟩ := ih (by simpa using hlength)
            fun i v x hv hx => h (i + 1) v x (by simpa using hv) (by simpa using hx)
          exact ⟨w :: ws, by simp [canonList, hw, hws], .cons hwx hwsx⟩

theorem exists_canonPairs {P : PyValue → JsonValue → Prop} {items : List (PyScalar × PyValue)}
    {fields : JsonMapping} (hkeys : items.map Prod.fst = fields.map fun f => .str f.1)
    (h : ∀ (i : ℕ) p f, items[i]? = some p → fields[i]? = some f →
      ∃ w, canon p.2 = .ok w ∧ P w f.2) :
    ∃ ws : List (String × PyValue), canonPairs items = .ok (ws.map strKey) ∧
      List.Forall₂ (fun w f => w.1 = f.1 ∧ P w.2 f.2) ws fields := by
  induction items generalizing fields with
  | nil =>
      cases fields with
      | nil => exact ⟨[], rfl, .nil⟩
      | cons f fields => cases hkeys
  | cons p items ih =>
      cases fields with
      | nil => cases hkeys
      | cons f fields =>
          obtain ⟨k, v⟩ := p
          obtain ⟨hk, hrest⟩ := List.cons.inj hkeys
          obtain ⟨w, hw, hwf⟩ := h 0 (k, v) f rfl rfl
          obtain ⟨ws, hws, hwsf⟩ := ih hrest
            fun i p f hp hf => h (i + 1) p f (by simpa using hp) (by simpa using hf)
          have hkey : k = .str f.1 := hk
          exact ⟨(f.1, w) :: ws, by simp [canonPairs, hw, hws, strKey, hkey],
            .cons ⟨rfl, hwf⟩ hwsf⟩

theorem sortPairs_perm {α : Type} (fields : List (String × α)) :
    (sortPairs fields).Perm fields := List.perm_insertionSort _ _

theorem sorted_sortPairs {α : Type} {fields : List (String × α)}
    (h : (fields.map Prod.fst).Nodup) :
    ((sortPairs fields).map Prod.fst).Pairwise (· < ·) := by
  have hle : ((sortPairs fields).map Prod.fst).Pairwise (· ≤ ·) := by
    rw [List.pairwise_map]
    exact List.pairwise_insertionSort _ _
  have hne : ((sortPairs fields).map Prod.fst).Nodup :=
    ((sortPairs_perm fields).map Prod.fst).nodup_iff.mpr h
  exact hle.imp₂ (fun _ _ hle hne => lt_of_le_of_ne hle hne) hne

/-- The canonical value of JSON data, encoded, and shown as it is. -/
structure Encodes (w : PyValue) (j : JsonValue) : Prop where
  encoded : Encoded w
  json : jsonCanonicalValue w = shown j
  norm : w.norm = jsonNorm j

theorem encodes_object {ws : List (String × PyValue)} {fields : JsonMapping}
    (hkeys : (fields.map Prod.fst).Nodup)
    (h : List.Forall₂ (fun w f => w.1 = f.1 ∧ (Encoded w.2 ∧ jsonCanonicalValue w.2 = shown f.2))
      ws fields) :
    Encoded (.seq .canonicalMapping ((sortPairs ws).map fieldTuple)) ∧
      jsonCanonicalValue (.seq .canonicalMapping ((sortPairs ws).map fieldTuple)) =
        shown (.object fields) := by
  have hnames : ws.map Prod.fst = fields.map Prod.fst :=
    (map_eq_of_forall₂ (fun _ _ hwf => hwf.1.symm) h).symm
  have hentries : ws.map (fun w => (w.1, jsonCanonicalValue w.2)) =
      fields.map fun f => (f.1, shown f.2) :=
    (map_eq_of_forall₂ (fun w f hwf => by rw [hwf.1, hwf.2.2]) h).symm
  have hsorted := sorted_sortPairs (hnames ▸ hkeys : (ws.map Prod.fst).Nodup)
  constructor
  · refine .mapping hsorted fun f hf => ?_
    obtain ⟨g, -, hfg⟩ := exists_of_mem_forall₂ h.flip ((sortPairs_perm ws).mem_iff.mp hf)
    exact hfg.2.1
  · rw [json_mapping (nodup_of_sorted hsorted), shown_object, ← hentries, map_sortPairs]

theorem encodes_of_holdsJson {v : PyValue} {j : JsonValue} (h : HoldsJson v j)
    (hdistinct : DistinctFields j) : ∃ w, canon v = .ok w ∧ Encodes w j := by
  have hencoded : ∃ w, canon v = .ok w ∧ (Encoded w ∧ jsonCanonicalValue w = shown j) := by
    induction h with
    | null => exact ⟨_, rfl, .scalar _, rfl⟩
    | bool b => exact ⟨_, rfl, .scalar _, rfl⟩
    | int i => exact ⟨_, rfl, .scalar _, rfl⟩
    | float d => exact ⟨_, rfl, .scalar _, rfl⟩
    | str s => exact ⟨_, rfl, .scalar _, rfl⟩
    | @array kind vs xs hkind hlength hitems ih =>
        cases hdistinct with
        | array hdistinct =>
            obtain ⟨ws, hws, hwsx⟩ := exists_canonList hlength fun i v x hv hx =>
              ih i v x hv hx (hdistinct x (List.mem_of_getElem? hx))
            have hcanon : canon (.seq kind vs) = .ok (.tuple ws) := by
              cases kind with
              | list => simp [canon, hws]
              | tuple => simp [canon, hws]
              | canonicalMapping => exact absurd rfl hkind
            refine ⟨.tuple ws, hcanon, .tuple fun w hw => ?_, ?_⟩
            · obtain ⟨x, -, hwx⟩ := exists_of_mem_forall₂ hwsx.flip hw
              exact hwx.1
            · rw [json_tuple, shown_array,
                map_eq_of_forall₂ (g := shown) (fun w x hwx => hwx.2.symm) hwsx]
    | object hkeys hvalues ih =>
        cases hdistinct with
        | object hnodup hdistinct =>
            obtain ⟨ws, hws, hwsf⟩ := exists_canonPairs
              (P := fun w j => Encoded w ∧ jsonCanonicalValue w = shown j) hkeys
              fun i p f hp hf => ih i p f hp hf (hdistinct f (List.mem_of_getElem? hf))
            refine ⟨_, ?_, encodes_object hnodup hwsf⟩
            simp only [canon, hws, ok_bind, sortByKey_strings, pure_eq_ok, List.map_map]
            rfl
  obtain ⟨w, hw, hencoded, hjson⟩ := hencoded
  obtain ⟨w', hw', hnorm⟩ := h.canon
  rw [hw] at hw'
  obtain rfl := Except.ok.inj hw'
  exact ⟨w, hw, hencoded, hjson, hnorm⟩

end SemanticCi.Repair
