import SemanticCi.Verification.Repair.PlanJson

/-! Objects and arrays of the evidence in the JSON of a plan: they are kept apart unless a set
operator takes an object for the collection of its pairs, or meets an array and an object that
Python holds for equal. -/

namespace SemanticCi.Repair

open SemanticCi.Python SemanticCi.Framework SemanticCi.Compiler SemanticCi.Operators
  SemanticCi.Evaluator SemanticCi.Report ExceptRules

/-! ## Kept kinds -/

mutual

/-- The arrays and objects of a JSON value, without its scalars. -/
def skeleton : PyValue → PyValue
  | .seq kind items => .seq kind (skeletonItems items)
  | .dict items => .dict (skeletonPairs items)
  | _ => .none

def skeletonItems : List PyValue → List PyValue
  | [] => []
  | x :: xs => skeleton x :: skeletonItems xs

def skeletonPairs : List (PyScalar × PyValue) → List (PyScalar × PyValue)
  | [] => []
  | (k, v) :: rest => (k, skeleton v) :: skeletonPairs rest

end

/-- The two values are equal for Python, and hold arrays and objects at the same places. -/
def SameContainers (x y : JsonValue) : Prop := skeleton (shown x) = skeleton (shown y)

/-- The items of an array, each as it is or by an equal item of the same kinds. -/
structure KeptItems (xs : List JsonValue) (outs : List PyValue) : Prop where
  sound : ∀ o ∈ outs, ∃ z ∈ xs, o = shown z
  complete : ∀ z ∈ xs, ∃ z' ∈ xs, shown z' ∈ outs ∧ EqualValues z' z ∧ SameContainers z' z

/-- The JSON shows the value as it is, or an array by its items. -/
inductive Keeps : JsonValue → PyValue → Prop where
  | same (x : JsonValue) : Keeps x (shown x)
  | items {xs : List JsonValue} {outs : List PyValue} (h : KeptItems xs outs) :
      Keeps (.array xs) (.list outs)

/-- An item of one of two arrays, or a pair of their items. -/
def DetailItem (x y : JsonValue) (o : PyValue) : Prop :=
  (∃ xs, (x = .array xs ∨ y = .array xs) ∧ ∃ z ∈ xs, o = shown z) ∨
    ∃ xs ys, x = .array xs ∧ y = .array ys ∧ ∃ e ∈ ys, ∃ r ∈ xs,
      o = textDict [("expected_item", shown e), ("observed_record", shown r)]

/-- What the JSON under a key of the evidence keeps of the two operands. -/
structure EntryKept (operator : Operator) (x y : JsonValue) (key : String) (out : PyValue) :
    Prop where
  left : key = (operandNames operator).1 → Keeps x out
  right : key = (operandNames operator).2 → Keeps y out
  detail : key ∈ detailKeys → ∃ outs, out = .list outs ∧ ∀ o ∈ outs, DetailItem x y o

/-- The kinds of the operands are kept in the instruction of a result. -/
def KindsKept (r : ConstraintResult) (operands : Option (JsonValue × JsonValue))
    (payload : PyValue) : Prop :=
  ∀ x y, operands = some (x, y) → ∀ item ∈ r.evidence,
    ∃ out, jsonEvidence payload item.1 = some out ∧ EntryKept r.operator x y item.1 out

/-! ## Items of an operand -/

/-- No two equal items of the array hold an array and an object at the same place. -/
def Unmixed (xs : List JsonValue) : Prop :=
  ∀ a ∈ xs, ∀ b ∈ xs, EqualValues a b → SameContainers a b

def Uniform (x : JsonValue) : Prop := ∃ xs, x = .array xs ∧ Unmixed xs

def IsContainer : JsonValue → Prop
  | .array _ | .object _ => True
  | _ => False

/-- A set operator compares the two values by their items. -/
def Collects (operator : Operator) (x y : JsonValue) : Prop :=
  operator ∈ setOperators ∧ IsContainer x ∧ IsContainer y

theorem sortPairs_sortPairs {α : Type} (fields : List (String × α)) :
    sortPairs (sortPairs fields) = sortPairs fields :=
  List.Pairwise.insertionSort_eq (List.pairwise_insertionSort _ _)

theorem jsonNorm_sortKeys (j : JsonValue) : jsonNorm (sortKeys j) = jsonNorm j := by
  induction j using jsonValue_induction with
  | array items ih =>
      rw [sortKeys, sortKeysItems_eq_map, jsonNorm_array, jsonNorm_array, List.map_map]
      exact congrArg Norm.tuple (List.map_congr_left ih)
  | object fields ih =>
      have hfields : (fields.map fun f => (f.1, sortKeys f.2)).map (fun f => (f.1, jsonNorm f.2)) =
          fields.map fun f => (f.1, jsonNorm f.2) := by
        rw [List.map_map]
        exact List.map_congr_left fun f hf => by simp [ih f hf]
      rw [sortKeys, sortKeysFields_eq_map, jsonNorm_object, jsonNorm_object, map_sortPairs,
        hfields, sortPairs_sortPairs]
  | _ => simp [sortKeys]

/-- Values that are shown alike are equal. -/
theorem equalValues_of_shown {a b : JsonValue} (h : shown a = shown b) : EqualValues a b := by
  have hnorm (j : JsonValue) : ∃ w, canon (shown j) = .ok w ∧ w.norm = jsonNorm j := by
    rw [← jsonNorm_sortKeys]
    exact canon_toPy _
  obtain ⟨w, hw, hwa⟩ := hnorm a
  obtain ⟨w', hw', hwb⟩ := hnorm b
  rw [h, hw'] at hw
  rw [equalValues_iff, ← hwa, ← hwb, Except.ok.inj hw]

theorem mem_of_map_eq {α β γ δ : Type*} {f : α → γ} {g : β → γ} {f' : α → δ} {g' : β → δ}
    {xs : List α} {ys : List β} (h : xs.map f = ys.map g) (h' : xs.map f' = ys.map g') :
    (∀ x ∈ xs, ∃ y ∈ ys, f x = g y ∧ f' x = g' y) ∧
      ∀ y ∈ ys, ∃ x ∈ xs, f x = g y ∧ f' x = g' y := by
  induction xs generalizing ys with
  | nil =>
      cases ys with
      | nil => simp
      | cons y ys => cases h
  | cons x xs ih =>
      cases ys with
      | nil => cases h
      | cons y ys =>
          obtain ⟨hhead, htail⟩ := List.cons.inj h
          obtain ⟨hhead', htail'⟩ := List.cons.inj h'
          obtain ⟨hxs, hys⟩ := ih htail htail'
          constructor
          · refine List.forall_mem_cons.mpr ⟨⟨y, by simp, hhead, hhead'⟩, fun z hz => ?_⟩
            obtain ⟨u, hu, hzu⟩ := hxs z hz
            exact ⟨u, List.mem_cons_of_mem _ hu, hzu⟩
          · refine List.forall_mem_cons.mpr ⟨⟨x, by simp, hhead, hhead'⟩, fun z hz => ?_⟩
            obtain ⟨u, hu, hzu⟩ := hys z hz
            exact ⟨u, List.mem_cons_of_mem _ hu, hzu⟩

/-- The items of an encoded array. -/
theorem itemsOf_array {w : PyValue} {xs : List JsonValue} (h : Encodes w (.array xs)) :
    ∃ members, w = .tuple members ∧
      (∀ m ∈ members, ∃ z ∈ xs, jsonCanonicalValue m = shown z ∧ m.norm = jsonNorm z) ∧
      ∀ z ∈ xs, ∃ m ∈ members, jsonCanonicalValue m = shown z ∧ m.norm = jsonNorm z := by
  obtain ⟨hencoded, hjson, hnorm⟩ := h
  cases hencoded with
  | scalar s => simp at hnorm
  | @tuple members hmembers =>
      rw [json_tuple, shown_array] at hjson
      obtain ⟨-, hjsons⟩ := PyValue.seq.inj hjson
      rw [norm_seq, jsonNorm_array] at hnorm
      exact ⟨members, rfl, mem_of_map_eq hjsons (Norm.tuple.inj hnorm)⟩
  | mapping hkeys hfields =>
      rw [json_mapping (nodup_of_sorted hkeys), shown_array, textDict] at hjson
      cases hjson

theorem isContainer_iff {w : PyValue} {x : JsonValue} (h : Encodes w x) :
    (itemsOf w).isSome ↔ IsContainer x := by
  obtain ⟨hencoded, -, hnorm⟩ := h
  rw [itemsOf, Option.isSome_map]
  cases hencoded with
  | scalar s => cases x <;> simp [collectionMembers, IsContainer, jsonNorm] at hnorm ⊢
  | tuple hitems => cases x <;> simp [collectionMembers, IsContainer, jsonNorm] at hnorm ⊢
  | mapping hkeys hfields => cases x <;> simp [collectionMembers, IsContainer, jsonNorm] at hnorm ⊢

theorem eq_of_norm_dedupValues {items : List PyValue} {a b : PyValue}
    (ha : a ∈ dedupValues items) (hb : b ∈ dedupValues items) (h : a.norm = b.norm) : a = b := by
  induction items with
  | nil => cases ha
  | cons x xs ih =>
      simp only [dedupValues, List.mem_cons, List.mem_filter, Bool.not_eq_true',
        PyValue.eq_eq_false_iff] at ha hb
      rcases ha with rfl | ⟨ha, hax⟩
      · rcases hb with rfl | ⟨hb, hbx⟩
        · rfl
        · exact absurd h.symm hbx
      · rcases hb with rfl | ⟨hb, hbx⟩
        · exact absurd h hax
        · exact ih ha hb

/-- The JSON of the items that a set operator shows. -/
def shownItems (ls : List PyValue) : List PyValue := (sortedValues ls).map jsonCanonicalValue

theorem json_sortedValues (ls : List PyValue) :
    jsonCanonicalValue (.tuple (sortedValues ls)) = .list (shownItems ls) := json_tuple _

theorem mem_shownItems {ls : List PyValue} {o : PyValue} :
    o ∈ shownItems ls ↔ ∃ d ∈ ls, jsonCanonicalValue d = o := by
  simp [shownItems, sortedValues, List.mem_insertionSort]

section Items

variable {w : PyValue} {xs : List JsonValue} {ls : List PyValue}

theorem mem_itemsOf {members : List PyValue} (h : itemsOf (.tuple members) = some ls)
    (d : PyValue) : d ∈ ls ↔ d ∈ dedupValues members := by
  have hls : ls = sortedValues (dedupValues members) := (Option.some.inj h).symm
  rw [hls, sortedValues, List.mem_insertionSort]

/-- Every item that is shown is one of the array. -/
theorem shownItems_sound (h : Encodes w (.array xs)) (hls : itemsOf w = some ls) :
    ∀ d ∈ ls, ∃ z ∈ xs, jsonCanonicalValue d = shown z ∧ d.norm = jsonNorm z := by
  obtain ⟨members, rfl, hsound, -⟩ := itemsOf_array h
  intro d hd
  exact hsound d (dedupValues_subset _ ((mem_itemsOf hls d).mp hd))

/-- Of equal items one is shown. -/
theorem shownItems_complete (h : Encodes w (.array xs)) (hls : itemsOf w = some ls)
    {z : JsonValue} (hz : z ∈ xs) : ∃ d ∈ ls, d.norm = jsonNorm z := by
  obtain ⟨members, rfl, -, hcomplete⟩ := itemsOf_array h
  obtain ⟨m, hm, -, hnorm⟩ := hcomplete z hz
  obtain ⟨d, hd, hdm⟩ := (exists_mem_dedupValues members (jsonNorm z)).mpr ⟨m, hm, hnorm⟩
  exact ⟨d, (mem_itemsOf hls d).mpr hd, hdm⟩

theorem shownItems_unique (h : Encodes w (.array xs)) (hls : itemsOf w = some ls)
    {d d' : PyValue} (hd : d ∈ ls) (hd' : d' ∈ ls) (hnorm : d.norm = d'.norm) : d = d' := by
  obtain ⟨members, rfl, -, -⟩ := itemsOf_array h
  exact eq_of_norm_dedupValues ((mem_itemsOf hls d).mp hd) ((mem_itemsOf hls d').mp hd') hnorm

theorem keptItems_iff (h : Encodes w (.array xs)) (hls : itemsOf w = some ls) :
    KeptItems xs (shownItems ls) ↔ Unmixed xs := by
  constructor
  · intro hkept a ha b hb hab
    -- The item shown for `a` and the one shown for `b` are one, since they are equal.
    have hrepresentative : ∀ z ∈ xs, ∃ z' d, shown z' = jsonCanonicalValue d ∧ d ∈ ls ∧
        d.norm = jsonNorm z ∧ SameContainers z' z := by
      intro z hz
      obtain ⟨z', -, hmem, hequal, hsame⟩ := hkept.complete z hz
      obtain ⟨d, hd, hjson⟩ := mem_shownItems.mp hmem
      obtain ⟨u, -, hu, hnorm⟩ := shownItems_sound h hls d hd
      have hz' : EqualValues u z' := equalValues_of_shown (hu.symm.trans hjson)
      rw [equalValues_iff] at hz' hequal
      exact ⟨z', d, hjson.symm, hd, hnorm.trans (hz'.trans hequal), hsame⟩
    obtain ⟨a', d, hda, hd, hnorma, hsamea⟩ := hrepresentative a ha
    obtain ⟨b', d', hdb, hd', hnormb, hsameb⟩ := hrepresentative b hb
    have hone : d = d' := shownItems_unique h hls hd hd'
      (hnorma.trans ((equalValues_iff.mp hab).trans hnormb.symm))
    rw [SameContainers, hda, hone, ← hdb] at hsamea
    exact hsamea.symm.trans hsameb
  · intro hunmixed
    constructor
    · intro o ho
      obtain ⟨d, hd, rfl⟩ := mem_shownItems.mp ho
      obtain ⟨z, hz, hjson, -⟩ := shownItems_sound h hls d hd
      exact ⟨z, hz, hjson⟩
    · intro z hz
      obtain ⟨d, hd, hnorm⟩ := shownItems_complete h hls hz
      obtain ⟨z', hz', hjson, hnorm'⟩ := shownItems_sound h hls d hd
      have hequal : EqualValues z' z := equalValues_iff.mpr (hnorm'.symm.trans hnorm)
      exact ⟨z', hz', mem_shownItems.mpr ⟨d, hd, hjson⟩, hequal, hunmixed z' hz' z hz hequal⟩

end Items

theorem shown_object_ne_list (fields : JsonMapping) (outs : List PyValue) :
    shown (.object fields) ≠ .list outs := by
  rw [shown_object, textDict]
  intro h
  cases h

/-- An operand of a set operator keeps its kinds when it is an array of unmixed items. -/
theorem keeps_items_iff {w : PyValue} {x : JsonValue} {ls : List PyValue} (h : Encodes w x)
    (hls : itemsOf w = some ls) :
    Keeps x (jsonCanonicalValue (.tuple (sortedValues ls))) ↔ Uniform x := by
  rw [json_sortedValues]
  have hcontainer : IsContainer x := (isContainer_iff h).mp (by simp [hls])
  cases x with
  | array xs =>
      have hsame : shown (.array xs) = .list (shownItems ls) → KeptItems xs (shownItems ls) := by
        intro hshown
        rw [shown_array] at hshown
        obtain ⟨-, houts⟩ := PyValue.seq.inj hshown
        rw [← houts]
        exact ⟨fun o ho => (List.mem_map.mp ho).imp fun z hz => ⟨hz.1, hz.2.symm⟩,
          fun z hz => ⟨z, hz, List.mem_map_of_mem hz, equalValues_of_shown rfl, rfl⟩⟩
      rw [Uniform]
      simp only [JsonValue.array.injEq, exists_eq_left', ← keptItems_iff h hls]
      constructor
      · intro hkeeps
        generalize hout : PyValue.list (shownItems ls) = out at hkeeps
        cases hkeeps with
        | same => exact hsame hout.symm
        | items hkept =>
            obtain ⟨-, rfl⟩ := PyValue.seq.inj hout
            exact hkept
      · exact .items
  | object fields =>
      constructor
      · intro hkeeps
        generalize hout : PyValue.list (shownItems ls) = out at hkeeps
        cases hkeeps
        exact absurd hout.symm (shown_object_ne_list _ _)
      · rintro ⟨xs, hxs, -⟩
        cases hxs
  | _ => exact absurd hcontainer id

end SemanticCi.Repair
