import SemanticCi.Library.ExceptRules
import SemanticCi.Model.Operators

/-! Canonical values: when canonicalization succeeds, and what it makes of JSON data. -/

namespace SemanticCi.Operators

open SemanticCi.Python ExceptRules

/-! ## Values without a mapping inside -/

mutual

/-- Nothing inside is a `dict`, so nothing is left to sort. -/
def DictFree : PyValue → Prop
  | .scalar _ => True
  | .seq _ items => DictFreeList items
  | .dict _ => False
  | .set _ => True

def DictFreeList : List PyValue → Prop
  | [] => True
  | x :: xs => DictFree x ∧ DictFreeList xs

end

@[simp] theorem dictFree_scalar (s : PyScalar) : DictFree (.scalar s) := trivial

@[simp] theorem dictFree_set (items : List PyScalar) : DictFree (.set items) := trivial

@[simp] theorem dictFree_seq (kind : SeqKind) (items : List PyValue) :
    DictFree (.seq kind items) ↔ ∀ x ∈ items, DictFree x := by
  have h (xs : List PyValue) : DictFreeList xs ↔ ∀ x ∈ xs, DictFree x := by
    induction xs with
    | nil => simp [DictFreeList]
    | cons x xs ih => simp [DictFreeList, ih]
  exact h items

@[simp] theorem norm_scalar (s : PyScalar) : (PyValue.scalar s).norm = .scalar s.norm := rfl

@[simp] theorem norm_seq (kind : SeqKind) (items : List PyValue) :
    (PyValue.seq kind items).norm = .tuple (items.map PyValue.norm) := by
  simp [PyValue.norm]

/-! ## Lists of canonicalizations -/

theorem canonList_eq_ok_iff (xs ys : List PyValue) :
    canonList xs = .ok ys ↔ List.Forall₂ (fun x y => canon x = .ok y) xs ys := by
  induction xs generalizing ys with
  | nil => cases ys <;> simp [canonList]
  | cons x xs ih =>
      simp only [canonList, bind_eq_ok_iff, pure_eq_ok, Except.ok.injEq, List.forall₂_cons_left_iff,
        ih]
      constructor
      · rintro ⟨y, hy, zs, hzs, rfl⟩
        exact ⟨y, zs, hy, hzs, rfl⟩
      · rintro ⟨y, zs, hy, hzs, rfl⟩
        exact ⟨y, hy, zs, hzs, rfl⟩

/-- A sequence becomes a sequence of its canonicalized items. -/
theorem exists_of_canon_seq {kind : SeqKind} {items : List PyValue} {e : PyValue}
    (h : canon (.seq kind items) = .ok e) :
    ∃ kind' ys, canonList items = .ok ys ∧ e = .seq kind' ys := by
  cases kind <;> obtain ⟨ys, hys, he⟩ := bind_eq_ok_iff.mp h <;> cases he <;>
    exact ⟨_, ys, hys, rfl⟩

theorem canonPairs_eq_ok_iff (xs ys : List (PyScalar × PyValue)) :
    canonPairs xs = .ok ys ↔
      List.Forall₂ (fun x y => x.1 = y.1 ∧ canon x.2 = .ok y.2) xs ys := by
  induction xs generalizing ys with
  | nil => cases ys <;> simp [canonPairs]
  | cons x xs ih =>
      obtain ⟨k, v⟩ := x
      simp only [canonPairs, bind_eq_ok_iff, pure_eq_ok, Except.ok.injEq,
        List.forall₂_cons_left_iff, ih]
      constructor
      · rintro ⟨w, hw, ws, hws, rfl⟩
        exact ⟨(k, w), ws, ⟨rfl, hw⟩, hws, rfl⟩
      · rintro ⟨⟨k', w⟩, ws, ⟨rfl, hw⟩, hws, rfl⟩
        exact ⟨w, hw, ws, hws, rfl⟩

/-- Every element canonicalizes. -/
theorem canonList_isOk {xs : List PyValue} (h : ∀ x ∈ xs, ∃ y, canon x = .ok y) :
    ∃ ys, canonList xs = .ok ys := by
  induction xs with
  | nil => exact ⟨[], rfl⟩
  | cons x xs ih =>
      obtain ⟨y, hy⟩ := h x (by simp)
      obtain ⟨ys, hys⟩ := ih fun z hz => h z (by simp [hz])
      exact ⟨y :: ys, by simp [canonList, hy, hys]⟩

/-- A value without mappings canonicalizes to an equal one. -/
theorem canon_of_dictFree (v : PyValue) (h : DictFree v) :
    ∃ w, canon v = .ok w ∧ w.norm = v.norm ∧ DictFree w := by
  induction v using canon.induct
    (motive_3 := fun xs => (∀ x ∈ xs, DictFree x) → ∃ ys, canonList xs = .ok ys ∧
      ys.map PyValue.norm = xs.map PyValue.norm ∧ ∀ y ∈ ys, DictFree y)
    (motive_2 := fun _ => True) with
  | case1 s => exact ⟨_, rfl, rfl, trivial⟩
  | case2 items ih =>
      obtain ⟨ys, hys, hnorm, hfree⟩ := ih ((dictFree_seq _ _).mp h)
      exact ⟨.seq .canonicalMapping ys, by simp [canon, hys], by simp [hnorm], by simpa using hfree⟩
  | case3 kind items hkind ih =>
      obtain ⟨ys, hys, hnorm, hfree⟩ := ih ((dictFree_seq _ _).mp h)
      refine ⟨.tuple ys, ?_, by simp [hnorm], by simpa using hfree⟩
      cases kind with
      | canonicalMapping => exact absurd rfl hkind
      | list => simp [canon, hys]
      | tuple => simp [canon, hys]
  | case4 items => exact absurd h (by simp [DictFree])
  | case5 items => exact ⟨_, rfl, rfl, trivial⟩
  | case6 => exact ⟨[], rfl, by simp⟩
  | case7 x xs ihx ihxs =>
      rename_i hfree
      obtain ⟨y, hy, hynorm, hyfree⟩ := ihx (hfree x (by simp))
      obtain ⟨ys, hys, hnorm, hysfree⟩ := ihxs fun z hz => hfree z (by simp [hz])
      exact ⟨y :: ys, by simp [canonList, hy, hys], by simp [hynorm, hnorm], by simpa using
        ⟨hyfree, hysfree⟩⟩
  | case8 => trivial
  | case9 => trivial

/-! ## Sorting the items of a mapping -/

theorem sortByKey_perm {α : Type} {items sorted : List (PyScalar × α)}
    (h : sortByKey items = .ok sorted) : sorted.Perm items := by
  unfold sortByKey at h
  split at h
  · cases h; exact .refl _
  · cases h; exact .refl _
  · split at h
    · cases h; exact List.perm_insertionSort ..
    · cases h

theorem sortByKey_error {α : Type} {items : List (PyScalar × α)} {e : PyError}
    (h : sortByKey items = .error e) : e = .typeError := by
  unfold sortByKey at h
  split at h
  · cases h
  · cases h
  · split at h
    · cases h
    · cases h; rfl

/-- `sorted` on a mapping with string keys. -/
def sortPairs {α : Type} (items : List (String × α)) : List (String × α) :=
  items.insertionSort fun a b => a.1 ≤ b.1

def strKey {α : Type} (item : String × α) : PyScalar × α := (.str item.1, item.2)

theorem sortByKey_strings {α : Type} (items : List (String × α)) :
    sortByKey (items.map strKey) = .ok ((sortPairs items).map strKey) := by
  have hsort : ((sortPairs items).map strKey) =
      (items.map strKey).insertionSort fun a b => a.1.le b.1 = true :=
    List.map_insertionSort _ _ strKey items fun a _ b _ => by simp [strKey, PyScalar.le]
  match items, hsort with
  | [], _ => rfl
  | [item], _ => rfl
  | item :: second :: rest, hsort =>
      rw [hsort]
      have hclass : ∀ other ∈ (second :: rest).map strKey,
          other.1.orderClass = (PyScalar.str item.1).orderClass := by
        intro other hother
        obtain ⟨source, -, rfl⟩ := List.mem_map.mp hother
        rfl
      exact if_pos ⟨by simp [PyScalar.orderClass], hclass⟩

/-! ## What canonicalization returns -/

/-- Canonicalization leaves no mapping. -/
theorem dictFree_of_canon (v : PyValue) (w : PyValue) (h : canon v = .ok w) : DictFree w := by
  induction v using canon.induct
    (motive_2 := fun xs => ∀ ys, canonPairs xs = .ok ys → ∀ y ∈ ys, DictFree y.2)
    (motive_3 := fun xs => ∀ ys, canonList xs = .ok ys → ∀ y ∈ ys, DictFree y)
    generalizing w with
  | case1 s => cases h; trivial
  | case2 items ih =>
      obtain ⟨ys, hys, hw⟩ := bind_eq_ok_iff.mp h
      cases hw
      simpa using ih ys hys
  | case3 kind items hkind ih =>
      have h' : (canonList items >>= fun ys => (pure (.tuple ys) : Except PyError PyValue)) =
          .ok w := by
        cases kind with
        | canonicalMapping => exact absurd rfl hkind
        | list => exact h
        | tuple => exact h
      obtain ⟨ys, hys, hw⟩ := bind_eq_ok_iff.mp h'
      cases hw
      simpa using ih ys hys
  | case4 items ih =>
      obtain ⟨ys, hys, hsorted⟩ := bind_eq_ok_iff.mp h
      obtain ⟨sorted, hsort, hw⟩ := bind_eq_ok_iff.mp hsorted
      cases hw
      simp only [dictFree_seq, List.mem_map, forall_exists_index, and_imp,
        forall_apply_eq_imp_iff₂]
      intro item hitem x hx
      simp only [List.mem_cons, List.not_mem_nil, or_false] at hx
      rcases hx with rfl | rfl
      · trivial
      · exact ih ys hys item ((sortByKey_perm hsort).mem_iff.mp hitem)
  | case5 items => cases h; trivial
  | case6 ys hys y hy =>
      cases hys
      simp at hy
  | case7 x xs ihx ihxs ys hys z hz =>
      obtain ⟨y, hy, hrest⟩ := bind_eq_ok_iff.mp hys
      obtain ⟨zs, hzs, hw⟩ := bind_eq_ok_iff.mp hrest
      cases hw
      rcases List.mem_cons.mp hz with rfl | hz
      · exact ihx _ hy
      · exact ihxs zs hzs z hz
  | case8 ys hys y hy =>
      cases hys
      simp at hy
  | case9 k v rest ihv ihrest ys hys z hz =>
      obtain ⟨y, hy, hrest⟩ := bind_eq_ok_iff.mp hys
      obtain ⟨zs, hzs, hw⟩ := bind_eq_ok_iff.mp hrest
      cases hw
      rcases List.mem_cons.mp hz with rfl | hz
      · exact ihv y hy
      · exact ihrest zs hzs z hz

/-- Canonicalization only fails on keys that do not compare. -/
theorem canon_error (v : PyValue) (e : PyError) (h : canon v = .error e) : e = .typeError := by
  induction v using canon.induct
    (motive_2 := fun xs => ∀ e, canonPairs xs = .error e → e = .typeError)
    (motive_3 := fun xs => ∀ e, canonList xs = .error e → e = .typeError)
    generalizing e with
  | case1 s => cases h
  | case2 items ih =>
      rcases bind_eq_error_iff.mp h with h | ⟨_, _, h⟩
      · exact ih e h
      · cases h
  | case3 kind items hkind ih =>
      have h' : (canonList items >>= fun ys => (pure (.tuple ys) : Except PyError PyValue)) =
          .error e := by
        cases kind with
        | canonicalMapping => exact absurd rfl hkind
        | list => exact h
        | tuple => exact h
      rcases bind_eq_error_iff.mp h' with h | ⟨_, _, h⟩
      · exact ih e h
      · cases h
  | case4 items ih =>
      rcases bind_eq_error_iff.mp h with h | ⟨ys, _, h⟩
      · exact ih e h
      · rcases bind_eq_error_iff.mp h with h | ⟨_, _, h⟩
        · exact sortByKey_error h
        · cases h
  | case5 items => cases h
  | case6 => rename_i e he; cases he
  | case7 x xs ihx ihxs =>
      rename_i e he
      rcases bind_eq_error_iff.mp he with h | ⟨_, _, h⟩
      · exact ihx e h
      · rcases bind_eq_error_iff.mp h with h | ⟨_, _, h⟩
        · exact ihxs e h
        · cases h
  | case8 => rename_i e he; cases he
  | case9 k v rest ihv ihrest =>
      rename_i e he
      rcases bind_eq_error_iff.mp he with h | ⟨_, _, h⟩
      · exact ihv e h
      · rcases bind_eq_error_iff.mp h with h | ⟨_, _, h⟩
        · exact ihrest e h
        · cases h

/-! ## JSON data -/

mutual

/-- The normal form of the canonical value of JSON data. -/
def jsonNorm : JsonValue → Norm
  | .null => .scalar .none
  | .bool b => .scalar (.num (.finite (if b then 1 else 0)))
  | .int i => .scalar (.num (.finite (Dyadic.ofInt i)))
  | .float d => .scalar (.num (.finite d))
  | .str s => .scalar (.str s)
  | .array items => .tuple (jsonNormList items)
  | .object items =>
      .tuple ((sortPairs (jsonNormPairs items)).map fun p => .tuple [.scalar (.str p.1), p.2])

def jsonNormList : List JsonValue → List Norm
  | [] => []
  | x :: xs => jsonNorm x :: jsonNormList xs

def jsonNormPairs : List (String × JsonValue) → List (String × Norm)
  | [] => []
  | (k, v) :: rest => (k, jsonNorm v) :: jsonNormPairs rest

end

@[simp] theorem jsonNormList_eq_map (items : List JsonValue) :
    jsonNormList items = items.map jsonNorm := by
  induction items with
  | nil => rfl
  | cons x xs ih => simp [jsonNormList, ih]

theorem jsonNormPairs_eq_map (items : List (String × JsonValue)) :
    jsonNormPairs items = items.map fun p => (p.1, jsonNorm p.2) := by
  induction items with
  | nil => rfl
  | cons p rest ih => simp [jsonNormPairs, ih]

@[simp] theorem jsonNorm_array (items : List JsonValue) :
    jsonNorm (.array items) = .tuple (items.map jsonNorm) := by
  simp [jsonNorm]

@[simp] theorem jsonNorm_str (s : String) : jsonNorm (.str s) = .scalar (.str s) := by
  simp [jsonNorm]

@[simp] theorem jsonNorm_null : jsonNorm .null = .scalar .none := by simp [jsonNorm]

@[simp] theorem jsonNorm_int (i : ℤ) :
    jsonNorm (.int i) = .scalar (.num (.finite (Dyadic.ofInt i))) := by simp [jsonNorm]

theorem jsonNorm_object (items : List (String × JsonValue)) :
    jsonNorm (.object items) =
      .tuple ((sortPairs (items.map fun p => (p.1, jsonNorm p.2))).map fun p =>
        .tuple [.scalar (.str p.1), p.2]) := by
  simp [jsonNorm, jsonNormPairs_eq_map]

/-- JSON data always canonicalizes. -/
theorem canon_toPy (j : JsonValue) : ∃ v, canon j.toPy = .ok v ∧ v.norm = jsonNorm j := by
  induction j using jsonNorm.induct
    (motive_2 := fun items => ∃ ys : List (String × PyValue),
      canonPairs (JsonValue.toPyPairs items) = .ok (ys.map strKey) ∧
        ys.map (fun p => (p.1, p.2.norm)) = jsonNormPairs items)
    (motive_3 := fun items => ∃ ys, canonList (JsonValue.toPyList items) = .ok ys ∧
      ys.map PyValue.norm = jsonNormList items) with
  | case1 => exact ⟨_, rfl, rfl⟩
  | case2 b => exact ⟨_, rfl, by simp [PyScalar.norm, jsonNorm]⟩
  | case3 i => exact ⟨_, rfl, by simp [PyScalar.norm]⟩
  | case4 d => exact ⟨_, rfl, by simp [PyScalar.norm, jsonNorm]⟩
  | case5 s => exact ⟨_, rfl, by simp [PyScalar.norm]⟩
  | case6 items ih =>
      obtain ⟨ys, hys, hnorm⟩ := ih
      exact ⟨.tuple ys, by simp [JsonValue.toPy, canon, hys], by simpa using hnorm⟩
  | case7 items ih =>
      obtain ⟨ys, hys, hnorm⟩ := ih
      refine ⟨_, by simp only [JsonValue.toPy, canon, hys, ok_bind, sortByKey_strings]; rfl, ?_⟩
      have hsort : (sortPairs ys).map (fun p => (p.1, p.2.norm)) =
          sortPairs (jsonNormPairs items) := by
        rw [← hnorm]
        exact List.map_insertionSort _ _ _ ys fun a _ b _ => Iff.rfl
      simp only [norm_seq, jsonNorm, ← hsort, List.map_map, Norm.tuple.injEq]
      refine List.map_congr_left fun p _ => ?_
      simp [strKey, PyScalar.norm]
  | case8 => exact ⟨[], rfl, rfl⟩
  | case9 x xs ihx ihxs =>
      obtain ⟨y, hy, hnorm⟩ := ihx
      obtain ⟨ys, hys, hnorms⟩ := ihxs
      exact ⟨y :: ys, by simp [JsonValue.toPyList, canonList, hy, hys], by
        simp only [List.map_cons, hnorm, hnorms, jsonNormList]⟩
  | case10 => exact ⟨[], rfl, rfl⟩
  | case11 k v rest ihv ihrest =>
      obtain ⟨y, hy, hnorm⟩ := ihv
      obtain ⟨ys, hys, hnorms⟩ := ihrest
      refine ⟨(k, y) :: ys, by simp [JsonValue.toPyPairs, canonPairs, hy, hys, strKey], ?_⟩
      simp only [List.map_cons, hnorm, hnorms, jsonNormPairs]

end SemanticCi.Operators
