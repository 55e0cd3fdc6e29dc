import Mathlib

/-! Stable sorting by a key: the records of one key keep their order, so what a sort makes of
a list depends on the order of the list only through ties. -/

namespace KeyedSort

open List

variable {α β κ : Type*} [LinearOrder κ] (key : α → κ)

abbrev sortBy (xs : List α) : List α := xs.insertionSort fun a b => key a ≤ key b

theorem sortBy_perm (xs : List α) : (sortBy key xs).Perm xs := perm_insertionSort _ _

theorem sortBy_pairwise (xs : List α) : (sortBy key xs).Pairwise fun a b => key a ≤ key b :=
  pairwise_insertionSort _ _

theorem orderedInsert_of_forall_le {x : α} {xs : List α} (h : ∀ a ∈ xs, key x ≤ key a) :
    xs.orderedInsert (fun a b => key a ≤ key b) x = x :: xs := by
  cases xs with
  | nil => rfl
  | cons y ys => exact orderedInsert_cons_of_le _ ys (h y mem_cons_self)

theorem filter_orderedInsert (p : α → Bool) (x : α) {xs : List α}
    (h : xs.Pairwise fun a b => key a ≤ key b) :
    (xs.orderedInsert (fun a b => key a ≤ key b) x).filter p =
      if p x then (xs.filter p).orderedInsert (fun a b => key a ≤ key b) x else xs.filter p := by
  induction h with
  | nil => simp [filter_cons]
  | @cons y ys hy _ ih =>
      by_cases hxy : key x ≤ key y
      · have hle : ∀ a ∈ (y :: ys).filter p, key x ≤ key a := by
          intro a ha
          rcases mem_cons.mp (mem_of_mem_filter ha) with rfl | ha
          · exact hxy
          · exact hxy.trans (hy a ha)
        rw [orderedInsert_cons_of_le _ ys hxy, orderedInsert_of_forall_le key hle, filter_cons]
      · rw [orderedInsert_of_not_le _ ys hxy, filter_cons, ih]
        by_cases hpy : p y = true
        · rw [filter_cons_of_pos hpy, if_pos hpy, orderedInsert_of_not_le (fun a b => key a ≤ key b) (filter p ys) hxy]
          split <;> rfl
        · rw [filter_cons_of_neg hpy, if_neg hpy]

/-- What is left out of a list is left out of its sorted form. -/
theorem sortBy_filter (p : α → Bool) (xs : List α) :
    sortBy key (xs.filter p) = (sortBy key xs).filter p := by
  induction xs with
  | nil => rfl
  | cons x xs ih =>
      have hcons := filter_orderedInsert key p x (sortBy_pairwise key xs)
      rw [← ih] at hcons
      rw [filter_cons]
      refine Eq.trans ?_ hcons.symm
      split <;> rfl

/-- The records of one key keep their order. -/
theorem filter_sortBy (k : κ) (xs : List α) :
    (sortBy key xs).filter (fun a => key a = k) = xs.filter fun a => key a = k := by
  have hpairwise : (xs.filter fun a => key a = k).Pairwise fun a b => key a ≤ key b := by
    apply pairwise_of_forall_mem_list
    intro a ha b hb
    simp only [mem_filter, decide_eq_true_eq] at ha hb
    exact (ha.2.trans hb.2.symm).le
  have hsublist := (sublist_insertionSort hpairwise filter_sublist).filter fun a => key a = k
  simp only [filter_filter, Bool.and_self] at hsublist
  apply (hsublist.eq_of_length _).symm
  exact (((sortBy_perm key xs).filter _).length_eq).symm

/-- A sorted list is its records below a key, those of the key and those above. -/
theorem eq_below_append {xs : List α} (h : xs.Pairwise fun a b => key a ≤ key b) (k : κ) :
    xs = xs.filter (fun a => key a < k) ++
      (xs.filter (fun a => key a = k) ++ xs.filter fun a => k < key a) := by
  induction h with
  | nil => rfl
  | @cons x xs hx _ ih =>
      rcases lt_trichotomy (key x) k with hlt | heq | hgt
      · simp only [filter_cons, hlt, hlt.ne, hlt.not_gt, decide_true, decide_false, if_true,
          Bool.false_eq_true, if_false, cons_append]
        rw [← ih]
      · have hnone : xs.filter (fun a => key a < k) = [] := by
          rw [filter_eq_nil_iff]
          intro a ha
          simpa [← heq] using hx a ha
        rw [hnone, nil_append] at ih
        simp only [filter_cons, heq, lt_irrefl, decide_true, decide_false, if_true,
          Bool.false_eq_true, if_false, hnone, nil_append, cons_append]
        rw [← ih]
      · have hnone : xs.filter (fun a => key a < k) = [] := by
          rw [filter_eq_nil_iff]
          intro a ha
          simpa using hgt.le.trans (hx a ha)
        have hclass : xs.filter (fun a => key a = k) = [] := by
          rw [filter_eq_nil_iff]
          intro a ha
          simpa using (hgt.trans_le (hx a ha)).ne'
        rw [hnone, hclass, nil_append, nil_append] at ih
        simp only [filter_cons, hgt, hgt.ne', hgt.not_gt, decide_true, decide_false, if_true,
          Bool.false_eq_true, if_false, hnone, hclass, nil_append]
        rw [← ih]

/-- Without ties the order of the list does not show. -/
theorem sortBy_eq_of_perm {xs ys : List α} (h : xs.Perm ys)
    (hties : ∀ x ∈ xs, ∀ y ∈ xs, key x = key y → x = y) : sortBy key xs = sortBy key ys := by
  have hperm := (sortBy_perm key xs).trans (h.trans (sortBy_perm key ys).symm)
  refine hperm.eq_of_pairwise ?_ (sortBy_pairwise key xs) (sortBy_pairwise key ys)
  intro a b ha hb hab hba
  have hb' := h.mem_iff.mpr ((sortBy_perm key ys).mem_iff.mp hb)
  exact hties a ((sortBy_perm key xs).mem_iff.mp ha) b hb' (le_antisymm hab hba)

/-- What records of one key have in common comes out of the sort in one order. -/
theorem map_sortBy_eq_of_perm {xs ys : List α} (h : xs ~ ys) (f : α → β)
    (hf : ∀ x ∈ xs, ∀ y ∈ xs, key x = key y → f x = f y) :
    (sortBy key xs).map f = (sortBy key ys).map f := by
  have hkeys : (sortBy key xs).map key = (sortBy key ys).map key := by
    apply Perm.eq_of_pairwise' (r := fun a b => a ≤ b)
    · exact pairwise_map.mpr (sortBy_pairwise key xs)
    · exact pairwise_map.mpr (sortBy_pairwise key ys)
    · exact ((sortBy_perm key xs).trans (h.trans (sortBy_perm key ys).symm)).map key
  rw [← forall₂_eq_eq_eq, forall₂_map_left_iff, forall₂_map_right_iff] at hkeys ⊢
  have hxs : ∀ x ∈ sortBy key xs, x ∈ xs := fun x => (sortBy_perm key xs).mem_iff.mp
  have hys : ∀ y ∈ sortBy key ys, y ∈ xs := fun y hy =>
    h.mem_iff.mpr ((sortBy_perm key ys).mem_iff.mp hy)
  have hmem := (forall₂_and_left _ _).mpr ⟨hxs, ((forall₂_and_left _ _).mpr ⟨hys, hkeys.flip⟩).flip⟩
  refine hmem.imp ?_
  rintro x y ⟨hx, hy, hxy⟩
  exact hf x hx y hy hxy

/-- Two orders of one list that look the same after sorting look the same on every key. -/
theorem map_filter_of_map_sortBy {xs ys : List α} (h : xs.Perm ys) (f : α → β)
    (heq : (sortBy key xs).map f = (sortBy key ys).map f) (k : κ) :
    (xs.filter fun a => key a = k).map f = (ys.filter fun a => key a = k).map f := by
  have hperm := (sortBy_perm key xs).trans (h.trans (sortBy_perm key ys).symm)
  rw [eq_below_append key (sortBy_pairwise key xs) k,
    eq_below_append key (sortBy_pairwise key ys) k] at heq
  simp only [map_append, filter_sortBy] at heq
  have hrest := (append_inj heq (by simpa using (hperm.filter _).length_eq)).2
  exact (append_inj hrest (by simpa using (h.filter _).length_eq)).1

/-- Two entries of a list can be brought to its front in either order. -/
theorem exists_perm_two_front {xs : List α} {a b : α} (ha : a ∈ xs) (hb : b ∈ xs) (hne : a ≠ b) :
    ∃ rest, (a :: b :: rest).Perm xs ∧ (b :: a :: rest).Perm xs := by
  obtain ⟨front, back, rfl⟩ := append_of_mem ha
  have hrest : b ∈ front ++ back := by simpa [hne.symm] using hb
  obtain ⟨front', back', hsplit⟩ := append_of_mem hrest
  have hperm : a :: b :: (front' ++ back') ~ front ++ a :: back := by
    calc a :: b :: (front' ++ back')
      _ ~ a :: (front' ++ b :: back') := .cons a perm_middle.symm
      _ = a :: (front ++ back) := by rw [hsplit]
      _ ~ front ++ a :: back := perm_middle.symm
  exact ⟨front' ++ back', hperm, (Perm.swap a b (front' ++ back')).trans hperm⟩

/-- No later hit of a search through a sorted list has a smaller key than the first one. -/
theorem key_le_of_first {front back : List α} {a b : α} {f : α → Option β}
    (hsorted : (front ++ a :: back).Pairwise fun x y => key x ≤ key y)
    (hfront : ∀ x ∈ front, f x = none) (hb : b ∈ front ++ a :: back) (hhit : f b ≠ none) :
    key a ≤ key b := by
  rcases mem_append.mp hb with hb | hb
  · exact absurd (hfront b hb) hhit
  · rcases mem_cons.mp hb with rfl | hb
    · exact le_rfl
    · exact (pairwise_cons.mp (pairwise_append.mp hsorted).2.1).1 b hb

/-- Sorted lists with the same entries give the same first result, however often each entry
stands in them. -/
theorem findSome?_eq_of_mem_iff {xs ys : List α} (hxs : xs.Pairwise fun x y => key x ≤ key y)
    (hys : ys.Pairwise fun x y => key x ≤ key y) (hmem : ∀ x, x ∈ xs ↔ x ∈ ys)
    (hties : ∀ x ∈ xs, ∀ y ∈ xs, key x = key y → x = y) (f : α → Option β) :
    xs.findSome? f = ys.findSome? f := by
  cases hx : xs.findSome? f with
  | none =>
      rw [findSome?_eq_none_iff] at hx
      exact (findSome?_eq_none_iff.mpr fun y hy => hx y ((hmem y).mpr hy)).symm
  | some b =>
      obtain ⟨front, x, back, rfl, hfx, hfront⟩ := findSome?_eq_some_iff.mp hx
      have hxys : x ∈ ys := (hmem x).mp (by simp)
      cases hy : ys.findSome? f with
      | none =>
          rw [findSome?_eq_none_iff] at hy
          rw [hy x hxys] at hfx
          cases hfx
      | some c =>
          obtain ⟨front', y, back', rfl, hfy, hfront'⟩ := findSome?_eq_some_iff.mp hy
          have hyxs : y ∈ front ++ x :: back := (hmem y).mpr (by simp)
          have hxy := key_le_of_first key hxs hfront hyxs (by simp [hfy])
          have hyx := key_le_of_first key hys hfront' hxys (by simp [hfx])
          obtain rfl := hties x (by simp) y hyxs (le_antisymm hxy hyx)
          exact hfx.symm.trans hfy

end KeyedSort
