import Mathlib.Data.List.Basic

/-! A list with the elements of a predicate moved to the front. -/

namespace SemanticCi.Front

variable {α β : Type*} (p : α → Prop) [DecidablePred p]

/-- The elements of `p` first, in the order of the list on both parts. -/
def front (xs : List α) : List α :=
  xs.filter (fun x => p x) ++ xs.filter (fun x => ¬ p x)

theorem front_perm (xs : List α) : (front p xs).Perm xs := by
  have hperm := List.filter_append_perm (fun x => decide (p x)) xs
  simpa [front] using hperm

variable {p}

theorem filter_front (q : α → Bool) (xs : List α) :
    (front p xs).filter q = front p (xs.filter q) := by
  simp only [front, List.filter_append, List.filter_filter, Bool.and_comm]

/-- A partial map that decides `p` by its value commutes with `front`. -/
theorem filterMap_front {p' : β → Prop} [DecidablePred p'] (f : α → Option β)
    (h : ∀ x y, f x = some y → (p x ↔ p' y)) (xs : List α) :
    (front p xs).filterMap f = front p' (xs.filterMap f) := by
  have hfilter : ∀ {q : α → Prop} {q' : β → Prop} [DecidablePred q] [DecidablePred q'],
      (∀ x y, f x = some y → (q x ↔ q' y)) →
      (xs.filter fun x => q x).filterMap f = (xs.filterMap f).filter fun y => q' y := by
    intro q q' _ _ hq
    rw [List.filterMap_filter, List.filter_filterMap]
    refine List.filterMap_congr fun x _ => ?_
    cases hx : f x with
    | none => simp
    | some y => simp [hq x y hx, Option.filter]
  rw [front, front, List.filterMap_append, hfilter h,
    hfilter fun x y hx => not_congr (h x y hx)]

theorem front_congr {p' : α → Prop} [DecidablePred p'] {xs : List α}
    (h : ∀ x ∈ xs, p x ↔ p' x) : front p xs = front p' xs := by
  rw [front, front, List.filter_congr fun x hx => decide_eq_decide.mpr (h x hx),
    List.filter_congr fun x hx => decide_eq_decide.mpr (not_congr (h x hx))]

/-- The first element of `q` has `p` when some element of `q` has. -/
theorem find?_front {q : α → Bool} {xs : List α} (h : ∃ x ∈ xs, q x ∧ p x) :
    ∃ x, (front p xs).find? q = some x ∧ p x := by
  obtain ⟨x, hx, hq, hp⟩ := h
  have hsome : ((xs.filter fun x => p x).find? q).isSome := by
    rw [List.find?_isSome]
    exact ⟨x, List.mem_filter.mpr ⟨hx, decide_eq_true hp⟩, hq⟩
  obtain ⟨y, hy⟩ := Option.isSome_iff_exists.mp hsome
  refine ⟨y, by rw [front, List.find?_append, hy, Option.some_or], ?_⟩
  exact of_decide_eq_true (List.mem_filter.mp (List.mem_of_find?_eq_some hy)).2

/-- What a drop leaves has an element outside `p` when the list has one and the drop leaves
something. -/
theorem exists_mem_drop_front {xs : List α} {n : ℕ} (hn : n < xs.length)
    (h : ∃ x ∈ xs, ¬ p x) : ∃ x ∈ (front p xs).drop n, ¬ p x := by
  obtain ⟨x, hx, hp⟩ := h
  have hmem : x ∈ xs.filter fun x => ¬ p x := List.mem_filter.mpr ⟨hx, decide_eq_true hp⟩
  have hlength : (xs.filter fun x => p x).length + (xs.filter fun x => ¬ p x).length =
      xs.length := by
    rw [← List.length_append]
    exact (front_perm p xs).length_eq
  have hdrop : (xs.filter fun x => ¬ p x).drop (n - (xs.filter fun x => p x).length) ≠ [] := by
    have hpos := List.length_pos_of_mem hmem
    rw [Ne, List.drop_eq_nil_iff]
    omega
  obtain ⟨y, hy⟩ := List.exists_mem_of_ne_nil _ hdrop
  refine ⟨y, ?_, of_decide_eq_true (List.mem_filter.mp (List.mem_of_mem_drop hy)).2⟩
  rw [front, List.drop_append]
  exact List.mem_append_right _ hy

/-- A drop of all elements of `p` leaves none of them. -/
theorem not_mem_drop_front {xs : List α} {n : ℕ} (hn : xs.countP (fun x => p x) ≤ n) :
    ∀ x ∈ (front p xs).drop n, ¬ p x := by
  intro x hx
  rw [List.countP_eq_length_filter] at hn
  rw [front, List.drop_append, List.drop_eq_nil_of_le hn, List.nil_append] at hx
  exact of_decide_eq_true (List.mem_filter.mp (List.mem_of_mem_drop hx)).2

end SemanticCi.Front
