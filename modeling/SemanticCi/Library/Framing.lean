import Mathlib.Data.List.Basic

/-! Pieces written one after the other with a separator behind each of them. A stream of
pieces that never hold the separator is read back in one way only. -/

namespace Framing

variable {α : Type*} {sep : α}

def frame (sep : α) (pieces : List (List α)) : List α :=
  pieces.flatMap fun piece => piece ++ [sep]

/-- A stream of two-piece records. -/
def framePairs (sep : α) (pairs : List (List α × List α)) : List α :=
  frame sep (pairs.flatMap fun pair => [pair.1, pair.2])

@[simp] theorem frame_nil : frame sep [] = [] := rfl

@[simp] theorem frame_cons (piece : List α) (pieces : List (List α)) :
    frame sep (piece :: pieces) = piece ++ sep :: frame sep pieces := by
  simp [frame]

/-- The first separator ends the first piece. -/
theorem append_sep_inj {p q s t : List α} (hp : sep ∉ p) (hq : sep ∉ q)
    (h : p ++ sep :: s = q ++ sep :: t) : p = q ∧ s = t := by
  induction p generalizing q with
  | nil =>
    cases q with
    | nil => exact ⟨rfl, (List.cons.inj h).2⟩
    | cons y q => exact absurd (List.mem_cons.mpr (Or.inl (List.cons.inj h).1)) hq
  | cons x p ih =>
    cases q with
    | nil => exact absurd (List.mem_cons.mpr (Or.inl (List.cons.inj h).1.symm)) hp
    | cons y q =>
      have htail := ih (fun hm => hp (List.mem_cons_of_mem x hm))
        (fun hm => hq (List.mem_cons_of_mem y hm)) (List.cons.inj h).2
      exact ⟨by rw [(List.cons.inj h).1, htail.1], htail.2⟩

theorem frame_inj {ps qs : List (List α)} (hps : ∀ p ∈ ps, sep ∉ p) (hqs : ∀ q ∈ qs, sep ∉ q)
    (h : frame sep ps = frame sep qs) : ps = qs := by
  induction ps generalizing qs with
  | nil =>
    cases qs with
    | nil => rfl
    | cons q qs => simp at h
  | cons p ps ih =>
    cases qs with
    | nil => simp at h
    | cons q qs =>
      rw [frame_cons, frame_cons] at h
      have hsplit := append_sep_inj (hps p List.mem_cons_self) (hqs q List.mem_cons_self) h
      have hrest := ih (fun r hr => hps r (List.mem_cons_of_mem p hr))
        (fun r hr => hqs r (List.mem_cons_of_mem q hr)) hsplit.2
      rw [hsplit.1, hrest]

theorem pairs_flatMap_inj {ps qs : List (List α × List α)}
    (h : (ps.flatMap fun p => [p.1, p.2]) = qs.flatMap fun q => [q.1, q.2]) : ps = qs := by
  induction ps generalizing qs with
  | nil =>
    cases qs with
    | nil => rfl
    | cons q qs => simp at h
  | cons p ps ih =>
    cases qs with
    | nil => simp at h
    | cons q qs =>
      simp only [List.flatMap_cons, List.cons_append, List.nil_append, List.cons.injEq] at h
      rw [Prod.ext h.1 h.2.1, ih h.2.2]

theorem framePairs_inj {ps qs : List (List α × List α)}
    (hps : ∀ p ∈ ps, sep ∉ p.1 ∧ sep ∉ p.2) (hqs : ∀ q ∈ qs, sep ∉ q.1 ∧ sep ∉ q.2)
    (h : framePairs sep ps = framePairs sep qs) : ps = qs := by
  have hfree : ∀ rs : List (List α × List α), (∀ r ∈ rs, sep ∉ r.1 ∧ sep ∉ r.2) →
      ∀ piece ∈ rs.flatMap fun r => [r.1, r.2], sep ∉ piece := by
    intro rs hrs piece hpiece
    obtain ⟨r, hr, hmem⟩ := List.mem_flatMap.mp hpiece
    simp only [List.mem_cons, List.not_mem_nil, or_false] at hmem
    rcases hmem with rfl | rfl
    · exact (hrs r hr).1
    · exact (hrs r hr).2
  exact pairs_flatMap_inj (frame_inj (hfree ps hps) (hfree qs hqs) h)

/-! ## Splitting at the separator -/

section Split

variable [DecidableEq α]

theorem splitOn_cons (x : α) (xs : List α) :
    (x :: xs).splitOn sep =
      if x = sep then [] :: xs.splitOn sep else (xs.splitOn sep).modifyHead (x :: ·) := by
  simp only [List.splitOn_eq_splitOnP, List.splitOnP_cons_eq_if_modifyHead, beq_iff_eq]

/-- The pieces between the separators, framed, are the stream with one more separator. -/
theorem frame_splitOn (xs : List α) :
    frame sep (xs.splitOn sep) = xs ++ [sep] ∧ ∀ piece ∈ xs.splitOn sep, sep ∉ piece := by
  induction xs with
  | nil => simp
  | cons x xs ih =>
    rw [splitOn_cons]
    by_cases hx : x = sep
    · rw [if_pos hx, frame_cons, ih.1, hx]
      exact ⟨rfl, List.forall_mem_cons.mpr ⟨List.not_mem_nil, ih.2⟩⟩
    · rw [if_neg hx]
      cases hsplit : xs.splitOn sep with
      | nil => exact absurd hsplit (List.splitOn_ne_nil sep xs)
      | cons piece pieces =>
        rw [hsplit, frame_cons] at ih
        obtain ⟨hpiece, hpieces⟩ := List.forall_mem_cons.mp ih.2
        have hhead : sep ∉ x :: piece :=
          fun hmem => (List.mem_cons.mp hmem).elim (fun h => hx h.symm) hpiece
        refine ⟨?_, List.forall_mem_cons.mpr ⟨hhead, hpieces⟩⟩
        rw [List.modifyHead_cons, frame_cons, List.cons_append, ih.1, List.cons_append]

/-- Framed pieces split into themselves and an empty piece behind the last separator. -/
theorem splitOn_eq_iff (xs : List α) (pieces : List (List α)) :
    xs.splitOn sep = pieces ↔
      frame sep pieces = xs ++ [sep] ∧ ∀ piece ∈ pieces, sep ∉ piece := by
  constructor
  · rintro rfl
    exact frame_splitOn xs
  · rintro ⟨hframe, hfree⟩
    have hsplit : frame sep (xs.splitOn sep) = xs ++ [sep] ∧ _ := frame_splitOn xs
    exact frame_inj hsplit.2 hfree (hsplit.1.trans hframe.symm)

end Split

end Framing
