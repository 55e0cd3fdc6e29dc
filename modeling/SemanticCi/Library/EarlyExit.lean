import Mathlib.Data.List.Basic
import Mathlib.Data.List.Perm.Basic

/-! Loops over a list that judge every element until one of them stops the loop, and only
record the rest. -/

namespace EarlyExit

variable {α β γ : Type*}

/-- Judge with `eval` until `stops`, then record with `skip`. -/
def run (eval skip : α → β) (stops : α → β → Bool) : Bool → List α → List β
  | _, [] => []
  | true, x :: xs => skip x :: run eval skip stops true xs
  | false, x :: xs => eval x :: run eval skip stops (stops x (eval x)) xs

variable {eval skip : α → β} {stops : α → β → Bool}

@[simp] theorem run_nil (stopped : Bool) : run eval skip stops stopped [] = [] := by
  cases stopped <;> rfl

@[simp] theorem run_stopped (xs : List α) : run eval skip stops true xs = xs.map skip := by
  induction xs with
  | nil => rfl
  | cons x xs ih => simp [run, ih]

theorem run_cons (x : α) (xs : List α) :
    run eval skip stops false (x :: xs) =
      eval x :: run eval skip stops (stops x (eval x)) xs := rfl

@[simp] theorem length_run (stopped : Bool) (xs : List α) :
    (run eval skip stops stopped xs).length = xs.length := by
  induction xs generalizing stopped with
  | nil => simp
  | cons x xs ih => cases stopped <;> simp [run, ih]

/-- Up to the first element that stops, the loop is the plain map. -/
theorem run_append_of_not_stops {front : List α} (back : List α)
    (hfront : ∀ x ∈ front, stops x (eval x) = false) :
    run eval skip stops false (front ++ back) =
      front.map eval ++ run eval skip stops false back := by
  induction front with
  | nil => rfl
  | cons x front ih =>
      have hx : stops x (eval x) = false := hfront x (by simp)
      have hrest : ∀ y ∈ front, stops y (eval y) = false := fun y hy => hfront y (by simp [hy])
      simp [run_cons, hx, ih hrest]

theorem run_of_not_stops {xs : List α} (h : ∀ x ∈ xs, stops x (eval x) = false) :
    run eval skip stops false xs = xs.map eval := by
  simpa using run_append_of_not_stops [] h

/-- A list either never stops the loop or splits at the first element that does. -/
theorem split_at_first_stop (eval : α → β) (stops : α → β → Bool) (xs : List α) :
    (∀ x ∈ xs, stops x (eval x) = false) ∨
      ∃ front x back, xs = front ++ x :: back ∧
        (∀ y ∈ front, stops y (eval y) = false) ∧ stops x (eval x) = true := by
  induction xs with
  | nil => exact .inl (by simp)
  | cons x xs ih =>
      cases hx : stops x (eval x) with
      | true => exact .inr ⟨[], x, xs, rfl, by simp, hx⟩
      | false =>
          rcases ih with hall | ⟨front, y, back, rfl, hfront, hy⟩
          · exact .inl (by simpa [hx] using hall)
          · exact .inr ⟨x :: front, y, back, rfl, by simpa [hx] using hfront, hy⟩

theorem run_at_first_stop {front back : List α} {x : α}
    (hfront : ∀ y ∈ front, stops y (eval y) = false) (hx : stops x (eval x) = true) :
    run eval skip stops false (front ++ x :: back) =
      front.map eval ++ eval x :: back.map skip := by
  rw [run_append_of_not_stops _ hfront, run_cons, hx, run_stopped]

/-- The result in place of `x` is the judged one exactly when nothing in front stops. -/
theorem getElem?_run (front back : List α) (x : α) :
    (run eval skip stops false (front ++ x :: back))[front.length]? =
      some (if front.any fun y => stops y (eval y) then skip x else eval x) := by
  induction front with
  | nil => simp [run_cons]
  | cons y front ih =>
      cases hy : stops y (eval y) with
      | true => simp [run_cons, hy]
      | false => simpa [run_cons, hy] using ih

/-- A selection that never picks what is only recorded sees the early exit exactly when
something stops the loop in front of an element that it would pick. -/
theorem filterMap_run_eq_iff {pick : β → Option γ} (hskip : ∀ x, pick (skip x) = none)
    (xs : List α) :
    (run eval skip stops false xs).filterMap pick = (xs.map eval).filterMap pick ↔
      xs.Pairwise fun y x => stops y (eval y) = true → pick (eval x) = none := by
  induction xs with
  | nil => simp
  | cons x xs ih =>
      have hhead : (run eval skip stops false (x :: xs)).filterMap pick =
          ((x :: xs).map eval).filterMap pick ↔
            (run eval skip stops (stops x (eval x)) xs).filterMap pick =
              (xs.map eval).filterMap pick := by
        rw [run_cons, List.map_cons, List.filterMap_cons, List.filterMap_cons]
        cases pick (eval x) <;> simp
      rw [hhead, List.pairwise_cons]
      cases hx : stops x (eval x) with
      | false => simpa using ih
      | true =>
          have hrecorded : (xs.map skip).filterMap pick = [] := by
            apply List.filterMap_eq_nil_iff.mpr
            intro r hr
            obtain ⟨y, -, rfl⟩ := List.mem_map.mp hr
            exact hskip y
          have hnothing : [] = (xs.map eval).filterMap pick ↔ ∀ y ∈ xs, pick (eval y) = none := by
            rw [eq_comm, List.filterMap_eq_nil_iff]
            exact List.forall_mem_map
          rw [run_stopped, hrecorded, hnothing]
          simp only [true_imp_iff]
          refine ⟨fun h => ⟨h, ?_⟩, fun h => h.1⟩
          exact List.pairwise_of_forall_mem_list fun _ _ y hy _ => h y hy

/-- A summary that a single decisive result already fixes does not see the early exit, when
whatever stops the loop is decisive. -/
theorem summary_run_eq {summary : List β → γ} {decisive : β → Prop} {top : γ}
    (hdecisive : ∀ results, (∃ r ∈ results, decisive r) → summary results = top)
    (hstops : ∀ x, stops x (eval x) = true → decisive (eval x)) (xs : List α) :
    summary (run eval skip stops false xs) = summary (xs.map eval) := by
  rcases split_at_first_stop eval stops xs with hall | ⟨front, x, back, rfl, hfront, hx⟩
  · rw [run_of_not_stops hall]
  · rw [hdecisive _ ⟨eval x, ?_, hstops x hx⟩, hdecisive _ ⟨eval x, ?_, hstops x hx⟩]
    · simp
    · simp [run_at_first_stop hfront hx]

/-- Two loops over one list whose judgements are related and stop at the same elements have
related results. -/
theorem forall₂_run {eval' : α → β} {R : β → β → Prop} (hskip : ∀ x, R (skip x) (skip x))
    {xs : List α} (heval : ∀ x ∈ xs, R (eval x) (eval' x))
    (hstops : ∀ x ∈ xs, stops x (eval' x) = stops x (eval x)) (stopped : Bool) :
    List.Forall₂ R (run eval skip stops stopped xs) (run eval' skip stops stopped xs) := by
  induction xs generalizing stopped with
  | nil => simp
  | cons x xs ih =>
      have hrest := ih (fun y hy => heval y (by simp [hy])) fun y hy => hstops y (by simp [hy])
      cases stopped with
      | true => exact .cons (hskip x) (hrest true)
      | false =>
          rw [run_cons, run_cons, hstops x (by simp)]
          exact .cons (heval x (by simp)) (hrest _)

end EarlyExit
