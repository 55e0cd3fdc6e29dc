import Mathlib.Data.List.Basic
import Mathlib.Data.List.Perm.Basic

/-! Visitors: walks over a tree that record items at its nodes and hand a state down to the
nodes below. -/

/-- What is recorded at a node, and where the walk goes on, always to smaller nodes. -/
structure Visitor (State Tree Item : Type) [SizeOf Tree] where
  here : State → Tree → List Item
  next : State → Tree → List (State × Tree)
  descends : ∀ s t, ∀ step ∈ next s t, sizeOf step.2 < sizeOf t

namespace Visitor

variable {State Tree Item : Type} [SizeOf Tree]

/-- The items of a tree, those of a node before those of the nodes below it. -/
def run (v : Visitor State Tree Item) (s : State) (t : Tree) : List Item :=
  v.here s t ++ (v.next s t).attach.flatMap fun step => run v step.1.1 step.1.2
termination_by sizeOf t
decreasing_by exact v.descends s t step.1 step.2

variable (v : Visitor State Tree Item)

theorem run_eq (s : State) (t : Tree) :
    v.run s t = v.here s t ++ (v.next s t).flatMap fun step => v.run step.1 step.2 := by
  rw [run, List.flatMap_subtype (g := fun step => v.run step.1 step.2) fun _ _ => rfl,
    List.unattach_attach]

/-- The visitor that records what `f` makes of each item. -/
def bindItems {Item' : Type} (f : Item → List Item') : Visitor State Tree Item' where
  here s t := (v.here s t).flatMap f
  next := v.next
  descends := v.descends

theorem run_bindItems {Item' : Type} (f : Item → List Item') (s : State) (t : Tree) :
    (v.bindItems f).run s t = (v.run s t).flatMap f := by
  rw [run_eq, run_eq, List.flatMap_append, List.flatMap_assoc]
  refine congrArg _ (List.flatMap_congr fun step hstep => ?_)
  have := v.descends s t step hstep
  exact run_bindItems f step.1 step.2
termination_by sizeOf t

/-- Every item is recorded at some node. -/
theorem exists_here_of_mem_run {s : State} {t : Tree} {item : Item} (h : item ∈ v.run s t) :
    ∃ s' t', item ∈ v.here s' t' := by
  rw [run_eq, List.mem_append, List.mem_flatMap] at h
  rcases h with h | ⟨step, hstep, h⟩
  · exact ⟨s, t, h⟩
  · have := v.descends s t step hstep
    exact exists_here_of_mem_run h
termination_by sizeOf t

/-- Visitors that record the same and go on to the same trees, in whatever order, record the
same items. -/
theorem run_perm {w : Visitor State Tree Item} (hhere : ∀ s t, v.here s t = w.here s t)
    (hnext : ∀ s t, (v.next s t).Perm (w.next s t)) (s : State) (t : Tree) :
    (v.run s t).Perm (w.run s t) := by
  rw [run_eq, run_eq, hhere]
  apply List.Perm.append_left
  have hbelow : ((v.next s t).flatMap fun step => v.run step.1 step.2).Perm
      ((v.next s t).flatMap fun step => w.run step.1 step.2) := by
    apply List.Perm.flatMap_left
    intro step hstep
    have := v.descends s t step hstep
    exact run_perm hhere hnext step.1 step.2
  exact hbelow.trans ((hnext s t).flatMap_right _)
termination_by sizeOf t

end Visitor
