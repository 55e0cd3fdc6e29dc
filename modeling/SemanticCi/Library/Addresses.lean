import Mathlib.Data.List.Enum
import Mathlib.Data.List.Nodup
import SemanticCi.Library.Visitor

/-! The nodes that a visitor reaches, each under the address of child indices that leads to it. -/

namespace Visitor

variable {State Tree Item : Type} [SizeOf Tree] (v : Visitor State Tree Item)

/-- The node below `step` at an address. -/
def nodeAt (step : State × Tree) : List ℕ → Option (State × Tree)
  | [] => some step
  | i :: rest => (v.next step.1 step.2)[i]?.bind (nodeAt · rest)

@[simp] theorem nodeAt_nil (step : State × Tree) : v.nodeAt step [] = some step := rfl

theorem nodeAt_cons_eq_some_iff {step node : State × Tree} {i : ℕ} {rest : List ℕ} :
    v.nodeAt step (i :: rest) = some node ↔
      ∃ below, (v.next step.1 step.2)[i]? = some below ∧ v.nodeAt below rest = some node := by
  rw [nodeAt, Option.bind_eq_some_iff]

/-- The visitor that records every node with its address. -/
def addressed : Visitor (List ℕ × State) Tree (List ℕ × State × Tree) where
  here s t := [(s.1, s.2, t)]
  next s t := (v.next s.2 t).zipIdx.map fun below => ((s.1 ++ [below.2], below.1.1), below.1.2)
  descends := by
    intro s t step hstep
    obtain ⟨below, hbelow, rfl⟩ := List.mem_map.mp hstep
    exact v.descends s.2 t below.1 (List.fst_mem_of_mem_zipIdx hbelow)

theorem run_addressed (p : List ℕ) (s : State) (t : Tree) :
    v.addressed.run (p, s) t = (p, s, t) :: (v.next s t).zipIdx.flatMap fun below =>
      v.addressed.run (p ++ [below.2], below.1.1) below.1.2 := by
  rw [run_eq]
  simp only [addressed, List.flatMap_map, List.singleton_append]

/-- The addressed nodes are the nodes that the visitor reaches. -/
theorem mem_run_addressed {p q : List ℕ} {s : State} {t : Tree} {node : State × Tree} :
    (q, node) ∈ v.addressed.run (p, s) t ↔
      ∃ path, q = p ++ path ∧ v.nodeAt (s, t) path = some node := by
  rw [run_addressed, List.mem_cons, List.mem_flatMap]
  have hbelow : ∀ below ∈ (v.next s t).zipIdx,
      ((q, node) ∈ v.addressed.run (p ++ [below.2], below.1.1) below.1.2 ↔
        ∃ path, q = p ++ [below.2] ++ path ∧ v.nodeAt below.1 path = some node) := by
    intro below hbelow
    have := v.descends s t below.1 (List.fst_mem_of_mem_zipIdx hbelow)
    exact mem_run_addressed
  constructor
  · rintro (hroot | ⟨below, hmem, hrun⟩)
    · obtain ⟨rfl, rfl⟩ := Prod.mk.inj hroot
      exact ⟨[], by simp, rfl⟩
    · obtain ⟨path, rfl, hpath⟩ := (hbelow below hmem).mp hrun
      refine ⟨below.2 :: path, by simp, ?_⟩
      rw [nodeAt_cons_eq_some_iff]
      exact ⟨below.1, List.mem_zipIdx_iff_getElem?.mp hmem, hpath⟩
  · rintro ⟨path, rfl, hpath⟩
    cases path with
    | nil =>
        obtain rfl := Option.some.inj hpath
        exact .inl (by simp)
    | cons i rest =>
        obtain ⟨below, hnext, hrest⟩ := v.nodeAt_cons_eq_some_iff.mp hpath
        have hmem : (below, i) ∈ (v.next s t).zipIdx := List.mem_zipIdx_iff_getElem?.mpr hnext
        exact .inr ⟨(below, i), hmem, (hbelow _ hmem).mpr ⟨rest, by simp, hrest⟩⟩
termination_by sizeOf t

/-- No address is recorded twice. -/
theorem nodup_run_addressed (p : List ℕ) (s : State) (t : Tree) :
    ((v.addressed.run (p, s) t).map Prod.fst).Nodup := by
  rw [run_addressed, List.map_cons, List.map_flatMap, List.nodup_cons, List.nodup_flatMap]
  refine ⟨?_, ?_, ?_⟩
  · intro hmem
    obtain ⟨below, -, hmem⟩ := List.mem_flatMap.mp hmem
    obtain ⟨⟨q, node⟩, hrun, hq⟩ := List.mem_map.mp hmem
    obtain ⟨path, hpath, -⟩ := v.mem_run_addressed.mp hrun
    have hlength := congrArg List.length (hq.symm.trans hpath)
    simp at hlength
  · intro below hbelow
    have := v.descends s t below.1 (List.fst_mem_of_mem_zipIdx hbelow)
    exact nodup_run_addressed _ _ _
  · have hindices : (v.next s t).zipIdx.Pairwise fun a b => a.2 ≠ b.2 := by
      have hnodup : ((v.next s t).zipIdx.map Prod.snd).Nodup := by
        rw [List.zipIdx_map_snd]
        exact List.nodup_range'
      rwa [List.Nodup, List.pairwise_map] at hnodup
    refine hindices.imp fun {a b} hab => ?_
    intro q hqa hqb
    obtain ⟨⟨q', node⟩, hrun, rfl⟩ := List.mem_map.mp hqa
    obtain ⟨⟨q'', node'⟩, hrun', hq⟩ := List.mem_map.mp hqb
    obtain ⟨path, hpath, -⟩ := v.mem_run_addressed.mp hrun
    obtain ⟨path', hpath', -⟩ := v.mem_run_addressed.mp hrun'
    have heq : p ++ [b.2] ++ path' = p ++ [a.2] ++ path := hpath'.symm.trans (hq.trans hpath)
    simp only [List.append_assoc, List.append_cancel_left_eq, List.singleton_append,
      List.cons.injEq] at heq
    exact hab heq.1.symm
termination_by sizeOf t

/-- What a visitor records, node by node. -/
theorem run_eq_flatMap_addressed (p : List ℕ) (s : State) (t : Tree) :
    v.run s t = (v.addressed.run (p, s) t).flatMap fun node => v.here node.2.1 node.2.2 := by
  rw [run_eq, run_addressed, List.flatMap_cons, List.flatMap_assoc]
  have hbelow : (v.next s t).flatMap (fun below => v.run below.1 below.2) =
      (v.next s t).zipIdx.flatMap fun below => v.run below.1.1 below.1.2 := by
    conv_lhs => rw [← List.zipIdx_map_fst 0 (v.next s t), List.flatMap_map]
  rw [hbelow]
  refine congrArg _ (List.flatMap_congr fun below hmem => ?_)
  have := v.descends s t below.1 (List.fst_mem_of_mem_zipIdx hmem)
  exact run_eq_flatMap_addressed _ _ _
termination_by sizeOf t

end Visitor
