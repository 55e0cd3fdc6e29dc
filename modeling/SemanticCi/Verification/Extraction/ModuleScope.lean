import SemanticCi.Model.PackageTree

/-! Module scope: the statements that may run in a module without a function being called,
class bodies apart. -/

namespace SemanticCi.Extraction

open SemanticCi.Python.Ast

/-- Running a statement may run the other in the same scope: one rule for each block of each
compound statement. -/
inductive RunsIn : Node → Node → Prop where
  | self (n : Node) : RunsIn n n
  | ifBody {pos test body orelse s n} (hs : s ∈ body) (h : RunsIn s n) :
      RunsIn (.ifStmt pos test body orelse) n
  | ifElse {pos test body orelse s n} (hs : s ∈ orelse) (h : RunsIn s n) :
      RunsIn (.ifStmt pos test body orelse) n
  | tryBody {pos isStar body handlers orelse finalbody s n} (hs : s ∈ body) (h : RunsIn s n) :
      RunsIn (.tryStmt pos isStar body handlers orelse finalbody) n
  | tryHandler {pos isStar body handlers orelse finalbody s n} (hs : s ∈ handlers)
      (h : RunsIn s n) : RunsIn (.tryStmt pos isStar body handlers orelse finalbody) n
  | tryElse {pos isStar body handlers orelse finalbody s n} (hs : s ∈ orelse) (h : RunsIn s n) :
      RunsIn (.tryStmt pos isStar body handlers orelse finalbody) n
  | tryFinally {pos isStar body handlers orelse finalbody s n} (hs : s ∈ finalbody)
      (h : RunsIn s n) : RunsIn (.tryStmt pos isStar body handlers orelse finalbody) n
  | handlerBody {pos type name body s n} (hs : s ∈ body) (h : RunsIn s n) :
      RunsIn (.exceptHandler pos type name body) n
  | forBody {pos isAsync target iter body orelse s n} (hs : s ∈ body) (h : RunsIn s n) :
      RunsIn (.forLoop pos isAsync target iter body orelse) n
  | forElse {pos isAsync target iter body orelse s n} (hs : s ∈ orelse) (h : RunsIn s n) :
      RunsIn (.forLoop pos isAsync target iter body orelse) n
  | whileBody {pos test body orelse s n} (hs : s ∈ body) (h : RunsIn s n) :
      RunsIn (.whileLoop pos test body orelse) n
  | whileElse {pos test body orelse s n} (hs : s ∈ orelse) (h : RunsIn s n) :
      RunsIn (.whileLoop pos test body orelse) n
  | withBody {pos isAsync items body s n} (hs : s ∈ body) (h : RunsIn s n) :
      RunsIn (.withStmt pos isAsync items body) n
  | matchCase {pos subject cases s n} (hs : s ∈ cases) (h : RunsIn s n) :
      RunsIn (.matchStmt pos subject cases) n
  | caseBody {pattern guard body s n} (hs : s ∈ body) (h : RunsIn s n) :
      RunsIn (.matchCase pattern guard body) n

/-- A node in the module scope of a body. -/
def InModuleScope (body : List Node) (n : Node) : Prop := ∃ s ∈ body, RunsIn s n

theorem runsIn_iff (s n : Node) : RunsIn s n ↔ n = s ∨ ∃ c ∈ blockNodes s, RunsIn c n := by
  constructor
  · intro h
    cases h with
    | self => exact .inl rfl
    | _ hs h => exact .inr ⟨_, by simp [blockNodes, hs], h⟩
  · rintro (rfl | ⟨c, hc, h⟩)
    · exact .self n
    · cases s with
      | ifStmt =>
          rcases List.mem_append.mp hc with hc | hc
          · exact .ifBody hc h
          · exact .ifElse hc h
      | tryStmt =>
          simp only [blockNodes, List.mem_append] at hc
          rcases hc with ((hc | hc) | hc) | hc
          · exact .tryBody hc h
          · exact .tryHandler hc h
          · exact .tryElse hc h
          · exact .tryFinally hc h
      | exceptHandler => exact .handlerBody hc h
      | forLoop =>
          rcases List.mem_append.mp hc with hc | hc
          · exact .forBody hc h
          · exact .forElse hc h
      | whileLoop =>
          rcases List.mem_append.mp hc with hc | hc
          · exact .whileBody hc h
          · exact .whileElse hc h
      | withStmt => exact .withBody hc h
      | matchStmt => exact .matchCase hc h
      | matchCase => exact .caseBody hc h
      | _ => cases hc

section Scan

variable {α : Type} (here : Node → List α)

theorem mem_moduleScope_run (s : Node) (x : α) :
    x ∈ (moduleScope here).run () s ↔ ∃ n, RunsIn s n ∧ x ∈ here n := by
  rw [Visitor.run_eq, List.mem_append, List.mem_flatMap]
  have hblocks : (∃ step ∈ (moduleScope here).next () s,
      x ∈ (moduleScope here).run step.1 step.2) ↔
        ∃ c ∈ blockNodes s, ∃ n, RunsIn c n ∧ x ∈ here n := by
    have hnext : (moduleScope here).next () s = (blockNodes s).map fun c => ((), c) := rfl
    simp only [hnext, List.mem_map, exists_exists_and_eq_and]
    refine exists_congr fun c => and_congr_right fun hc => ?_
    have := Node.sizeOf_lt_of_mem_children (mem_children_of_mem_blockNodes hc)
    exact mem_moduleScope_run c x
  rw [hblocks]
  constructor
  · rintro (hx | ⟨c, hc, n, hn, hx⟩)
    · exact ⟨s, .self s, hx⟩
    · exact ⟨n, (runsIn_iff s n).mpr (.inr ⟨c, hc, hn⟩), hx⟩
  · rintro ⟨n, hn, hx⟩
    rcases (runsIn_iff s n).mp hn with rfl | ⟨c, hc, hcn⟩
    · exact .inl hx
    · exact .inr ⟨c, hc, n, hcn, hx⟩
termination_by sizeOf s

/-- A scan of module scope records what is recorded at the nodes in it. -/
theorem mem_scanModuleScope (body : List Node) (x : α) :
    x ∈ scanModuleScope here body ↔ ∃ n, InModuleScope body n ∧ x ∈ here n := by
  simp only [scanModuleScope, List.mem_flatMap, mem_moduleScope_run, InModuleScope]
  constructor
  · rintro ⟨s, hs, n, hn, hx⟩
    exact ⟨n, ⟨s, hs, hn⟩, hx⟩
  · rintro ⟨n, ⟨s, hs, hn⟩, hx⟩
    exact ⟨s, hs, n, hn, hx⟩

/-- The nodes in the module scope of a body, in the order of the scans. -/
def scopeNodes (body : List Node) : List Node := scanModuleScope (fun n => [n]) body

/-- Every scan goes through the same nodes. -/
theorem scanModuleScope_eq (body : List Node) :
    scanModuleScope here body = (scopeNodes body).flatMap here := by
  have hbind : moduleScope here = (moduleScope fun n => [n]).bindItems here := by
    simp [moduleScope, Visitor.bindItems]
  rw [scanModuleScope, hbind, scopeNodes, scanModuleScope, List.flatMap_assoc]
  exact List.flatMap_congr fun s _ => Visitor.run_bindItems _ here () s

end Scan

/-! ## Source order -/

/-- All nodes of a tree, each in front of its children. -/
def everyNode : Visitor Unit Node Node where
  here _ n := [n]
  next _ n := n.children.map fun c => ((), c)
  descends := by
    intro _ n step hstep
    obtain ⟨c, hc, rfl⟩ := List.mem_map.mp hstep
    exact Node.sizeOf_lt_of_mem_children hc

def preorder (n : Node) : List Node := everyNode.run () n

theorem preorder_eq (n : Node) : preorder n = n :: n.children.flatMap preorder := by
  rw [preorder, Visitor.run_eq]
  simp only [everyNode, List.flatMap_map]
  rfl

/-- The blocks of a statement come last among its children. -/
theorem blockNodes_suffix (n : Node) : blockNodes n <:+ n.children := by
  cases n with
  | ifStmt pos test body orelse => exact ⟨[test], by simp [blockNodes, Node.children]⟩
  | tryStmt => exact List.suffix_refl _
  | exceptHandler pos type name body => exact List.suffix_append _ _
  | forLoop pos isAsync target iter body orelse =>
      exact ⟨[target, iter], by simp [blockNodes, Node.children]⟩
  | whileLoop pos test body orelse => exact ⟨[test], by simp [blockNodes, Node.children]⟩
  | withStmt => exact List.suffix_append _ _
  | matchStmt pos subject cases => exact List.suffix_cons _ _
  | matchCase pattern guard body =>
      exact ⟨pattern :: guard.toList, by simp [blockNodes, Node.children]⟩
  | _ => exact List.nil_suffix

theorem flatMap_sublist {α β : Type} {xs ys : List α} {f g : α → List β} (h : xs.Sublist ys)
    (hfg : ∀ x ∈ xs, (f x).Sublist (g x)) : (xs.flatMap f).Sublist (ys.flatMap g) := by
  induction h with
  | slnil => exact List.Sublist.refl _
  | cons y _ ih =>
      rw [List.flatMap_cons]
      exact (ih hfg).trans (List.sublist_append_right _ _)
  | cons_cons y _ ih =>
      rw [List.flatMap_cons, List.flatMap_cons]
      exact (hfg y List.mem_cons_self).append (ih fun x hx => hfg x (List.mem_cons_of_mem _ hx))

theorem run_sublist_preorder (n : Node) :
    ((moduleScope fun n => [n]).run () n).Sublist (preorder n) := by
  rw [Visitor.run_eq, preorder_eq]
  have hnext : (moduleScope fun n => [n]).next () n = (blockNodes n).map fun c => ((), c) := rfl
  rw [hnext, List.flatMap_map]
  refine List.Sublist.append (List.Sublist.refl [n]) ?_
  refine flatMap_sublist (blockNodes_suffix n).sublist fun c hc => ?_
  have := Node.sizeOf_lt_of_mem_children (mem_children_of_mem_blockNodes hc)
  exact run_sublist_preorder c
termination_by sizeOf n

/-- The scans go through module scope in source order. -/
theorem scopeNodes_sublist (tree : Node) :
    (scopeNodes (moduleBody tree)).Sublist (preorder tree) := by
  cases tree with
  | module body =>
      rw [preorder_eq]
      refine List.Sublist.cons _ ?_
      exact flatMap_sublist (List.Sublist.refl body) fun s _ => run_sublist_preorder s
  | _ => exact List.nil_sublist _

end SemanticCi.Extraction
