import SemanticCi.Library.Addresses
import SemanticCi.Model.CyclomaticCounter

/-! The cyclomatic counter computes the sum of its table over the nodes of a function body. -/

namespace SemanticCi.Extraction

open SemanticCi.Python.Ast SemanticCi.StateSchema

/-! ## The nodes of a body -/

/-- The node of a function body at an address: the index of a statement, then the indices of
the nodes below that the counters visit. -/
def bodyNodeAt (body : List Node) : List ℕ → Option Node
  | [] => none
  | i :: rest => body[i]?.bind fun stmt => (cyclomaticCounter.nodeAt ((), stmt) rest).map Prod.snd

/-- The nodes of a body with their addresses. -/
def bodyNodes (body : List Node) : List (List ℕ × Node) :=
  (cyclomaticCounter.addressed.run ([], ()) (.module body)).tail.map fun node =>
    (node.1, node.2.2)

/-- The body below a node of its own. -/
theorem run_module (body : List Node) :
    cyclomaticCounter.addressed.run ([], ()) (.module body) =
      ([], (), .module body) ::
        (cyclomaticCounter.addressed.run ([], ()) (.module body)).tail := by
  rw [Visitor.run_addressed, List.tail_cons]

theorem nodup_bodyNodes (body : List Node) : ((bodyNodes body).map Prod.fst).Nodup := by
  have hnodup := cyclomaticCounter.nodup_run_addressed [] () (.module body)
  rw [run_module, List.map_cons] at hnodup
  rw [bodyNodes, List.map_map]
  exact (List.nodup_cons.mp hnodup).2

theorem mem_bodyNodes {body : List Node} {path : List ℕ} {n : Node} :
    (path, n) ∈ bodyNodes body ↔ bodyNodeAt body path = some n := by
  have hmem : (path, n) ∈ bodyNodes body ↔ (path, (), n) ∈
      (cyclomaticCounter.addressed.run ([], ()) (.module body)).tail := by
    rw [bodyNodes, List.mem_map]
    constructor
    · rintro ⟨⟨q, node⟩, hnode, heq⟩
      obtain ⟨rfl, rfl⟩ := Prod.mk.inj heq
      exact hnode
    · intro hnode
      exact ⟨_, hnode, rfl⟩
  have hrun : (path, (), n) ∈ cyclomaticCounter.addressed.run ([], ()) (.module body) ↔
      cyclomaticCounter.nodeAt ((), .module body) path = some ((), n) := by
    simp [Visitor.mem_run_addressed]
  rw [hmem]
  cases path with
  | nil =>
      have hnodup := cyclomaticCounter.nodup_run_addressed [] () (.module body)
      rw [run_module, List.map_cons] at hnodup
      refine iff_of_false (fun hroot => ?_) nofun
      exact (List.nodup_cons.mp hnodup).1 (List.mem_map.mpr ⟨_, hroot, rfl⟩)
  | cons i rest =>
      have hstmts : (cyclomaticCounter.next () (.module body))[i]? =
          body[i]?.map fun stmt => ((), stmt) := by
        simp [cyclomaticCounter, cyclomaticNext, Node.children]
      have hbody : cyclomaticCounter.nodeAt ((), .module body) (i :: rest) = some ((), n) ↔
          bodyNodeAt body (i :: rest) = some n := by
        rw [Visitor.nodeAt, hstmts, bodyNodeAt]
        cases body[i]? with
        | none => simp
        | some stmt =>
            simp only [Option.map_some, Option.bind_some]
            cases cyclomaticCounter.nodeAt ((), stmt) rest with
            | none => simp
            | some node =>
                obtain ⟨-, m⟩ := node
                simp
      rw [← hbody, ← hrun, run_module]
      simp

/-! ## The counter -/

/-- The visitor of the same nodes that records what `f` says of each. -/
def weighing (f : Node → ℕ) : Visitor Unit Node ℕ where
  here _ n := [f n]
  next := cyclomaticCounter.next
  descends := cyclomaticCounter.descends

/-- What `f` says of a node and of the nodes below it. -/
def total (f : Node → ℕ) (n : Node) : ℕ := ((weighing f).run () n).sum

theorem total_eq (f : Node → ℕ) (n : Node) :
    total f n = f n + ((cyclomaticNext n).map (total f)).sum := by
  rw [total, Visitor.run_eq, List.sum_append, List.flatMap_def, List.sum_flatten, List.map_map]
  simp only [weighing, cyclomaticCounter, List.map_map, List.sum_singleton]
  rfl

namespace CyclomaticCounter

theorem visitStatements_append (value : ℕ) (front back : List Node) :
    visitStatements value (front ++ back) =
      visitStatements (visitStatements value front) back := by
  induction front generalizing value with
  | nil => simp [visitStatements]
  | cons n rest ih => simp [visitStatements, ih]

/-- Every method counts its node and visits the nodes below it once, in their order. -/
theorem visit_eq_visitStatements (value : ℕ) (n : Node) :
    visit value n = visitStatements (value + cyclomaticHere n) (cyclomaticNext n) := by
  cases n with
  | exceptHandler pos type name body =>
      cases type <;> simp [visit, visitStatements, cyclomaticHere, cyclomaticNext, Node.children]
  | matchCase pattern guard body =>
      cases guard <;> simp [visit, visitStatements, cyclomaticHere, cyclomaticNext]
  | assert pos test msg =>
      cases msg <;> simp [visit, visitStatements, cyclomaticHere, cyclomaticNext, Node.children]
  | _ =>
      simp [visit, visitStatements, visitStatements_append, cyclomaticHere, cyclomaticNext,
        Node.children]

theorem visitStatements_eq_of_visit {stmts : List Node} (value : ℕ)
    (h : ∀ n ∈ stmts, ∀ value, visit value n = value + total cyclomaticHere n) :
    visitStatements value stmts = value + (stmts.map (total cyclomaticHere)).sum := by
  induction stmts generalizing value with
  | nil => simp [visitStatements]
  | cons n rest ih =>
      obtain ⟨hn, hrest⟩ := List.forall_mem_cons.mp h
      rw [visitStatements, hn, ih _ hrest, List.map_cons, List.sum_cons, Nat.add_assoc]

/-- Visiting a node adds what the table says of it and of the nodes below. -/
theorem visit_eq (value : ℕ) (n : Node) : visit value n = value + total cyclomaticHere n := by
  rw [visit_eq_visitStatements, total_eq, ← Nat.add_assoc]
  apply visitStatements_eq_of_visit
  intro c hc value
  have := Node.sizeOf_lt_of_mem_children (mem_children_of_mem_cyclomaticNext hc)
  exact visit_eq value c
termination_by sizeOf n

theorem visitStatements_eq (value : ℕ) (stmts : List Node) :
    visitStatements value stmts = value + (stmts.map (total cyclomaticHere)).sum :=
  visitStatements_eq_of_visit value fun n _ value => visit_eq value n

end CyclomaticCounter

/-- The nodes of a body carry what is found in it. -/
theorem sum_bodyNodes (f : Node → ℕ) (body : List Node) :
    ((bodyNodes body).map fun node => f node.2).sum = (body.map (total f)).sum := by
  have hmodule : total f (.module body) = f (.module body) + (body.map (total f)).sum := by
    rw [total_eq]
    simp [cyclomaticNext, Node.children]
  have hnodes : total f (.module body) =
      f (.module body) + ((bodyNodes body).map fun node => f node.2).sum := by
    have haddressed : (weighing f).addressed = cyclomaticCounter.addressed := rfl
    rw [total, (weighing f).run_eq_flatMap_addressed [], haddressed, run_module,
      List.flatMap_cons, List.sum_append, List.flatMap_def, List.sum_flatten]
    simp [bodyNodes, weighing, List.map_map, Function.comp_def]
  omega

theorem cyclomaticComplexity_eq (body : List Node) :
    cyclomaticComplexity body = 1 + (body.map (total cyclomaticHere)).sum := by
  rw [cyclomaticComplexity, List.flatMap_def, List.sum_flatten, List.map_map]
  rfl

theorem countBody_eq (body : List Node) :
    CyclomaticCounter.countBody body =
      1 + ((bodyNodes body).map fun node => cyclomaticHere node.2).sum := by
  rw [CyclomaticCounter.countBody, CyclomaticCounter.visitStatements_eq, sum_bodyNodes]

/-- The cyclomatic value of a function is 1 and what the table says of every node of its body,
each counted once, and it is additive over its statements. -/
theorem cyclomatic_sums_table (owner : String) (pos : Pos) (isAsync : Bool) (name : String)
    (args : Node) (body decoratorList : List Node) (returns : Option Node)
    (typeParams : List Node) :
    (complexityEntries owner
        (.functionDef pos isAsync name args body decoratorList returns typeParams)).map
      (·.cyclomatic) = [some (CyclomaticCounter.countBody body : ℤ)] ∧
      (∃ nodes : List (List ℕ × Node), (nodes.map Prod.fst).Nodup ∧
        (∀ path n, (path, n) ∈ nodes ↔ bodyNodeAt body path = some n) ∧
        CyclomaticCounter.countBody body =
          1 + (nodes.map fun node => cyclomaticHere node.2).sum) ∧
      ∀ front back, CyclomaticCounter.countBody (front ++ back) + 1 =
        CyclomaticCounter.countBody front + CyclomaticCounter.countBody back := by
  refine ⟨?_, ⟨bodyNodes body, nodup_bodyNodes body, fun _ _ => mem_bodyNodes,
    countBody_eq body⟩, ?_⟩
  · rw [countBody_eq, sum_bodyNodes, ← cyclomaticComplexity_eq]
    rfl
  · intro front back
    simp only [countBody_eq, sum_bodyNodes, List.map_append, List.sum_append]
    omega

end SemanticCi.Extraction
