import SemanticCi.Python.Reposition
import SemanticCi.Verification.Extraction.Cyclomatic

/-! The cognitive counter is affine in the nesting that it starts at. -/

namespace SemanticCi.Extraction

open SemanticCi.Python.Ast

/-! ## Structural nodes -/

/-- A node whose cost grows with its nesting. -/
def isStructural : Node → Bool
  | .ifStmt .. => true
  | .forLoop .. => true
  | .whileLoop .. => true
  | .exceptHandler .. => true
  | .ifExp .. => true
  | .matchCase .. => true
  | .comprehension .. => true
  | _ => false

/-- How many structural nodes a list of statements has, without nested definitions and the
subjects and patterns of a `match`. -/
def structuralCount (stmts : List Node) : ℕ :=
  ((bodyNodes stmts).filter fun node => isStructural node.2).length

/-- `_visit_statements` at a nesting: what it adds to the value. -/
def cognitiveValue (nesting : ℕ) (stmts : List Node) : ℕ :=
  (stmts.flatMap (cognitiveCounter.run nesting)).sum

/-! ## Weights -/

/-- What the counter finds in a node and below it. -/
def cognitiveWeight (nesting : ℕ) (n : Node) : ℕ := (cognitiveCounter.run nesting n).sum

theorem cognitiveWeight_eq (nesting : ℕ) (n : Node) :
    cognitiveWeight nesting n = cognitiveHere nesting n +
      ((cognitiveNext nesting n).map fun step => cognitiveWeight step.1 step.2).sum := by
  rw [cognitiveWeight, Visitor.run_eq, List.sum_append, List.flatMap_def, List.sum_flatten,
    List.map_map]
  simp only [cognitiveCounter, List.sum_singleton]
  rfl

theorem cognitiveValue_eq (nesting : ℕ) (stmts : List Node) :
    cognitiveValue nesting stmts = (stmts.map (cognitiveWeight nesting)).sum := by
  rw [cognitiveValue, List.flatMap_def, List.sum_flatten, List.map_map]
  rfl

/-- 1 for a structural node. -/
def structuralHere (n : Node) : ℕ := if isStructural n then 1 else 0

theorem structuralCount_eq (stmts : List Node) :
    structuralCount stmts = (stmts.map (total structuralHere)).sum := by
  rw [← sum_bodyNodes, structuralCount, ← List.countP_eq_length_filter]
  induction bodyNodes stmts with
  | nil => rfl
  | cons node rest ih =>
      rw [List.countP_cons, ih, List.map_cons, List.sum_cons, structuralHere, Nat.add_comm]

/-! ## Nesting -/

/-- Only a structural node sees its nesting. -/
theorem cognitiveHere_eq (nesting : ℕ) (n : Node) :
    cognitiveHere nesting n = cognitiveHere 0 n + nesting * structuralHere n := by
  cases n <;> simp [cognitiveHere, structuralHere, isStructural]
  all_goals omega

/-- A step at a deeper nesting. -/
def deepen (nesting : ℕ) (step : ℕ × Node) : ℕ × Node := (nesting + step.1, step.2)

theorem deepen_comprehensionNext (nesting : ℕ) (generators elts : List Node) :
    comprehensionNext nesting generators elts =
      (comprehensionNext 0 generators elts).map (deepen nesting) := by
  simp [comprehensionNext, deepen, Function.comp_def]

theorem elifNesting_eq (nesting : ℕ) (pos : Pos) (orelse : List Node) :
    elifNesting nesting pos orelse = nesting + elifNesting 0 pos orelse := by
  unfold elifNesting
  split
  · split <;> simp
  · simp

/-- The nodes below are visited as much deeper as the node itself. -/
theorem cognitiveNext_eq (nesting : ℕ) (n : Node) :
    cognitiveNext nesting n = (cognitiveNext 0 n).map (deepen nesting) := by
  cases n with
  | ifStmt pos test body orelse =>
      simp [cognitiveNext, deepen, elifNesting_eq nesting, Function.comp_def]
  | listComp => exact deepen_comprehensionNext _ _ _
  | setComp => exact deepen_comprehensionNext _ _ _
  | generatorExp => exact deepen_comprehensionNext _ _ _
  | dictComp => exact deepen_comprehensionNext _ _ _
  | _ => simp [cognitiveNext, deepen, Function.comp_def]

theorem comprehensionNext_perm (nesting : ℕ) (generators elts : List Node) :
    ((comprehensionNext nesting generators elts).map Prod.snd).Perm (elts ++ generators) := by
  have hsnd : (comprehensionNext nesting generators elts).map Prod.snd = generators ++ elts := by
    simp [comprehensionNext, Function.comp_def]
  rw [hsnd]
  exact List.perm_append_comm

/-- The two counters visit the same nodes. -/
theorem cognitiveNext_perm (nesting : ℕ) (n : Node) :
    ((cognitiveNext nesting n).map Prod.snd).Perm (cyclomaticNext n) := by
  cases n with
  | listComp => exact comprehensionNext_perm _ _ _
  | setComp => exact comprehensionNext_perm _ _ _
  | generatorExp => exact comprehensionNext_perm _ _ _
  | dictComp => exact comprehensionNext_perm _ _ _
  | _ =>
      simp [cognitiveNext, cyclomaticNext, Node.children, Function.comp_def]

theorem cognitiveWeight_affine (nesting : ℕ) (n : Node) :
    cognitiveWeight nesting n = cognitiveWeight 0 n + nesting * total structuralHere n := by
  have hbelow : ∀ step ∈ cognitiveNext 0 n, cognitiveWeight (nesting + step.1) step.2 =
      cognitiveWeight step.1 step.2 + nesting * total structuralHere step.2 := by
    intro step hstep
    have := Node.sizeOf_lt_of_mem_children (mem_children_of_mem_cognitiveNext hstep)
    rw [cognitiveWeight_affine, cognitiveWeight_affine step.1, Nat.add_mul]
    omega
  have hcount : ((cognitiveNext 0 n).map fun step => total structuralHere step.2).sum =
      ((cyclomaticNext n).map (total structuralHere)).sum := by
    rw [← ((cognitiveNext_perm 0 n).map (total structuralHere)).sum_eq, List.map_map]
    rfl
  calc cognitiveWeight nesting n
      = cognitiveHere nesting n +
          ((cognitiveNext 0 n).map fun step => cognitiveWeight (nesting + step.1) step.2).sum := by
        rw [cognitiveWeight_eq, cognitiveNext_eq, List.map_map]
        rfl
    _ = cognitiveHere nesting n + (((cognitiveNext 0 n).map fun step =>
          cognitiveWeight step.1 step.2).sum +
            nesting * ((cyclomaticNext n).map (total structuralHere)).sum) := by
        rw [List.map_congr_left hbelow, List.sum_map_add, List.sum_map_mul_left, hcount]
    _ = cognitiveWeight 0 n + nesting * total structuralHere n := by
        rw [cognitiveHere_eq, cognitiveWeight_eq 0, total_eq structuralHere, Nat.mul_add]
        omega
termination_by sizeOf n

theorem cognitiveValue_affine (nesting : ℕ) (stmts : List Node) :
    cognitiveValue nesting stmts =
      cognitiveValue 0 stmts + nesting * structuralCount stmts := by
  rw [cognitiveValue_eq, cognitiveValue_eq, structuralCount_eq, ← List.sum_map_mul_left,
    ← List.sum_map_add]
  exact congrArg List.sum (List.map_congr_left fun n _ => cognitiveWeight_affine nesting n)

/-! ## Moved trees -/

/-- Moving the tree keeps every `elif` an `elif`, and makes none. -/
inductive KeepsElifs (g : Pos → Pos) : Node → Prop where
  | node {n : Node}
      (hhere : ∀ pos test body inner innerTest innerBody innerOrelse,
        n = .ifStmt pos test body [.ifStmt inner innerTest innerBody innerOrelse] →
          ((g inner).colOffset = (g pos).colOffset ↔ inner.colOffset = pos.colOffset))
      (hbelow : ∀ c ∈ n.children, KeepsElifs g c) : KeepsElifs g n

theorem cognitiveHere_reposition (g : Pos → Pos) (nesting : ℕ) (n : Node) :
    cognitiveHere nesting (n.reposition g) = cognitiveHere nesting n := by
  cases n <;> simp [Node.reposition, cognitiveHere]

theorem comprehensionNext_map (f : Node → Node) (nesting : ℕ) (generators elts : List Node) :
    comprehensionNext nesting (generators.map f) (elts.map f) =
      (comprehensionNext nesting generators elts).map fun step => (step.1, f step.2) := by
  simp [comprehensionNext, List.zipIdx_map, Function.comp_def]

theorem elifNesting_reposition {g : Pos → Pos} {pos : Pos} {test : Node} {body orelse : List Node}
    (h : KeepsElifs g (.ifStmt pos test body orelse)) (nesting : ℕ) :
    elifNesting nesting (g pos) (orelse.map (Node.reposition g)) =
      elifNesting nesting pos orelse := by
  cases h with
  | node hhere hbelow =>
      match orelse with
      | [] => rfl
      | [stmt] =>
          cases stmt with
          | ifStmt inner innerTest innerBody innerOrelse =>
              simp only [List.map_cons, List.map_nil, Node.reposition, elifNesting]
              simp only [hhere pos test body inner innerTest innerBody innerOrelse rfl]
          | _ => simp [Node.reposition, elifNesting]
      | _ :: _ :: _ => simp [elifNesting]

theorem cognitiveNext_reposition {g : Pos → Pos} {n : Node} (h : KeepsElifs g n) (nesting : ℕ) :
    cognitiveNext nesting (n.reposition g) =
      (cognitiveNext nesting n).map fun step => (step.1, step.2.reposition g) := by
  cases n with
  | ifStmt pos test body orelse =>
      simp [Node.reposition, cognitiveNext, elifNesting_reposition h, Function.comp_def]
  | listComp pos elt generators =>
      simpa [Node.reposition, cognitiveNext] using
        comprehensionNext_map (Node.reposition g) nesting generators [elt]
  | setComp pos elt generators =>
      simpa [Node.reposition, cognitiveNext] using
        comprehensionNext_map (Node.reposition g) nesting generators [elt]
  | generatorExp pos elt generators =>
      simpa [Node.reposition, cognitiveNext] using
        comprehensionNext_map (Node.reposition g) nesting generators [elt]
  | dictComp pos key value generators =>
      simpa [Node.reposition, cognitiveNext] using
        comprehensionNext_map (Node.reposition g) nesting generators [key, value]
  | _ =>
      simp [Node.reposition, cognitiveNext, Node.children, Node.toList_map, Function.comp_def]

/-- A moved tree has the value of the tree. -/
theorem cognitiveWeight_reposition {g : Pos → Pos} {n : Node} (h : KeepsElifs g n)
    (nesting : ℕ) : cognitiveWeight nesting (n.reposition g) = cognitiveWeight nesting n := by
  have hbelow : ∀ step ∈ cognitiveNext nesting n,
      cognitiveWeight step.1 (step.2.reposition g) = cognitiveWeight step.1 step.2 := by
    intro step hstep
    have hchild := mem_children_of_mem_cognitiveNext hstep
    have := Node.sizeOf_lt_of_mem_children hchild
    cases h with
    | node hhere hchildren => exact cognitiveWeight_reposition (hchildren _ hchild) step.1
  rw [cognitiveWeight_eq, cognitiveHere_reposition, cognitiveNext_reposition h, List.map_map,
    cognitiveWeight_eq nesting n]
  exact congrArg _ (congrArg List.sum (List.map_congr_left hbelow))
termination_by sizeOf n

/-! ## Affine values -/

theorem cognitiveValue_singleton (nesting : ℕ) (n : Node) :
    cognitiveValue nesting [n] = cognitiveWeight nesting n := by
  simp [cognitiveValue_eq]

theorem cognitiveWeight_ifStmt (nesting : ℕ) (pos : Pos) (test : Node) (body orelse : List Node) :
    cognitiveWeight nesting (.ifStmt pos test body orelse) =
      1 + nesting + cognitiveWeight nesting test + cognitiveValue (nesting + 1) body +
        cognitiveValue (elifNesting nesting pos orelse) orelse := by
  have hsteps (level : ℕ) (stmts : List Node) :
      ((stmts.map (level, ·)).map fun step => cognitiveWeight step.1 step.2).sum =
        cognitiveValue level stmts := by
    rw [cognitiveValue_eq, List.map_map]
    rfl
  rw [cognitiveWeight_eq]
  simp only [cognitiveHere, cognitiveNext, List.map_cons, List.map_append, List.sum_cons,
    List.sum_append, List.cons_append, hsteps]
  omega

end SemanticCi.Extraction
