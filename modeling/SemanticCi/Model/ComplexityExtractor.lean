import SemanticCi.Library.OrderedDict
import SemanticCi.Model.PackageTree
import SemanticCi.Model.StateSchema

/-! The complexity of the functions of a module (`complexity/python_complexity_extractor.py`). -/

namespace SemanticCi.Extraction

open SemanticCi.Python SemanticCi.Python.Ast SemanticCi.StateSchema OrderedDict

/-- `_iter_module_scope_definitions`. -/
def iterModuleScopeDefinitions (stmts : List Node) : List Node :=
  scanModuleScope (fun
    | stmt@(.functionDef ..) => [stmt]
    | stmt@(.classDef ..) => [stmt]
    | _ => []) stmts

/-! ## The counters

A nested definition counts for nothing in the function around it. -/

/-- What a node adds to `_CyclomaticCounter.value`. -/
def cyclomaticHere : Node → ℕ
  | .ifStmt .. => 1
  | .forLoop .. => 1
  | .whileLoop .. => 1
  | .exceptHandler .. => 1
  | .ifExp .. => 1
  | .matchCase .. => 1
  | .boolOp _ _ values => values.length - 1
  | .comprehension _ _ _ ifs => ifs.length
  | .assert .. => 1
  | _ => 0

/-- The nodes that `_CyclomaticCounter` visits from a node. The subject and the patterns of a
`match` are left out. -/
def cyclomaticNext : Node → List Node
  | .functionDef .. => []
  | .classDef .. => []
  | .matchStmt _ _ cases => cases
  | .matchCase _ guard body => guard.toList ++ body
  | n => n.children

theorem mem_children_of_mem_cyclomaticNext {c n : Node} (h : c ∈ cyclomaticNext n) :
    c ∈ n.children := by
  cases n with
  | functionDef => simp [cyclomaticNext] at h
  | classDef => simp [cyclomaticNext] at h
  | matchStmt => exact List.mem_cons_of_mem _ h
  | matchCase => exact List.mem_cons_of_mem _ h
  | _ => exact h

/-- `_CyclomaticCounter`. -/
def cyclomaticCounter : Visitor Unit Node ℕ where
  here _ n := [cyclomaticHere n]
  next _ n := (cyclomaticNext n).map fun c => ((), c)
  descends := by
    intro _ n step hstep
    obtain ⟨c, hc, rfl⟩ := List.mem_map.mp hstep
    exact Node.sizeOf_lt_of_mem_children (mem_children_of_mem_cyclomaticNext hc)

/-- `_cyclomatic_complexity`. -/
def cyclomaticComplexity (body : List Node) : ℕ :=
  1 + (body.flatMap (cyclomaticCounter.run ())).sum

/-- What a node adds to `_CognitiveCounter.value`. -/
def cognitiveHere (nesting : ℕ) : Node → ℕ
  | .ifStmt .. => 1 + nesting
  | .forLoop .. => 1 + nesting
  | .whileLoop .. => 1 + nesting
  | .exceptHandler .. => 1 + nesting
  | .ifExp .. => 1 + nesting
  | .matchCase .. => 1 + nesting
  | .boolOp .. => 1
  | .comprehension _ _ _ ifs => 1 + nesting + (ifs.length - 1)
  | _ => 0

/-- `_visit_if_orelse`: an `elif` stands in the column of its `if`. -/
def elifNesting (nesting : ℕ) (pos : Pos) : List Node → ℕ
  | [.ifStmt inner _ _ _] => if inner.colOffset = pos.colOffset then nesting else nesting + 1
  | _ => nesting + 1

/-- `_visit_comprehension_expr`: every generator is one level below the one before it. -/
def comprehensionNext (nesting : ℕ) (generators elts : List Node) : List (ℕ × Node) :=
  (generators.zipIdx.map fun (generator, i) => (nesting + i, generator)) ++
    elts.map (nesting + generators.length, ·)

/-- The nodes that `_CognitiveCounter` visits from a node, each at its nesting. -/
def cognitiveNext (nesting : ℕ) : Node → List (ℕ × Node)
  | .functionDef .. => []
  | .classDef .. => []
  | .ifStmt pos test body orelse =>
    (nesting, test) :: body.map (nesting + 1, ·) ++ orelse.map (elifNesting nesting pos orelse, ·)
  | .forLoop _ _ target iter body orelse =>
    (nesting, target) :: (nesting, iter) :: (body ++ orelse).map (nesting + 1, ·)
  | .whileLoop _ test body orelse => (nesting, test) :: (body ++ orelse).map (nesting + 1, ·)
  | .exceptHandler _ type _ body => type.toList.map (nesting, ·) ++ body.map (nesting + 1, ·)
  | .ifExp _ test body orelse => [(nesting, test), (nesting + 1, body), (nesting + 1, orelse)]
  | .matchStmt _ _ cases => cases.map (nesting, ·)
  | .matchCase _ guard body => guard.toList.map (nesting, ·) ++ body.map (nesting + 1, ·)
  | .listComp _ elt generators => comprehensionNext nesting generators [elt]
  | .setComp _ elt generators => comprehensionNext nesting generators [elt]
  | .generatorExp _ elt generators => comprehensionNext nesting generators [elt]
  | .dictComp _ key value generators => comprehensionNext nesting generators [key, value]
  | .comprehension _ target iter ifs =>
    (nesting, target) :: (nesting, iter) :: ifs.map (nesting + 1, ·)
  | n => n.children.map (nesting, ·)

theorem mem_of_mem_comprehensionNext {nesting : ℕ} {generators elts : List Node}
    {step : ℕ × Node} (h : step ∈ comprehensionNext nesting generators elts) :
    step.2 ∈ elts ++ generators := by
  rw [List.mem_append, or_comm]
  rcases List.mem_append.mp h with h | h
  · obtain ⟨⟨generator, i⟩, hmem, rfl⟩ := List.mem_map.mp h
    exact .inl (List.fst_mem_of_mem_zipIdx hmem)
  · obtain ⟨elt, hmem, rfl⟩ := List.mem_map.mp h
    exact .inr hmem

theorem mem_children_of_mem_cognitiveNext {nesting : ℕ} {n : Node} {step : ℕ × Node}
    (h : step ∈ cognitiveNext nesting n) : step.2 ∈ n.children := by
  cases n with
  | functionDef => simp [cognitiveNext] at h
  | classDef => simp [cognitiveNext] at h
  | listComp => exact mem_of_mem_comprehensionNext h
  | setComp => exact mem_of_mem_comprehensionNext h
  | generatorExp => exact mem_of_mem_comprehensionNext h
  | dictComp => exact mem_of_mem_comprehensionNext h
  | ifStmt =>
    simp only [cognitiveNext, Node.children, List.mem_append, List.mem_cons, List.mem_map] at h ⊢
    grind
  | forLoop =>
    simp only [cognitiveNext, Node.children, List.mem_append, List.mem_cons, List.mem_map] at h ⊢
    grind
  | whileLoop =>
    simp only [cognitiveNext, Node.children, List.mem_append, List.mem_cons, List.mem_map] at h ⊢
    grind
  | exceptHandler =>
    simp only [cognitiveNext, Node.children, List.mem_append, List.mem_map] at h ⊢
    grind
  | ifExp =>
    simp only [cognitiveNext, Node.children, List.mem_cons] at h ⊢
    grind
  | matchStmt =>
    simp only [cognitiveNext, Node.children, List.mem_cons, List.mem_map] at h ⊢
    grind
  | matchCase =>
    simp only [cognitiveNext, Node.children, List.mem_append, List.mem_cons, List.mem_map] at h ⊢
    grind
  | comprehension =>
    simp only [cognitiveNext, Node.children, List.mem_cons, List.mem_map] at h ⊢
    grind
  | _ =>
    obtain ⟨w, hw, hstep⟩ := List.mem_map.mp h
    cases hstep
    exact hw

/-- `_CognitiveCounter`. -/
def cognitiveCounter : Visitor ℕ Node ℕ where
  here nesting n := [cognitiveHere nesting n]
  next := cognitiveNext
  descends _ _ _ h := Node.sizeOf_lt_of_mem_children (mem_children_of_mem_cognitiveNext h)

/-- `_cognitive_complexity`. -/
def cognitiveComplexity (body : List Node) : ℕ := (body.flatMap (cognitiveCounter.run 0)).sum

/-! ## Complexity -/

/-- `_entry_for_function`, of a function below `owner`. -/
def complexityEntries (owner : String) : Node → List ComplexityEntry
  | .functionDef _ _ name _ body _ _ _ =>
    [{ fqn := joinFqn [owner, name]
       cyclomatic := some (cyclomaticComplexity body)
       cognitive := some (cognitiveComplexity body) }]
  | _ => []

/-- The body of the loop of `extract_python_complexity`. -/
def definitionComplexity (moduleFqn : String) : Node → List ComplexityEntry
  | .classDef _ name _ _ body _ _ => body.flatMap (complexityEntries (joinFqn [moduleFqn, name]))
  | stmt => complexityEntries moduleFqn stmt

/-- `_stable_entries`. -/
def stableComplexityEntries (entries : List ComplexityEntry) : List ComplexityEntry :=
  (indexBy (·.fqn) entries).values.insertionSort fun a b => a.fqn ≤ b.fqn

/-- `extract_python_complexity`. -/
def extractPythonComplexity (moduleFqn : String) (tree : Node) : List ComplexityEntry :=
  stableComplexityEntries
    ((iterModuleScopeDefinitions (moduleBody tree)).flatMap (definitionComplexity moduleFqn))

/-- The loop of `extract_python_complexity_from_paths`. -/
def complexityOfFiles (root : Root) (files : List SourceFile) : List ComplexityEntry :=
  stableComplexityEntries (files.flatMap fun file =>
    extractPythonComplexity (moduleFqnFromPath root file.path) file.tree)

/-- `extract_python_complexity_from_paths`. -/
def extractPythonComplexityFromPaths (root : Root) (paths : List SourceFile) :
    List ComplexityEntry :=
  complexityOfFiles root (expandPythonPaths root paths)

end SemanticCi.Extraction
