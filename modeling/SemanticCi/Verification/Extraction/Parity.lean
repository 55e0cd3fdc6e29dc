import SemanticCi.Model.CodeStatePipeline
import SemanticCi.Verification.Extraction.ModuleScope

/-! The functions that have a complexity against those on the API surface. The two extractors
walk module scope on their own and drop repeated definitions under keys of their own. -/

namespace SemanticCi.Extraction

open SemanticCi.Python SemanticCi.Python.Ast SemanticCi.StateSchema OrderedDict

/-! ## Function definitions -/

/-- A function below `owner`, with its body. -/
def functionOf (owner : String) : Node → List (String × List Node)
  | .functionDef _ _ name _ body _ _ _ => [(joinFqn [owner, name], body)]
  | _ => []

/-- The function that a statement defines, or the methods of the class that it defines. -/
def functionsOf (moduleFqn : String) : Node → List (String × List Node)
  | .classDef _ name _ _ body _ _ => body.flatMap (functionOf (joinFqn [moduleFqn, name]))
  | stmt => functionOf moduleFqn stmt

/-- The functions of module scope and the methods of its classes, in source order. -/
def functionDefinitions (moduleFqn : String) (tree : Node) : List (String × List Node) :=
  (scopeNodes (moduleBody tree)).flatMap (functionsOf moduleFqn)

/-! ## Complexity -/

/-- The metrics of a definition. -/
def complexityOf (definition : String × List Node) : ComplexityEntry where
  fqn := definition.1
  cyclomatic := some (cyclomaticComplexity definition.2)
  cognitive := some (cognitiveComplexity definition.2)

theorem complexityEntries_eq (owner : String) (stmt : Node) :
    complexityEntries owner stmt = (functionOf owner stmt).map complexityOf := by
  cases stmt <;> rfl

theorem definitionComplexity_eq (moduleFqn : String) (stmt : Node) :
    definitionComplexity moduleFqn stmt = (functionsOf moduleFqn stmt).map complexityOf := by
  cases stmt with
  | classDef pos name bases keywords body =>
      simp only [definitionComplexity, functionsOf, List.map_flatMap]
      exact List.flatMap_congr fun s _ => complexityEntries_eq _ s
  | _ => rfl

/-- The records of complexity before repeated names are dropped. -/
theorem complexity_records (moduleFqn : String) (tree : Node) :
    (iterModuleScopeDefinitions (moduleBody tree)).flatMap (definitionComplexity moduleFqn) =
      (functionDefinitions moduleFqn tree).map complexityOf := by
  rw [iterModuleScopeDefinitions, scanModuleScope_eq, List.flatMap_assoc, functionDefinitions,
    List.map_flatMap]
  refine List.flatMap_congr fun n _ => ?_
  cases n with
  | functionDef => exact (List.flatMap_singleton ..).trans (definitionComplexity_eq _ _)
  | classDef => exact (List.flatMap_singleton ..).trans (definitionComplexity_eq _ _)
  | _ => rfl

section Parity

variable (lib : Stdlib) (moduleFqn : String) (tree : Node)

theorem mem_extractPythonComplexity (entry : ComplexityEntry) :
    entry ∈ extractPythonComplexity moduleFqn tree ↔
      ((functionDefinitions moduleFqn tree).map complexityOf).find?
        (fun record => record.fqn = entry.fqn) = some entry := by
  rw [extractPythonComplexity, stableComplexityEntries, List.mem_insertionSort,
    mem_values_indexBy, complexity_records]

/-- The record of a name is the one of its first definition. -/
theorem first_definition {entry : ComplexityEntry}
    (h : entry ∈ extractPythonComplexity moduleFqn tree) :
    ∃ front body back, functionDefinitions moduleFqn tree = front ++ (entry.fqn, body) :: back ∧
      entry.fqn ∉ front.map Prod.fst ∧ entry = complexityOf (entry.fqn, body) := by
  rw [mem_extractPythonComplexity, List.find?_eq_some_iff_append] at h
  obtain ⟨-, front, back, hsplit, hfront⟩ := h
  obtain ⟨front', rest, hdefinitions, rfl, hrest⟩ := List.map_eq_append_iff.mp hsplit
  obtain ⟨definition, back', rfl, rfl, rfl⟩ := List.map_eq_cons_iff.mp hrest
  refine ⟨front', definition.2, back', hdefinitions, ?_, rfl⟩
  intro hmem
  obtain ⟨other, hother, hfqn⟩ := List.mem_map.mp hmem
  have hne := hfront _ (List.mem_map_of_mem hother)
  simp only [complexityOf, hfqn, decide_true, Bool.not_true, Bool.false_eq_true] at hne

theorem mem_complexity_fqns (fqn : String) :
    fqn ∈ (extractPythonComplexity moduleFqn tree).map (·.fqn) ↔
      fqn ∈ (functionDefinitions moduleFqn tree).map Prod.fst := by
  constructor
  · intro h
    obtain ⟨entry, hentry, rfl⟩ := List.mem_map.mp h
    obtain ⟨front, body, back, hdefinitions, -, -⟩ := first_definition moduleFqn tree hentry
    rw [hdefinitions]
    simp
  · intro h
    obtain ⟨definition, hdefinition, rfl⟩ := List.mem_map.mp h
    obtain ⟨entry, hentry, hfqn⟩ := exists_mem_values_indexBy ComplexityEntry.fqn
      (List.mem_map_of_mem (f := complexityOf) hdefinition)
    refine List.mem_map.mpr ⟨entry, ?_, hfqn⟩
    rw [mem_extractPythonComplexity]
    exact (mem_values_indexBy _ _ entry).mp hentry

theorem nodup_complexity_fqns :
    ((extractPythonComplexity moduleFqn tree).map (·.fqn)).Nodup := by
  refine (((List.perm_insertionSort _ _).map _).nodup_iff).mpr ?_
  exact nodup_values_indexBy ComplexityEntry.fqn _

/-! ## The API surface -/

/-- The kinds of a function or a method. -/
def functionKinds : List String := ["function", "async_function", "method", "async_method"]

theorem exists_functionCandidate_iff (owner asyncKind kind : String)
    (hasync : asyncKind ∈ functionKinds) (hkind : kind ∈ functionKinds) (stmt : Node)
    (fqn : String) :
    (∃ c ∈ functionCandidates lib owner asyncKind kind stmt,
      c.entry.kind ∈ functionKinds ∧ c.entry.fqn = fqn) ↔
        fqn ∈ (functionOf owner stmt).map Prod.fst := by
  cases stmt with
  | functionDef pos isAsync name =>
      simp only [functionCandidates, candidate, List.mem_singleton, exists_eq_left, functionOf,
        List.map_cons, List.map_nil, eq_comm (a := fqn)]
      refine and_iff_right ?_
      split
      · exact hasync
      · exact hkind
  | _ => simp [functionCandidates, functionOf]

theorem exists_surfaceCandidate_iff (stmt : Node) (fqn : String) :
    (∃ c ∈ surfaceCandidates lib moduleFqn stmt,
      c.entry.kind ∈ functionKinds ∧ c.entry.fqn = fqn) ↔
        fqn ∈ (functionsOf moduleFqn stmt).map Prod.fst := by
  cases stmt with
  | functionDef pos isAsync name args body decoratorList returns typeParams =>
      exact exists_functionCandidate_iff lib moduleFqn "async_function" "function" (by decide)
        (by decide) (.functionDef pos isAsync name args body decoratorList returns typeParams) fqn
  | classDef pos name bases keywords body decoratorList typeParams =>
      have hclass : "class" ∉ functionKinds := by decide
      have hmethod (s : Node) := exists_functionCandidate_iff lib (joinFqn [moduleFqn, name])
        "async_method" "method" (by decide) (by decide) s fqn
      simp only [surfaceCandidates, candidate, extractClassMethods, functionsOf,
        List.exists_mem_cons_iff, hclass, false_and, false_or, List.mem_flatMap, List.map_flatMap,
        ← hmethod]
      constructor
      · rintro ⟨c, ⟨s, hs, hc⟩, h⟩
        exact ⟨s, hs, c, hc, h⟩
      · rintro ⟨s, hs, c, hc, h⟩
        exact ⟨c, ⟨s, hs, hc⟩, h⟩
  | _ =>
      have hconstant : "constant" ∉ functionKinds := by decide
      simp only [surfaceCandidates, extractConstants, functionsOf, functionOf, List.map_nil,
        List.not_mem_nil, iff_false]
      rintro ⟨c, hc, hkind, -⟩
      obtain ⟨id, -, rfl⟩ := List.mem_map.mp hc
      exact hconstant hkind

/-- Candidates of one key have one name and one kind. -/
theorem dedupeKey_eq {c c' : SurfaceCandidate} (h : dedupeKey c = dedupeKey c') :
    c.entry.fqn = c'.entry.fqn ∧ c.entry.kind = c'.entry.kind := by
  unfold dedupeKey at h
  split at h <;> split at h <;> simp only [List.cons.injEq, reduceCtorEq, and_false] at h <;>
    exact ⟨h.1, h.2.1⟩

/-- The candidates of a module. -/
def moduleCandidates : List SurfaceCandidate :=
  (iterModuleScopeStatements (moduleBody tree)).flatMap (surfaceCandidates lib moduleFqn)

/-- Only the statements that the extractor looks at have candidates. -/
theorem mem_moduleCandidates (c : SurfaceCandidate) :
    c ∈ moduleCandidates lib moduleFqn tree ↔
      ∃ n ∈ scopeNodes (moduleBody tree), c ∈ surfaceCandidates lib moduleFqn n := by
  simp only [moduleCandidates, iterModuleScopeStatements, scanModuleScope_eq, List.mem_flatMap]
  constructor
  · rintro ⟨stmt, ⟨n, hn, hstmt⟩, hc⟩
    refine ⟨n, hn, ?_⟩
    cases n with
    | functionDef => exact List.mem_singleton.mp hstmt ▸ hc
    | classDef => exact List.mem_singleton.mp hstmt ▸ hc
    | assign => exact List.mem_singleton.mp hstmt ▸ hc
    | annAssign => exact List.mem_singleton.mp hstmt ▸ hc
    | _ => cases hstmt
  · rintro ⟨n, hn, hc⟩
    refine ⟨n, ⟨n, hn, ?_⟩, hc⟩
    cases n with
    | functionDef => exact List.mem_singleton_self _
    | classDef => exact List.mem_singleton_self _
    | assign => exact List.mem_singleton_self _
    | annAssign => exact List.mem_singleton_self _
    | _ => exact absurd hc List.not_mem_nil

theorem exists_moduleCandidate_iff (fqn : String) :
    (∃ c ∈ moduleCandidates lib moduleFqn tree,
      c.entry.kind ∈ functionKinds ∧ c.entry.fqn = fqn) ↔
        fqn ∈ (functionDefinitions moduleFqn tree).map Prod.fst := by
  simp only [mem_moduleCandidates, functionDefinitions, List.map_flatMap, List.mem_flatMap,
    ← exists_surfaceCandidate_iff lib moduleFqn]
  constructor
  · rintro ⟨c, ⟨n, hn, hc⟩, h⟩
    exact ⟨n, hn, c, hc, h⟩
  · rintro ⟨n, hn, c, hc, h⟩
    exact ⟨c, ⟨n, hn, hc⟩, h⟩

theorem mem_surface_fqns (fqn : String) :
    (∃ entry ∈ extractPythonApiSurface lib moduleFqn tree,
      entry.kind ∈ functionKinds ∧ entry.fqn = fqn) ↔
        fqn ∈ (functionDefinitions moduleFqn tree).map Prod.fst := by
  rw [← exists_moduleCandidate_iff lib moduleFqn tree fqn]
  simp only [extractPythonApiSurface, sortSurfaceEntries, List.mem_insertionSort, List.mem_map,
    exists_exists_and_eq_and]
  constructor
  · rintro ⟨c, hc, h⟩
    exact ⟨c, (values_indexBy_sublist dedupeKey _).subset hc, h⟩
  · rintro ⟨c, hc, hkind, hfqn⟩
    obtain ⟨first, hfirst, hkey⟩ := exists_mem_values_indexBy dedupeKey hc
    obtain ⟨hfqn', hkind'⟩ := dedupeKey_eq hkey
    exact ⟨first, hfirst, hkind' ▸ hkind, hfqn'.trans hfqn⟩

/-- The names with a complexity are those of the functions and methods on the API surface, each
once, with the metrics of the first definition in source order. -/
theorem complexity_parity :
    (∀ fqn, fqn ∈ (extractPythonComplexity moduleFqn tree).map (·.fqn) ↔
      ∃ entry ∈ extractPythonApiSurface lib moduleFqn tree,
        entry.kind ∈ functionKinds ∧ entry.fqn = fqn) ∧
    ((extractPythonComplexity moduleFqn tree).map (·.fqn)).Nodup ∧
    (∀ entry ∈ extractPythonComplexity moduleFqn tree, ∃ front body back,
      functionDefinitions moduleFqn tree = front ++ (entry.fqn, body) :: back ∧
        entry.fqn ∉ front.map Prod.fst ∧ entry = complexityOf (entry.fqn, body)) ∧
    (scopeNodes (moduleBody tree)).Sublist (preorder tree) := by
  refine ⟨fun fqn => ?_, nodup_complexity_fqns moduleFqn tree, ?_, scopeNodes_sublist tree⟩
  · rw [mem_complexity_fqns, mem_surface_fqns]
  · intro entry hentry
    exact first_definition moduleFqn tree hentry

end Parity

end SemanticCi.Extraction
