import SemanticCi.Model.EffectExtractor
import SemanticCi.Verification.Extraction.LexicalScope

/-! Call effects: one entry for each call that resolves to an entry of the database, under the
name of the scope that the call stands in. -/

namespace SemanticCi.Extraction

open SemanticCi.Python SemanticCi.Python.Ast SemanticCi.StateSchema OrderedDict

/-! ## What a call says -/

/-- The name of a chain of scopes. -/
def lexicalFqn (moduleFqn : String) (chain : List String) : String :=
  match (if moduleFqn = "" then [] else [moduleFqn]) ++ chain with
  | [] => "<module>"
  | parts => ".".intercalate parts

theorem enclosingFqn_eq (moduleFqn : String) (chain : List String) :
    enclosingFqn moduleFqn chain = lexicalFqn moduleFqn chain := by
  by_cases hmodule : moduleFqn = ""
  · cases chain <;> simp [enclosingFqn, lexicalFqn, hmodule]
  · cases chain with
    | nil => simp [enclosingFqn, lexicalFqn, hmodule]
    | cons name rest =>
        have happend : ".".intercalate ([moduleFqn] ++ name :: rest) =
            moduleFqn ++ "." ++ ".".intercalate (name :: rest) := by
          rw [String.intercalate_append_of_ne_nil (by simp) (by simp)]
          simp
        simp [enclosingFqn, lexicalFqn, hmodule]

section OneTree

variable (db : List EffectSignature) (aliasMap : OrderedDict String String)
  (filename moduleFqn : String)

/-- The first Python entry of the database for a call. -/
def pythonEntry (call : String) : Option EffectSignature :=
  db.find? fun signature => signature.language = "python" ∧ signature.call = call

/-- The entry that a node in its scopes must have, if any: it is a call, its dotted callee
resolves, and the database has the result. -/
def expectedEntry (place : List String × Node) : Option EffectEntry :=
  match place.2 with
  | .call pos func _ _ => do
    let raw ← resolveDottedName func
    let signature ← pythonEntry db (resolveCall raw aliasMap).1
    return {
      fqn := lexicalFqn moduleFqn place.1
      effectClass := signature.effectClass
      confidence := some 1
      evidence := .object [("raw_call", .str raw),
        ("resolved_call", .str (resolveCall raw aliasMap).1), ("file", .str filename),
        ("line", .int pos.lineno),
        ("resolution_level", .str (resolveCall raw aliasMap).2.value)] }
  | _ => none

theorem get?_buildCallIndex (call : String) :
    (buildCallIndex db).get? call = pythonEntry db call := by
  rw [buildCallIndex, get?_indexBy, List.find?_filter, pythonEntry]
  simp only [decide_eq_true_eq, Bool.decide_and]

/-- What is recorded at a call is what is expected of it. -/
theorem map_callEntry_callSite (chain : List String) (n : Node) :
    (callSite (buildCallIndex db) aliasMap chain n).map (callEntry filename moduleFqn) =
      (expectedEntry db aliasMap filename moduleFqn (chain, n)).toList := by
  cases n with
  | call pos func args keywords =>
      simp only [callSite, expectedEntry, get?_buildCallIndex]
      cases resolveDottedName func with
      | none => rfl
      | some raw =>
          simp only [Option.bind_eq_bind, Option.bind_some]
          cases pythonEntry db (resolveCall raw aliasMap).1 with
          | none => rfl
          | some signature =>
              simp [callEntry, enclosingFqn_eq]
  | _ => rfl

/-! ## The visitor -/

theorem head_then_body_perm {α : Type} (args : α) (decorators returns typeParams body : List α) :
    (decorators ++ args :: returns ++ typeParams ++ body).Perm
      (args :: body ++ decorators ++ returns ++ typeParams) := by
  classical
  apply List.perm_iff_count.mpr
  intro x
  simp only [List.count_append, List.count_cons]
  omega

theorem class_head_then_body_perm {α : Type}
    (bases keywords decorators typeParams body : List α) :
    (decorators ++ bases ++ keywords ++ typeParams ++ body).Perm
      (bases ++ keywords ++ body ++ decorators ++ typeParams) := by
  classical
  apply List.perm_iff_count.mpr
  intro x
  simp only [List.count_append]
  omega

/-- The visitor goes on to every child once, in its scope, though in an order of its own. -/
theorem visitedNodes_perm (scope : List String) (n : Node) :
    (visitedNodes scope n).Perm (scopedChildren scope n) := by
  cases n with
  | functionDef pos isAsync name args body decoratorList returns typeParams =>
      simp only [visitedNodes, scopedChildren, List.map_append, List.map_cons]
      exact head_then_body_perm (scope, args) _ _ _ _
  | classDef pos name bases keywords body decoratorList typeParams =>
      simp only [visitedNodes, scopedChildren, List.map_append]
      exact class_head_then_body_perm _ _ _ _ _
  | lambda => exact .refl _
  | _ => exact .refl _

/-- The visitor records the effects of all nodes in their scopes. -/
theorem run_callEffectVisitor_perm (index : OrderedDict String EffectSignature) (tree : Node) :
    ((callEffectVisitor index aliasMap).run [] tree).Perm
      ((lexicalNodes tree).flatMap fun place => callSite index aliasMap place.1 place.2) := by
  rw [lexicalNodes, ← Visitor.run_bindItems]
  apply Visitor.run_perm
  · intro scope n
    simp [callEffectVisitor, Visitor.bindItems, scopedNodes]
  · intro scope n
    exact visitedNodes_perm scope n

/-- Every node of the tree is enumerated once, in the scopes that it lexically stands in, and the
extracted entries are those that the enumerated nodes must have. -/
theorem callEffects_exact (tree : Node) :
    (lexicalNodes tree).map Prod.snd = preorder tree ∧
      (∀ chain n, (chain, n) ∈ lexicalNodes tree ↔ LexicallyIn tree chain n) ∧
      (extractCallEffects (buildCallIndex db) aliasMap filename moduleFqn tree).Perm
        ((lexicalNodes tree).filterMap (expectedEntry db aliasMap filename moduleFqn)) := by
  refine ⟨map_snd_lexicalNodes tree, fun chain n => mem_lexicalNodes tree n chain, ?_⟩
  have hentries : (lexicalNodes tree).filterMap (expectedEntry db aliasMap filename moduleFqn) =
      ((lexicalNodes tree).flatMap fun place =>
        callSite (buildCallIndex db) aliasMap place.1 place.2).map
          (callEntry filename moduleFqn) := by
    rw [List.filterMap_eq_flatMap_toList, List.map_flatMap]
    apply List.flatMap_congr
    intro place _
    exact (map_callEntry_callSite db aliasMap filename moduleFqn place.1 place.2).symm
  rw [hentries, extractCallEffects]
  exact (run_callEffectVisitor_perm aliasMap (buildCallIndex db) tree).map _

end OneTree

end SemanticCi.Extraction
