import SemanticCi.Verification.Extraction.ModuleScope

/-! Lexical scope: in which bodies of definitions a node of a syntax tree stands. Decorators,
arguments with their defaults and annotations, return annotations, type parameters, base classes
and class keywords stand outside the definition that they belong to. -/

namespace SemanticCi.Extraction

open SemanticCi.Python.Ast

/-- `def`, `class` and `lambda` open a scope. -/
def opensScope : Node → Bool
  | .functionDef .. | .classDef .. | .lambda .. => true
  | _ => false

/-- The node stands below the other, inside the bodies of the listed definitions, from the outside
in. -/
inductive LexicallyIn : Node → List String → Node → Prop where
  | self (n : Node) : LexicallyIn n [] n
  | functionHead {pos isAsync name args body decoratorList returns typeParams c chain n}
      (hc : c = args ∨ c ∈ decoratorList ∨ returns = some c ∨ c ∈ typeParams)
      (h : LexicallyIn c chain n) :
      LexicallyIn (.functionDef pos isAsync name args body decoratorList returns typeParams) chain n
  | functionBody {pos isAsync name args body decoratorList returns typeParams c chain n}
      (hc : c ∈ body) (h : LexicallyIn c chain n) :
      LexicallyIn (.functionDef pos isAsync name args body decoratorList returns typeParams)
        (name :: chain) n
  | classHead {pos name bases keywords body decoratorList typeParams c chain n}
      (hc : c ∈ bases ∨ c ∈ keywords ∨ c ∈ decoratorList ∨ c ∈ typeParams)
      (h : LexicallyIn c chain n) :
      LexicallyIn (.classDef pos name bases keywords body decoratorList typeParams) chain n
  | classBody {pos name bases keywords body decoratorList typeParams c chain n}
      (hc : c ∈ body) (h : LexicallyIn c chain n) :
      LexicallyIn (.classDef pos name bases keywords body decoratorList typeParams)
        (name :: chain) n
  | lambdaHead {pos args body chain n} (h : LexicallyIn args chain n) :
      LexicallyIn (.lambda pos args body) chain n
  | lambdaBody {pos args body chain n} (h : LexicallyIn body chain n) :
      LexicallyIn (.lambda pos args body) ("<lambda>" :: chain) n
  | child {s c chain n} (hs : opensScope s = false) (hc : c ∈ s.children)
      (h : LexicallyIn c chain n) : LexicallyIn s chain n

/-! ## The nodes of a tree with their scopes -/

/-- The children of a node in the order of its fields, each in its scope. -/
def scopedChildren (scope : List String) : Node → List (List String × Node)
  | .functionDef _ _ name args body decoratorList returns typeParams =>
      (scope, args) :: body.map (scope ++ [name], ·) ++ decoratorList.map (scope, ·) ++
        returns.toList.map (scope, ·) ++ typeParams.map (scope, ·)
  | .classDef _ name bases keywords body decoratorList typeParams =>
      bases.map (scope, ·) ++ keywords.map (scope, ·) ++ body.map (scope ++ [name], ·) ++
        decoratorList.map (scope, ·) ++ typeParams.map (scope, ·)
  | .lambda _ args body => [(scope, args), (scope ++ ["<lambda>"], body)]
  | n => n.children.map (scope, ·)

theorem map_snd_pair {α β : Type} (a : α) (xs : List β) :
    (xs.map (a, ·)).map Prod.snd = xs := by
  simp

/-- Every child once. -/
theorem map_snd_scopedChildren (scope : List String) (n : Node) :
    (scopedChildren scope n).map Prod.snd = n.children := by
  cases n with
  | functionDef =>
      simp only [scopedChildren, Node.children, List.map_append, List.map_cons, map_snd_pair]
  | classDef => simp only [scopedChildren, Node.children, List.map_append, map_snd_pair]
  | lambda => rfl
  | _ => exact map_snd_pair scope _

/-- All nodes of a tree, each in its scope. -/
def scopedNodes : Visitor (List String) Node (List String × Node) where
  here scope n := [(scope, n)]
  next := scopedChildren
  descends := by
    intro scope n step hstep
    apply Node.sizeOf_lt_of_mem_children
    rw [← map_snd_scopedChildren scope n]
    exact List.mem_map_of_mem hstep

def lexicalNodes (tree : Node) : List (List String × Node) := scopedNodes.run [] tree

theorem run_scopedNodes (scope : List String) (n : Node) :
    scopedNodes.run scope n =
      (scope, n) :: (scopedChildren scope n).flatMap fun step => scopedNodes.run step.1 step.2 :=
  scopedNodes.run_eq scope n

theorem map_snd_scopedNodes (scope : List String) (n : Node) :
    (scopedNodes.run scope n).map Prod.snd = preorder n := by
  rw [run_scopedNodes, preorder_eq, List.map_cons, List.map_flatMap,
    ← map_snd_scopedChildren scope n, List.flatMap_map]
  congr 1
  apply List.flatMap_congr
  intro step hstep
  have := scopedNodes.descends scope n step hstep
  exact map_snd_scopedNodes step.1 step.2
termination_by sizeOf n

/-- Every node of the tree occurs once for each place where it stands. -/
theorem map_snd_lexicalNodes (tree : Node) : (lexicalNodes tree).map Prod.snd = preorder tree :=
  map_snd_scopedNodes [] tree

/-! ## Soundness and completeness of the enumeration -/

/-- The scope of a child: it extends that of its parent by a definition whose body it is in. -/
theorem lexicallyIn_of_scopedChild {scope : List String} {s n : Node}
    {step : List String × Node} (hstep : step ∈ scopedChildren scope s) {rest : List String}
    (h : LexicallyIn step.2 rest n) :
    ∃ chain, step.1 ++ rest = scope ++ chain ∧ LexicallyIn s chain n := by
  cases s with
  | functionDef pos isAsync name args body decoratorList returns typeParams =>
      simp only [scopedChildren, List.mem_append, List.mem_cons, List.mem_map] at hstep
      rcases hstep with (((rfl | ⟨c, hc, rfl⟩) | ⟨c, hc, rfl⟩) | ⟨c, hc, rfl⟩) | ⟨c, hc, rfl⟩
      · exact ⟨rest, rfl, .functionHead (.inl rfl) h⟩
      · exact ⟨name :: rest, by simp, .functionBody hc h⟩
      · exact ⟨rest, rfl, .functionHead (.inr (.inl hc)) h⟩
      · exact ⟨rest, rfl, .functionHead (.inr (.inr (.inl (Option.mem_toList.mp hc)))) h⟩
      · exact ⟨rest, rfl, .functionHead (.inr (.inr (.inr hc))) h⟩
  | classDef pos name bases keywords body decoratorList typeParams =>
      simp only [scopedChildren, List.mem_append, List.mem_map] at hstep
      rcases hstep with (((⟨c, hc, rfl⟩ | ⟨c, hc, rfl⟩) | ⟨c, hc, rfl⟩) | ⟨c, hc, rfl⟩) |
        ⟨c, hc, rfl⟩
      · exact ⟨rest, rfl, .classHead (.inl hc) h⟩
      · exact ⟨rest, rfl, .classHead (.inr (.inl hc)) h⟩
      · exact ⟨name :: rest, by simp, .classBody hc h⟩
      · exact ⟨rest, rfl, .classHead (.inr (.inr (.inl hc))) h⟩
      · exact ⟨rest, rfl, .classHead (.inr (.inr (.inr hc))) h⟩
  | lambda pos args body =>
      simp only [scopedChildren, List.mem_cons, List.not_mem_nil, or_false] at hstep
      rcases hstep with rfl | rfl
      · exact ⟨rest, rfl, .lambdaHead h⟩
      · exact ⟨"<lambda>" :: rest, by simp, .lambdaBody h⟩
  | _ =>
      obtain ⟨c, hc, rfl⟩ := List.mem_map.mp hstep
      exact ⟨rest, rfl, .child rfl hc h⟩

theorem scopedChildren_of_not_opensScope (scope : List String) {s : Node}
    (hs : opensScope s = false) : scopedChildren scope s = s.children.map (scope, ·) := by
  cases s with
  | functionDef => cases hs
  | classDef => cases hs
  | lambda => cases hs
  | _ => rfl

theorem lexicallyIn_of_mem_run {scope scope' : List String} {s n : Node}
    (h : (scope', n) ∈ scopedNodes.run scope s) :
    ∃ chain, scope' = scope ++ chain ∧ LexicallyIn s chain n := by
  rw [run_scopedNodes, List.mem_cons, List.mem_flatMap] at h
  rcases h with h | ⟨step, hstep, h⟩
  · obtain ⟨rfl, rfl⟩ := Prod.mk.inj h
    exact ⟨[], by simp, .self n⟩
  · have := scopedNodes.descends scope s step hstep
    obtain ⟨rest, rfl, hrest⟩ := lexicallyIn_of_mem_run h
    exact lexicallyIn_of_scopedChild hstep hrest
termination_by sizeOf s

theorem mem_run_of_step {scope : List String} {s : Node} {item : List String × Node}
    (step : List String × Node) (hstep : step ∈ scopedChildren scope s)
    (h : item ∈ scopedNodes.run step.1 step.2) :
    item ∈ scopedNodes.run scope s := by
  rw [run_scopedNodes]
  exact List.mem_cons_of_mem _ (List.mem_flatMap.mpr ⟨step, hstep, h⟩)

theorem mem_run_of_lexicallyIn {s n : Node} {chain : List String} (h : LexicallyIn s chain n)
    (scope : List String) : (scope ++ chain, n) ∈ scopedNodes.run scope s := by
  induction h generalizing scope with
  | self n =>
      rw [run_scopedNodes, List.append_nil]
      exact List.mem_cons_self
  | @functionHead _ _ _ _ _ _ _ _ c _ _ hc _ ih =>
      apply mem_run_of_step (scope, c) _ (ih scope)
      simp only [scopedChildren, List.mem_append, List.mem_cons, List.mem_map]
      rcases hc with rfl | hc | hc | hc
      · exact .inl (.inl (.inl (.inl rfl)))
      · exact .inl (.inl (.inr ⟨c, hc, rfl⟩))
      · exact .inl (.inr ⟨c, Option.mem_toList.mpr hc, rfl⟩)
      · exact .inr ⟨c, hc, rfl⟩
  | @functionBody _ _ name _ _ _ _ _ c chain _ hc _ ih =>
      have hbody := ih (scope ++ [name])
      rw [List.append_assoc] at hbody
      apply mem_run_of_step (scope ++ [name], c) _ hbody
      simp only [scopedChildren, List.mem_append, List.mem_cons, List.mem_map]
      exact .inl (.inl (.inl (.inr ⟨c, hc, rfl⟩)))
  | @classHead _ _ _ _ _ _ _ c _ _ hc _ ih =>
      apply mem_run_of_step (scope, c) _ (ih scope)
      simp only [scopedChildren, List.mem_append, List.mem_map]
      rcases hc with hc | hc | hc | hc
      · exact .inl (.inl (.inl (.inl ⟨c, hc, rfl⟩)))
      · exact .inl (.inl (.inl (.inr ⟨c, hc, rfl⟩)))
      · exact .inl (.inr ⟨c, hc, rfl⟩)
      · exact .inr ⟨c, hc, rfl⟩
  | @classBody _ name _ _ _ _ _ c chain _ hc _ ih =>
      have hbody := ih (scope ++ [name])
      rw [List.append_assoc] at hbody
      apply mem_run_of_step (scope ++ [name], c) _ hbody
      simp only [scopedChildren, List.mem_append, List.mem_map]
      exact .inl (.inl (.inr ⟨c, hc, rfl⟩))
  | @lambdaHead _ args _ _ _ _ ih =>
      apply mem_run_of_step (scope, args) _ (ih scope)
      exact List.mem_cons_self
  | @lambdaBody _ _ body chain _ _ ih =>
      have hbody := ih (scope ++ ["<lambda>"])
      rw [List.append_assoc] at hbody
      apply mem_run_of_step (scope ++ ["<lambda>"], body) _ hbody
      exact List.mem_cons_of_mem _ (List.mem_singleton_self _)
  | @child _ c _ _ hs hc _ ih =>
      apply mem_run_of_step (scope, c) _ (ih scope)
      rw [scopedChildren_of_not_opensScope scope hs]
      exact List.mem_map_of_mem hc

/-- The enumeration pairs a node with the scopes that it stands in. -/
theorem mem_lexicalNodes (tree n : Node) (chain : List String) :
    (chain, n) ∈ lexicalNodes tree ↔ LexicallyIn tree chain n := by
  constructor
  · intro h
    obtain ⟨chain', hchain, h⟩ := lexicallyIn_of_mem_run h
    rw [List.nil_append] at hchain
    exact hchain ▸ h
  · intro h
    exact mem_run_of_lexicallyIn h []

end SemanticCi.Extraction
