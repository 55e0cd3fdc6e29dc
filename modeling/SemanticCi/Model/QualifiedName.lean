import SemanticCi.Python.Ast

/-! The qualified name of the scope around a source line (`ssp/adapters/qualified_name.py`). -/

namespace SemanticCi.Ssp.QualifiedName

open SemanticCi.Python.Ast

/-! ## Lines -/

/-- `lineno`, `col_offset` and `end_lineno` of the node classes that have them. -/
def pos? : Node → Option Pos
  | .module _ => none
  | .functionDef pos .. => some pos
  | .classDef pos .. => some pos
  | .delete pos _ => some pos
  | .assign pos _ _ => some pos
  | .augAssign pos _ _ _ => some pos
  | .annAssign pos _ _ _ => some pos
  | .forLoop pos .. => some pos
  | .whileLoop pos .. => some pos
  | .ifStmt pos .. => some pos
  | .withStmt pos .. => some pos
  | .matchStmt pos .. => some pos
  | .tryStmt pos .. => some pos
  | .assert pos .. => some pos
  | .importStmt pos _ => some pos
  | .importFrom pos .. => some pos
  | .global pos _ => some pos
  | .nonlocal pos _ => some pos
  | .boolOp pos .. => some pos
  | .namedExpr pos .. => some pos
  | .lambda pos .. => some pos
  | .ifExp pos .. => some pos
  | .listComp pos .. => some pos
  | .setComp pos .. => some pos
  | .generatorExp pos .. => some pos
  | .dictComp pos .. => some pos
  | .call pos .. => some pos
  | .attributeRef pos .. => some pos
  | .subscript pos .. => some pos
  | .starred pos _ => some pos
  | .name pos _ => some pos
  | .list pos _ => some pos
  | .tuple pos _ => some pos
  | .comprehension .. => none
  | .exceptHandler pos .. => some pos
  | .keyword pos .. => some pos
  | .withitem .. => none
  | .matchCase .. => none
  | .other _ _ pos _ => pos

/-- `getattr(node, "decorator_list", ())`. -/
def decoratorList : Node → List Node
  | .functionDef _ _ _ _ _ decorators _ _ => decorators
  | .classDef _ _ _ _ _ decorators _ => decorators
  | _ => []

/-- `_start_line`. -/
def startLine (n : Node) : Option ℕ :=
  let start := (pos? n).map (·.lineno)
  let decoratorLines := (decoratorList n).filterMap fun d => (pos? d).map (·.lineno)
  match decoratorLines.min?, start with
  | none, _ => start
  | some decoratorStart, some start => some (min start decoratorStart)
  | some decoratorStart, none => some decoratorStart

/-- `_contains_line`. -/
def containsLine (n : Node) (line : ℕ) : Bool :=
  match startLine n with
  | none => false
  | some start =>
    if line < start then false
    else line ≤ ((pos? n).map (·.endLineno)).getD start

/-- `_may_contain_line`. -/
def mayContainLine (n : Node) (line : ℕ) : Bool :=
  if (pos? n).isSome then containsLine n line else true

/-! ## Scopes -/

/-- The name of a node of `_SCOPE_NODES`. -/
def scopeName : Node → Option String
  | .functionDef _ _ name _ _ _ _ _ => some name
  | .classDef _ name _ _ _ _ _ => some name
  | _ => none

/-- The `next_stack` of a scope node around the line. -/
def enterScope (line : ℕ) (stack : List String) (n : Node) : Option (List String) :=
  match scopeName n with
  | some name => if containsLine n line then some (stack ++ [name]) else none
  | none => none

/-- The longer of two stacks, the first one when in doubt. -/
def longer (best next : List String) : List String :=
  if next.length > best.length then next else best

section Traversal

-- Which children the traversal enters.
variable (relevant : Node → Bool) (line : ℕ)

mutual

/-- `visit`, with the value of `best`. -/
def visit (best stack : List String) (n : Node) : List String :=
  match enterScope line stack n with
  | some next => visitChildren (longer best next) next n.children
  | none => visitChildren best stack n.children
termination_by (sizeOf n, 0)
decreasing_by
  all_goals
    have hchildren := Node.sum_children_lt n
    simp [Prod.lex_def]
    omega

/-- The loop over `ast.iter_child_nodes`. -/
def visitChildren (best stack : List String) : List Node → List String
  | [] => best
  | child :: rest =>
    visitChildren (if relevant child then visit best stack child else best) stack rest
termination_by children => ((children.map sizeOf).sum, 1)
decreasing_by
  all_goals
    have hchild : 0 < sizeOf child := by cases child <;> simp
    simp [Prod.lex_def]
    omega

end

end Traversal

/-- `_scope_for_line`. -/
def scopeForLine (tree : Node) (line : ℕ) : List String :=
  visit (fun child => mayContainLine child line) line [] [] tree

/-- The same traversal of the whole tree. -/
def unprunedScopeForLine (tree : Node) (line : ℕ) : List String :=
  visit (fun _ => true) line [] [] tree

/-- `qualified_name_for_line`, of a module whose source parses or does not. -/
def qualifiedNameForLine (moduleName : String) (tree : Option Node) (line : ℕ) : String :=
  match tree with
  | none => moduleName
  | some tree =>
    match scopeForLine tree line with
    | [] => moduleName
    | scope => ".".intercalate (moduleName :: scope)

end SemanticCi.Ssp.QualifiedName
