import Mathlib

/-! The syntax trees of Python's `ast` module. -/

namespace SemanticCi.Python.Ast

/-- Where a node stands in its file. -/
structure Pos where
  lineno : ℕ
  colOffset : ℕ
  endLineno : ℕ
deriving DecidableEq

/-- `ast.alias`. -/
structure Alias where
  name : String
  asname : Option String := none
deriving DecidableEq

/-- The node classes under the names of their fields. A class that nothing here tells apart is
an `other` with its child nodes in order and the texts of its other fields; operators,
expression contexts and type comments have no child nodes and no text of their own. -/
inductive Node where
  | module (body : List Node)
  | functionDef (pos : Pos) (isAsync : Bool) (name : String) (args : Node)
      (body decoratorList : List Node) (returns : Option Node) (typeParams : List Node)
  | classDef (pos : Pos) (name : String) (bases keywords body decoratorList typeParams : List Node)
  | delete (pos : Pos) (targets : List Node)
  | assign (pos : Pos) (targets : List Node) (value : Node)
  | augAssign (pos : Pos) (target : Node) (op : String) (value : Node)
  | annAssign (pos : Pos) (target annotation : Node) (value : Option Node)
  | forLoop (pos : Pos) (isAsync : Bool) (target iter : Node) (body orelse : List Node)
  | whileLoop (pos : Pos) (test : Node) (body orelse : List Node)
  | ifStmt (pos : Pos) (test : Node) (body orelse : List Node)
  | withStmt (pos : Pos) (isAsync : Bool) (items body : List Node)
  | matchStmt (pos : Pos) (subject : Node) (cases : List Node)
  | tryStmt (pos : Pos) (isStar : Bool) (body handlers orelse finalbody : List Node)
  | assert (pos : Pos) (test : Node) (msg : Option Node)
  | importStmt (pos : Pos) (names : List Alias)
  | importFrom (pos : Pos) (module : Option String) (names : List Alias) (level : ℕ)
  | global (pos : Pos) (names : List String)
  | nonlocal (pos : Pos) (names : List String)
  | boolOp (pos : Pos) (op : String) (values : List Node)
  | namedExpr (pos : Pos) (target value : Node)
  | lambda (pos : Pos) (args body : Node)
  | ifExp (pos : Pos) (test body orelse : Node)
  | listComp (pos : Pos) (elt : Node) (generators : List Node)
  | setComp (pos : Pos) (elt : Node) (generators : List Node)
  | generatorExp (pos : Pos) (elt : Node) (generators : List Node)
  | dictComp (pos : Pos) (key value : Node) (generators : List Node)
  | call (pos : Pos) (func : Node) (args keywords : List Node)
  | attributeRef (pos : Pos) (value : Node) (attr : String)
  | subscript (pos : Pos) (value slice : Node)
  | starred (pos : Pos) (value : Node)
  | name (pos : Pos) (id : String)
  | list (pos : Pos) (elts : List Node)
  | tuple (pos : Pos) (elts : List Node)
  | comprehension (isAsync : Bool) (target iter : Node) (ifs : List Node)
  | exceptHandler (pos : Pos) (type : Option Node) (name : Option String) (body : List Node)
  | keyword (pos : Pos) (arg : Option String) (value : Node)
  | withitem (contextExpr : Node) (optionalVars : Option Node)
  | matchCase (pattern : Node) (guard : Option Node) (body : List Node)
  | other (cls : String) (texts : List String) (pos : Option Pos) (children : List Node)

namespace Node

/-- `ast.iter_child_nodes`: the child nodes in the order of the fields. -/
def children : Node → List Node
  | module body => body
  | functionDef _ _ _ args body decoratorList returns typeParams =>
    args :: body ++ decoratorList ++ returns.toList ++ typeParams
  | classDef _ _ bases keywords body decoratorList typeParams =>
    bases ++ keywords ++ body ++ decoratorList ++ typeParams
  | delete _ targets => targets
  | assign _ targets value => targets ++ [value]
  | augAssign _ target _ value => [target, value]
  | annAssign _ target annotation value => target :: annotation :: value.toList
  | forLoop _ _ target iter body orelse => target :: iter :: body ++ orelse
  | whileLoop _ test body orelse => test :: body ++ orelse
  | ifStmt _ test body orelse => test :: body ++ orelse
  | withStmt _ _ items body => items ++ body
  | matchStmt _ subject cases => subject :: cases
  | tryStmt _ _ body handlers orelse finalbody => body ++ handlers ++ orelse ++ finalbody
  | assert _ test msg => test :: msg.toList
  | importStmt _ _ => []
  | importFrom _ _ _ _ => []
  | global _ _ => []
  | nonlocal _ _ => []
  | boolOp _ _ values => values
  | namedExpr _ target value => [target, value]
  | lambda _ args body => [args, body]
  | ifExp _ test body orelse => [test, body, orelse]
  | listComp _ elt generators => elt :: generators
  | setComp _ elt generators => elt :: generators
  | generatorExp _ elt generators => elt :: generators
  | dictComp _ key value generators => key :: value :: generators
  | call _ func args keywords => func :: args ++ keywords
  | attributeRef _ value _ => [value]
  | subscript _ value slice => [value, slice]
  | starred _ value => [value]
  | name _ _ => []
  | list _ elts => elts
  | tuple _ elts => elts
  | comprehension _ target iter ifs => target :: iter :: ifs
  | exceptHandler _ type _ body => type.toList ++ body
  | keyword _ _ value => [value]
  | withitem contextExpr optionalVars => contextExpr :: optionalVars.toList
  | matchCase pattern guard body => pattern :: guard.toList ++ body
  | other _ _ _ children => children

/-! ### Sizes -/

theorem sum_sizeOf_lt (xs : List Node) : (xs.map sizeOf).sum < sizeOf xs := by
  induction xs with
  | nil => simp
  | cons x xs ih =>
    simp only [List.map_cons, List.sum_cons, List.cons.sizeOf_spec]
    omega

theorem sum_toList_lt (o : Option Node) : (o.toList.map sizeOf).sum < sizeOf o := by
  cases o with
  | none => simp
  | some x => simp

/-- The children of a node take up less than the node. -/
theorem sum_children_lt (n : Node) : (n.children.map sizeOf).sum < sizeOf n := by
  have hlist := sum_sizeOf_lt
  have hoption := sum_toList_lt
  cases n <;> simp [children] <;> grind

theorem sizeOf_lt_of_mem_children {c n : Node} (h : c ∈ n.children) : sizeOf c < sizeOf n := by
  have hle : sizeOf c ≤ (n.children.map sizeOf).sum :=
    List.le_sum_of_mem (List.mem_map_of_mem h)
  have hlt := sum_children_lt n
  omega

/-! ### Walks -/

/-- The loop of `ast.walk` over its queue. -/
def walkFrom : List Node → List Node
  | [] => []
  | n :: queue => n :: walkFrom (queue ++ n.children)
termination_by queue => (queue.map sizeOf).sum
decreasing_by
  have hlt := sum_children_lt n
  simp only [List.map_append, List.sum_append, List.map_cons, List.sum_cons]
  omega

/-- `ast.walk`. -/
def walk (n : Node) : List Node := walkFrom [n]

end Node

end SemanticCi.Python.Ast
