import SemanticCi.Python.Ast

/-! Syntax trees whose nodes are moved in their file. -/

namespace SemanticCi.Python.Ast.Node

mutual

/-- The tree with every node moved to another position. -/
def reposition (g : Pos → Pos) : Node → Node
  | module body => module (repositionAll g body)
  | functionDef pos isAsync id args body decoratorList returns typeParams =>
    functionDef (g pos) isAsync id (reposition g args) (repositionAll g body)
      (repositionAll g decoratorList) (repositionOption g returns) (repositionAll g typeParams)
  | classDef pos id bases keywords body decoratorList typeParams =>
    classDef (g pos) id (repositionAll g bases) (repositionAll g keywords)
      (repositionAll g body) (repositionAll g decoratorList) (repositionAll g typeParams)
  | delete pos targets => delete (g pos) (repositionAll g targets)
  | assign pos targets value => assign (g pos) (repositionAll g targets) (reposition g value)
  | augAssign pos target op value =>
    augAssign (g pos) (reposition g target) op (reposition g value)
  | annAssign pos target annotation value =>
    annAssign (g pos) (reposition g target) (reposition g annotation) (repositionOption g value)
  | forLoop pos isAsync target iter body orelse =>
    forLoop (g pos) isAsync (reposition g target) (reposition g iter) (repositionAll g body)
      (repositionAll g orelse)
  | whileLoop pos test body orelse =>
    whileLoop (g pos) (reposition g test) (repositionAll g body) (repositionAll g orelse)
  | ifStmt pos test body orelse =>
    ifStmt (g pos) (reposition g test) (repositionAll g body) (repositionAll g orelse)
  | withStmt pos isAsync items body =>
    withStmt (g pos) isAsync (repositionAll g items) (repositionAll g body)
  | matchStmt pos subject cases =>
    matchStmt (g pos) (reposition g subject) (repositionAll g cases)
  | tryStmt pos isStar body handlers orelse finalbody =>
    tryStmt (g pos) isStar (repositionAll g body) (repositionAll g handlers)
      (repositionAll g orelse) (repositionAll g finalbody)
  | assert pos test msg => assert (g pos) (reposition g test) (repositionOption g msg)
  | importStmt pos names => importStmt (g pos) names
  | importFrom pos source names level => importFrom (g pos) source names level
  | global pos names => global (g pos) names
  | nonlocal pos names => nonlocal (g pos) names
  | boolOp pos op values => boolOp (g pos) op (repositionAll g values)
  | namedExpr pos target value => namedExpr (g pos) (reposition g target) (reposition g value)
  | lambda pos args body => lambda (g pos) (reposition g args) (reposition g body)
  | ifExp pos test body orelse =>
    ifExp (g pos) (reposition g test) (reposition g body) (reposition g orelse)
  | listComp pos elt generators =>
    listComp (g pos) (reposition g elt) (repositionAll g generators)
  | setComp pos elt generators =>
    setComp (g pos) (reposition g elt) (repositionAll g generators)
  | generatorExp pos elt generators =>
    generatorExp (g pos) (reposition g elt) (repositionAll g generators)
  | dictComp pos key value generators =>
    dictComp (g pos) (reposition g key) (reposition g value) (repositionAll g generators)
  | call pos func args keywords =>
    call (g pos) (reposition g func) (repositionAll g args) (repositionAll g keywords)
  | attributeRef pos value attr => attributeRef (g pos) (reposition g value) attr
  | subscript pos value slice => subscript (g pos) (reposition g value) (reposition g slice)
  | starred pos value => starred (g pos) (reposition g value)
  | name pos id => name (g pos) id
  | list pos elts => list (g pos) (repositionAll g elts)
  | tuple pos elts => tuple (g pos) (repositionAll g elts)
  | comprehension isAsync target iter ifs =>
    comprehension isAsync (reposition g target) (reposition g iter) (repositionAll g ifs)
  | exceptHandler pos type id body =>
    exceptHandler (g pos) (repositionOption g type) id (repositionAll g body)
  | keyword pos arg value => keyword (g pos) arg (reposition g value)
  | withitem contextExpr optionalVars =>
    withitem (reposition g contextExpr) (repositionOption g optionalVars)
  | matchCase pattern guard body =>
    matchCase (reposition g pattern) (repositionOption g guard) (repositionAll g body)
  | other cls texts pos children => other cls texts (pos.map g) (repositionAll g children)

def repositionAll (g : Pos → Pos) : List Node → List Node
  | [] => []
  | n :: rest => reposition g n :: repositionAll g rest

def repositionOption (g : Pos → Pos) : Option Node → Option Node
  | none => none
  | some n => some (reposition g n)

end

@[simp] theorem repositionAll_eq_map (g : Pos → Pos) (nodes : List Node) :
    repositionAll g nodes = nodes.map (reposition g) := by
  induction nodes with
  | nil => rfl
  | cons n rest ih => simp [repositionAll, ih]

@[simp] theorem repositionOption_eq_map (g : Pos → Pos) (node : Option Node) :
    repositionOption g node = node.map (reposition g) := by
  cases node <;> rfl

theorem toList_map {α β : Type} (f : α → β) (o : Option α) :
    (o.map f).toList = o.toList.map f := by
  cases o <;> rfl

end SemanticCi.Python.Ast.Node
