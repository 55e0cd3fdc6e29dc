import SemanticCi.Model.ComplexityExtractor

/-! The cyclomatic counter method by method, with the value that it accumulates
(`complexity/python_complexity_extractor.py`). -/

namespace SemanticCi.Extraction.CyclomaticCounter

open SemanticCi.Python.Ast

mutual

/-- `self.visit(node)` at a value of the counter. -/
def visit (value : ℕ) : Node → ℕ
  | .functionDef .. => value
  | .classDef .. => value
  | .ifStmt _ test body orelse =>
    visitStatements (visitStatements (visit (value + 1) test) body) orelse
  | .forLoop _ _ target iter body orelse =>
    visitStatements (visitStatements (visit (visit (value + 1) target) iter) body) orelse
  | .whileLoop _ test body orelse =>
    visitStatements (visitStatements (visit (value + 1) test) body) orelse
  | .exceptHandler _ (some type) _ body => visitStatements (visit (value + 1) type) body
  | .exceptHandler _ none _ body => visitStatements (value + 1) body
  | .ifExp pos test body orelse =>
    visitStatements (value + 1) (Node.ifExp pos test body orelse).children
  | .matchStmt _ _ cases => visitStatements value cases
  | .matchCase _ (some guard) body => visitStatements (visit (value + 1) guard) body
  | .matchCase _ none body => visitStatements (value + 1) body
  | .boolOp _ _ values => visitStatements (value + (values.length - 1)) values
  | .comprehension _ target iter ifs =>
    visitStatements (visit (visit (value + ifs.length) target) iter) ifs
  | .assert _ test (some msg) => visit (visit (value + 1) test) msg
  | .assert _ test none => visit (value + 1) test
  | n => visitStatements value n.children
termination_by n => (sizeOf n, 0)
decreasing_by
  all_goals
    have hlist := Node.sum_sizeOf_lt
    have hchildren := Node.sum_children_lt
    simp [Prod.lex_def] <;> grind

/-- `_visit_statements`, and the loop of `generic_visit`. -/
def visitStatements (value : ℕ) : List Node → ℕ
  | [] => value
  | stmt :: rest => visitStatements (visit value stmt) rest
termination_by stmts => ((stmts.map sizeOf).sum, 1)
decreasing_by
  all_goals
    have hstmt : 0 < sizeOf stmt := by cases stmt <;> simp
    simp [Prod.lex_def]
    omega

end

/-- `count_body`. -/
def countBody (body : List Node) : ℕ := visitStatements 1 body

end SemanticCi.Extraction.CyclomaticCounter
