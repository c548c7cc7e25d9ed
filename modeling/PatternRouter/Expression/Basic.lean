import PatternRouter.Expression.Matching

namespace PatternRouter

/-- The limit on the size of expressions. What an expression takes depends on what runs it, so
nothing is known here but that the text decides. -/
class SizeLimit where
  admits (text : String) : Bool

namespace Unlimited

/-- Admits every expression. -/
scoped instance unlimited : SizeLimit := ⟨fun _ => true⟩

end Unlimited

/-- The text of an expression with the structure that it spells. -/
structure Expression where
  text : String
  tree : Expr
  tree_read : Expr.read? text.toList = some tree

namespace Expression

/-- An expression is what its text spells. -/
theorem eq_of_text {x y : Expression} (same : x.text = y.text) : x = y := by
  obtain ⟨text, tree, read⟩ := x
  obtain ⟨text', tree', read'⟩ := y
  obtain rfl : text = text' := same
  obtain rfl := Option.some.inj (read.symm.trans read')
  rfl

def textOf (nodes : List Node) : String := String.ofList (Token.write (Token.ofNodes nodes))

theorem read?_textOf (nodes : List Node) :
    Expr.read? (textOf nodes).toList = some (.ofNodes nodes) := by
  rw [textOf, String.toList_ofList, Expr.read?_write]

def build (nodes : List Node) : Expression := ⟨textOf nodes, .ofNodes nodes, read?_textOf nodes⟩

/-- The expression for a list of nodes, unless it is too large. -/
def ofNodes [SizeLimit] (nodes : List Node) : Except RouteError Expression :=
  if SizeLimit.admits (textOf nodes) then .ok (build nodes) else .error .expressionRefused

/-- What the captures of an expression take from a whole path. -/
def capture? (x : Expression) (path : String) : Option (List (Option String)) :=
  (x.tree.run path.toList).map (·.map (·.map String.ofList))

theorem ofNodes_eq_ok [SizeLimit] {nodes : List Node} {x : Expression} :
    ofNodes nodes = .ok x ↔ SizeLimit.admits (textOf nodes) = true ∧ x = build nodes := by
  unfold ofNodes
  split
  · next admitted => simp only [admitted, true_and, Except.ok.injEq, eq_comm]
  · next refused => simp only [refused, false_and, reduceCtorEq]

end Expression

end PatternRouter
