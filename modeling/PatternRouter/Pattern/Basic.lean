import PatternRouter.Event
import PatternRouter.Expression.Basic
import PatternRouter.Params.Basic
import PatternRouter.Pattern.Parser

namespace PatternRouter

/-- A pattern with all that matching needs. -/
structure Pattern where
  source : String
  nodes : List Node
  expression : Expression
  shape : Shape

/-- Gives the nodes that capture their groups, one after the other. -/
def bindGroups : List Node → List (Option String) → Params → Params
  | [], _, p => p
  | n :: ns, gs, p =>
    match n.parameter? with
    | none => bindGroups ns gs p
    | some name => bindGroups ns gs.tail (p.set name gs.head?.join)

namespace Pattern

def compile [SizeLimit] (source : String) : Except RouteError Pattern := do
  let nodes ← parse source
  let expression ← Expression.ofNodes nodes
  return ⟨source, nodes, expression, nodes.map Node.kind⟩

def event (p : Pattern) : Event := .compiled p.source p.expression.text

/-- What a pattern captures from a path that has been normalized. -/
def capture? (p : Pattern) (path : String) : Option Params :=
  (p.expression.capture? path).map fun gs => bindGroups p.nodes gs Params.empty

/-- Compiles a pattern, and reports it if it is accepted. -/
def compileReported [SizeLimit] (source : String) (log : Journal) :
    Except RouteError Pattern × Journal :=
  match compile source with
  | .ok p => (.ok p, log.push p.event)
  | .error e => (.error e, log)

end Pattern

end PatternRouter
