import PatternRouter.Pattern.Node

namespace PatternRouter

/-- Compares two shapes node by node; the lesser one is tried first. Where one has run out of nodes
the longer one comes first. -/
def compareShapes : Shape → Shape → Ordering
  | [], [] => .eq
  | [], _ :: _ => .gt
  | _ :: _, [] => .lt
  | x :: a, y :: b => (compare x.rank y.rank).then (compareShapes a b)

/-- What the order of two patterns depends on: when each was registered, and its shape. -/
structure Place where
  index : Nat
  shape : Shape
  deriving DecidableEq, Repr

def comparePlaces (a b : Place) : Ordering :=
  (compareShapes a.shape b.shape).then (compare b.index a.index)

end PatternRouter
