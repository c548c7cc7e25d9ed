import PatternRouter.Path
import PatternRouter.Pattern.Node

namespace PatternRouter

/-- The node of what follows a colon, or `none` for a reserved name. -/
def parameterNode? (s : List Char) : Option Node :=
  let optional := s.getLast? == some '?'
  let name := String.ofList (if optional then s.dropLast else s)
  if name = restName then none else some (.named name optional)

/-- The node of one segment, or `none` for a reserved name; only the last segment can capture the
rest of the path. -/
def segmentNode? (last : Bool) : List Char → Option Node
  | [':'] => some (.literal ":")
  | [':', '?'] => some (.literal ":?")
  | ':' :: s => parameterNode? s
  | s => if s = ['*'] ∧ last = true then some .rest else some (.literal (String.ofList s))

def segmentNodes? : List (List Char) → Option (List Node)
  | [] => some []
  | p :: ps => do
    let n ← segmentNode? ps.isEmpty p
    let ns ← segmentNodes? ps
    return n :: ns

/-- The nodes of a pattern; the root has one empty literal. -/
def Pattern.parse (source : String) : Except RouteError (List Node) :=
  match segmentNodes? (splitSlash (normalizeText source.toList)) with
  | some nodes => .ok nodes
  | none => .error (.reservedName source)

end PatternRouter
