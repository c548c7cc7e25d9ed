import PatternRouter.Text.Segments
import PatternRouter.Pattern.Node

namespace PatternRouter

/-- The segment that a node is read from. -/
def Node.segment : Node → List Char
  | literal text => text.toList
  | named name false => ':' :: name.toList
  | named name true => ':' :: name.toList ++ ['?']
  | rest => restName.toList

def Pattern.print (nodes : List Node) : String :=
  String.ofList (joinSlash (nodes.map Node.segment))

end PatternRouter
