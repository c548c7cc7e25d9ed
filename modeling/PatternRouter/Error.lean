import PatternRouter.Text.Quoted

namespace PatternRouter

/-- The name under which a trailing `*` hands over what it captured. -/
def restName : String := "*"

/-- Why a pattern or a route is refused. -/
inductive RouteError where
  /-- A parameter of this pattern bears the name kept for the rest of the path. -/
  | reservedName (pattern : String)
  /-- This text, as it was given, names no method. -/
  | invalidMethod (method : String)
  /-- The expression of the pattern is too large. -/
  | expressionRefused
  deriving DecidableEq, Repr

namespace RouteError

def message : RouteError → String
  | reservedName _ => "parameter name can not be " ++ quoted restName
  | invalidMethod method => "invalid http method: " ++ quoted method
  | expressionRefused => "failed to compile pattern expression"

/-- The message of a registration that may not fail and did. -/
def abortMessage (e : RouteError) (pattern : String) : String :=
  e.message ++ ": pattern = " ++ quoted pattern

end RouteError

end PatternRouter
