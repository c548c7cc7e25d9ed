namespace PatternRouter

inductive Level where
  | trace
  | debug
  | warn
  deriving DecidableEq, Repr

def Level.name : Level → String
  | trace => "TRACE"
  | debug => "DEBUG"
  | warn => "WARN"

/-- How a request was resolved. -/
inductive Outcome where
  | matched
  | preflight
  | notFound
  | methodNotAllowed
  deriving DecidableEq, Repr

/-- The words for an outcome in a report. -/
def Outcome.words : Outcome → String
  | matched => "matched"
  | preflight => "preflight"
  | notFound => "not found"
  | methodNotAllowed => "method not allowed"

inductive Event where
  | compiled (pattern expression : String)
  | cacheHit (pattern : String)
  | tableBuilt (version routes : Nat)
  /-- A request was resolved, to a route if there is one. -/
  | dispatched (method path : String) (outcome : Outcome) (route : Option Nat)
  /-- A text of a CORS rule is no header value, and its header was left out. -/
  | badCorsValue (header value : String)
  /-- A method is no header value, and its header was left out. -/
  | badCorsMethod (method : String)
  deriving DecidableEq, Repr

namespace Event

def level : Event → Level
  | compiled _ _ => .trace
  | cacheHit _ => .trace
  | tableBuilt _ _ => .debug
  | dispatched _ _ _ _ => .debug
  | badCorsValue _ _ => .warn
  | badCorsMethod _ => .warn

def message : Event → String
  | compiled _ _ => "compiled pattern"
  | cacheHit _ => "pattern cache hit"
  | tableBuilt _ _ => "built route table"
  | dispatched _ _ _ _ => "dispatch"
  | badCorsValue _ _ => "invalid cors header value"
  | badCorsMethod _ => "invalid cors method value"

def fields : Event → List (String × String)
  | compiled pattern expression => [("pattern", pattern), ("regex", expression)]
  | cacheHit pattern => [("pattern", pattern)]
  | tableBuilt version routes => [("version", toString version), ("routes", toString routes)]
  | dispatched method path outcome route =>
    [("method", method), ("path", path), ("outcome", outcome.words)] ++
      route.toList.map fun i => ("route", toString i)
  | badCorsValue header value => [("header", header), ("value", value)]
  | badCorsMethod method => [("method", method)]

end Event

abbrev Journal := Array Event

/-- A value that several holders share. Its making is reported once, and the place of that report
in the journal tells it from every other shared value. -/
structure Shared (α : Type) where
  id : Nat
  value : α

end PatternRouter
