import PatternRouter.Http.Cors
import PatternRouter.Params.Basic

namespace PatternRouter

structure Selection (α : Type) where
  index : Nat
  method : Method
  source : String
  data : α
  params : Params
  /-- The policy in force: the route's own, else the provider's, else the default. -/
  cors : CorsPolicy

inductive Resolution (α : Type) where
  | matched (s : Selection α)
  /-- A preflight for a route of the method that it announces. -/
  | preflight (s : Selection α)
  /-- No pattern matches the path. -/
  | notFound
  /-- Patterns match the path, but none with a method that would do. -/
  | methodNotAllowed

namespace Resolution

variable {α : Type}

def outcome : Resolution α → Outcome
  | matched _ => .matched
  | preflight _ => .preflight
  | notFound => .notFound
  | methodNotAllowed => .methodNotAllowed

def status : Resolution α → Nat
  | matched _ => 200
  | preflight _ => 200
  | notFound => 404
  | methodNotAllowed => 405

def isPreflight (r : Resolution α) : Bool := r.outcome == .preflight

def selection? : Resolution α → Option (Selection α)
  | matched s => some s
  | preflight s => some s
  | notFound => none
  | methodNotAllowed => none

/-- The fields that the response must carry, and what is reported on the way. -/
def headers : Resolution α → Headers × List Event
  | matched s => s.cors.headers none
  | preflight s => s.cors.headers (some s.method)
  | notFound => ([], [])
  | methodNotAllowed => ([], [])

def event (r : Resolution α) (method : Method) (path : String) : Event :=
  .dispatched method.name path r.outcome (r.selection?.map (·.index))

end Resolution

end PatternRouter
