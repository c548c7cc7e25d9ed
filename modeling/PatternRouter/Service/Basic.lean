import PatternRouter.Http.RequestHead
import PatternRouter.Http.Router

namespace PatternRouter

structure Request where
  head : RequestHead
  body : String
  deriving DecidableEq, Repr

structure Response where
  status : Nat
  headers : Headers
  body : String
  deriving DecidableEq, Repr

/-- Answers a request with the parameters of its path, or fails with a message. -/
abbrev Handler := Request → Params → Except String Response

/-- A way to have a handler called. Services call handlers in no other way. -/
abbrev Invoker (m : Type → Type) := Handler → Request → Params → m (Except String Response)

def Invoker.plain : Invoker Id := fun h request params => h request params

namespace Response

/-- The words for a status of a response that no handler made. -/
def reason : Nat → String
  | 404 => "Not Found"
  | 405 => "Method Not Allowed"
  | _ => ""

def ofStatus (status : Nat) : Response := ⟨status, [], toString status ++ " " ++ reason status⟩

/-- A response with more fields, of which those are left out whose names it has already. -/
def addHeaders (r : Response) (hs : Headers) : Response :=
  { r with headers := hs.foldl Headers.addNew r.headers }

end Response

inductive Plan where
  /-- By a route's handler, with fields to add to its response. -/
  | handle (s : Selection Handler) (cors : Headers)
  | reply (r : Response)

namespace Plan

/-- The plan for a resolution, and what is reported on the way. -/
def ofResolution (d : Resolution Handler) : Plan × List Event :=
  let (cors, events) := d.headers
  match d with
  | .matched s => (handle s cors, events)
  | .preflight _ => (reply (Response.addHeaders ⟨200, [], ""⟩ cors), events)
  | .notFound => (reply (Response.ofStatus 404), events)
  | .methodNotAllowed => (reply (Response.ofStatus 405), events)

def perform {m : Type → Type} [Monad m] (invoke : Invoker m) (request : Request) :
    Plan → m (Except String Response)
  | handle s cors => do
    let answer ← invoke s.data request s.params
    return answer.map (·.addHeaders cors)
  | reply r => return .ok r

end Plan

/-- A router of handlers that answers requests. -/
structure Service where
  router : HttpRouter Handler

namespace Service

def call {m : Type → Type} [Monad m] (invoke : Invoker m) (v : Service) (request : Request)
    (w : Workspace) : m (Except String Response × Service × Workspace) := do
  let (d, router, w) :=
    v.router.resolve request.head.method request.head.uri.path request.head.headers w
  let (plan, events) := Plan.ofResolution d
  let answer ← plan.perform invoke request
  return (answer, ⟨router⟩, events.foldl Workspace.report w)

end Service

end PatternRouter
