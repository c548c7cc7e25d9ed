import PatternRouter.Service.Basic

namespace PatternRouter

/-- A route as it is given: its method as a text, and a policy of its own if it has one. -/
structure ServiceRoute where
  source : String
  method : String
  handler : Handler
  cors : Option CorsPolicy

inductive ServiceStep where
  | clone
  | call (clone : Nat) (method uri : String) (headers : List (String × String)) (body : String)

inductive ServiceReply where
  | cloned (services routes : Nat)
  | response (r : Response)
  | failed (f : Fault)

def ServiceReply.ofAnswer : Except String Response → ServiceReply
  | .ok r => response r
  | .error m => failed (.handler m)

structure ServiceSession where
  workspace : Workspace
  service : Service
  /-- The number of clones, the first service included. -/
  clones : Nat

namespace HttpRouter

/-- Registers a service's routes in order; none of them may fail. -/
def addServiceRoutes [SizeLimit] (r : HttpRouter Handler) (routes : List ServiceRoute)
    (w : Workspace) : Except Fault (HttpRouter Handler) × Workspace :=
  match routes with
  | [] => (.ok r, w)
  | t :: ts =>
    match Method.parse t.method with
    | .error f => (.error f, w)
    | .ok m =>
      match r.insertEndpoint t.source ⟨m, t.handler, t.cors⟩ w with
      | (.error e, w) => (.error (.abort (e.abortMessage t.source)), w)
      | (.ok r, w) => r.addServiceRoutes ts w

end HttpRouter

namespace ServiceSession

def start [SizeLimit] (routes : List ServiceRoute) (defaultCors : Option CorsPolicy)
    (provider : Option (PolicyProvider Handler)) : Except Fault ServiceSession × Workspace :=
  let r : HttpRouter Handler :=
    { HttpRouter.empty with defaultCors := defaultCors.getD .disabled, provider }
  match r.addServiceRoutes routes Workspace.empty with
  | (.error f, w) => (.error f, w)
  | (.ok r, w) => (.ok ⟨w, ⟨r⟩, 1⟩, w)

/-- Carries out one step, with this way to call handlers. -/
def stepBy {m : Type → Type} [Monad m] (invoke : Invoker m) (s : ServiceSession) :
    ServiceStep → m (ServiceReply × ServiceSession)
  | .clone =>
    return (.cloned (s.clones + 1) s.service.router.size, { s with clones := s.clones + 1 })
  | .call clone method uri headers body =>
    if clone < s.clones then
      match RequestHead.parse method uri headers with
      | .error f => return (.failed f, s)
      | .ok head => do
        let (answer, service, w) ← s.service.call invoke ⟨head, body⟩ s.workspace
        return (.ofAnswer answer, { s with service, workspace := w })
    else return (.failed (.unknown "service"), s)

def runBy {m : Type → Type} [Monad m] (invoke : Invoker m) (s : ServiceSession) :
    List ServiceStep → m (List ServiceReply × ServiceSession)
  | [] => return ([], s)
  | a :: as => do
    let (r, s) ← s.stepBy invoke a
    let (rs, s) ← s.runBy invoke as
    return (r :: rs, s)

def step (s : ServiceSession) (a : ServiceStep) : ServiceReply × ServiceSession :=
  Id.run (s.stepBy .plain a)

def run (s : ServiceSession) (as : List ServiceStep) : List ServiceReply × ServiceSession :=
  Id.run (s.runBy .plain as)

end ServiceSession

end PatternRouter
