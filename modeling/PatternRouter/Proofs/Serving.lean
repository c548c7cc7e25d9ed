import PatternRouter.Service.Session
import PatternRouter.Proofs.CorsHeaders
import PatternRouter.Proofs.HttpRegistry
import PatternRouter.Proofs.Recording

namespace PatternRouter

/-- A call of a handler. -/
structure Invocation where
  handler : Handler
  request : Request
  params : Params

def Invoker.recording : Invoker (StateM (List Invocation)) := fun h request params => do
  modify (· ++ [⟨h, request, params⟩])
  return h request params

/-- Which handlers are called for a request of a resolution, and how it is answered. -/
inductive Served (request : Request) :
    Resolution Handler → List Invocation → Except String Response → Prop where
  /-- Nothing that the handler answers is changed; of the fields of the policy those are added whose
  names it did not use. -/
  | matched {c : Selection Handler} {r : Response} : c.data request c.params = .ok r →
      Served request (.matched c) [⟨c.data, request, c.params⟩]
        (.ok ⟨r.status,
          r.headers ++ (c.cors.headers none).1.filter fun f => !r.headers.contains f.name, r.body⟩)
  | failed {c : Selection Handler} {message : String} : c.data request c.params = .error message →
      Served request (.matched c) [⟨c.data, request, c.params⟩] (.error message)
  | preflight (c : Selection Handler) :
      Served request (.preflight c) [] (.ok ⟨200, (c.cors.headers (some c.method)).1, ""⟩)
  | notFound : Served request .notFound [] (.ok ⟨404, [], "404 Not Found"⟩)
  | methodNotAllowed :
      Served request .methodNotAllowed [] (.ok ⟨405, [], "405 Method Not Allowed"⟩)

theorem Served.unique {request : Request} {d : Resolution Handler} {calls calls' : List Invocation}
    {answer answer' : Except String Response} (h : Served request d calls answer)
    (h' : Served request d calls' answer') : calls = calls' ∧ answer = answer' := by
  cases h with
  | matched ok =>
    cases h' with
    | matched ok' =>
      obtain rfl := Except.ok.inj (ok.symm.trans ok')
      exact ⟨rfl, rfl⟩
    | failed error => cases ok.symm.trans error
  | failed error =>
    cases h' with
    | matched ok => cases error.symm.trans ok
    | failed error' =>
      obtain rfl := Except.error.inj (error.symm.trans error')
      exact ⟨rfl, rfl⟩
  | preflight | notFound | methodNotAllowed =>
    cases h'
    exact ⟨rfl, rfl⟩

def Plan.calls (request : Request) : Plan → List Invocation
  | handle s _ => [⟨s.data, request, s.params⟩]
  | reply _ => []

def HttpRouter.dispatch {α : Type} (r : HttpRouter α) (w : Workspace) (head : RequestHead) :
    Resolution α := (r.resolve head.method head.uri.path head.headers w).1

/-- What one step comes to where each request is answered by itself: the reply, the calls of
handlers, and the number of clones before and after. -/
inductive ServedStep (dispatch : RequestHead → Resolution Handler) (routes : Nat) :
    Nat → ServiceStep → ServiceReply → List Invocation → Nat → Prop where
  | clone (clones : Nat) :
      ServedStep dispatch routes clones .clone (.cloned (clones + 1) routes) [] (clones + 1)
  | answered {clones clone method uri headers body head calls answer} : clone < clones →
      RequestHead.parse method uri headers = .ok head →
      Served ⟨head, body⟩ (dispatch head) calls answer →
      ServedStep dispatch routes clones (.call clone method uri headers body) (.ofAnswer answer)
        calls clones
  | malformed {clones clone method uri headers body fault} : clone < clones →
      RequestHead.parse method uri headers = .error fault →
      ServedStep dispatch routes clones (.call clone method uri headers body) (.failed fault) []
        clones
  | unknown {clones clone method uri headers body} : clones ≤ clone →
      ServedStep dispatch routes clones (.call clone method uri headers body)
        (.failed (.unknown "service")) [] clones

/-- What steps in order come to where each request is answered by itself. -/
inductive ServedEach (dispatch : RequestHead → Resolution Handler) (routes : Nat) :
    Nat → List ServiceStep → List ServiceReply → List Invocation → Prop where
  | nil (clones : Nat) : ServedEach dispatch routes clones [] [] []
  | cons {clones clones' a as reply replies calls later} :
      ServedStep dispatch routes clones a reply calls clones' →
      ServedEach dispatch routes clones' as replies later →
      ServedEach dispatch routes clones (a :: as) (reply :: replies) (calls ++ later)

section

variable {dispatch : RequestHead → Resolution Handler} {routes : Nat}

theorem ServedStep.unique {clones clones' clones'' : Nat} {a : ServiceStep}
    {reply reply' : ServiceReply} {calls calls' : List Invocation}
    (h : ServedStep dispatch routes clones a reply calls clones')
    (h' : ServedStep dispatch routes clones a reply' calls' clones'') :
    reply = reply' ∧ calls = calls' ∧ clones' = clones'' := by
  cases h with
  | clone =>
    cases h'
    exact ⟨rfl, rfl, rfl⟩
  | answered known read served =>
    cases h' with
    | answered _ read' served' =>
      obtain rfl := Except.ok.inj (read.symm.trans read')
      obtain ⟨rfl, rfl⟩ := served.unique served'
      exact ⟨rfl, rfl, rfl⟩
    | malformed _ bad => cases read.symm.trans bad
    | unknown none => omega
  | malformed known bad =>
    cases h' with
    | answered _ read _ => cases bad.symm.trans read
    | malformed _ bad' =>
      obtain rfl := Except.error.inj (bad.symm.trans bad')
      exact ⟨rfl, rfl, rfl⟩
    | unknown none => omega
  | unknown none =>
    cases h' with
    | answered known _ _ => omega
    | malformed known _ => omega
    | unknown => exact ⟨rfl, rfl, rfl⟩

theorem ServedEach.unique {clones : Nat} {as : List ServiceStep}
    {replies replies' : List ServiceReply} {calls calls' : List Invocation}
    (h : ServedEach dispatch routes clones as replies calls)
    (h' : ServedEach dispatch routes clones as replies' calls') :
    replies = replies' ∧ calls = calls' := by
  induction h generalizing replies' calls' with
  | nil =>
    cases h'
    exact ⟨rfl, rfl⟩
  | cons first _ ih =>
    cases h' with
    | cons first' later' =>
      obtain ⟨rfl, rfl, rfl⟩ := first.unique first'
      obtain ⟨rfl, rfl⟩ := ih later'
      exact ⟨rfl, rfl⟩

end

namespace ServiceSession

/-- Whether a session serves through a router with the routes and policies of `r`. -/
structure Serves [SizeLimit] (s : ServiceSession) (r : HttpRouter Handler) : Prop where
  caches : s.workspace.Valid
  routes : s.service.router.routes.Valid
  registry : s.service.router.registry = r.registry

section

variable {m : Type → Type} [Monad m] (invoke : Invoker m) (s : ServiceSession)
  {clone : Nat} {method uri : String} {headers : List (String × String)} (body : String)

end

section

variable [SizeLimit] {s : ServiceSession} {r : HttpRouter Handler}

theorem Serves.call (h : s.Serves r) (request : Request) :
    let after := (Id.run (s.service.call .plain request s.workspace)).2
    ({ s with service := after.1, workspace := after.2 } : ServiceSession).Serves r := by
  intro after
  have ⟨routes, caches⟩ := HttpRouter.valid_resolve h.routes h.caches request.head.method
    request.head.uri.path request.head.headers
  have kept := s.service.router.registry_resolve request.head.method request.head.uri.path
    request.head.headers s.workspace
  exact ⟨HttpSession.valid_foldl_report caches _, routes, kept.trans h.registry⟩

end

open Unlimited

end ServiceSession

end PatternRouter
