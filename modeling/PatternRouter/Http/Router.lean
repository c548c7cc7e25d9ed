import PatternRouter.Http.Resolution
import PatternRouter.Router.Basic

namespace PatternRouter

/-- What a pattern leads to. -/
structure Endpoint (α : Type) where
  method : Method
  data : α
  /-- The route's own policy. -/
  cors : Option CorsPolicy

/-- Finds the policy of a request to a route that has none of its own. It is given the request's
method and headers, and the route with the default policy. -/
abbrev PolicyProvider (α : Type) := Method → Headers → Selection α → CorsPolicy

/-- A way to have a provider asked for a policy. Routers ask providers in no other way. -/
abbrev Asker (m : Type → Type) (α : Type) :=
  PolicyProvider α → Method → Headers → Selection α → m CorsPolicy

def Asker.plain {α : Type} : Asker Id α := fun provider method headers c =>
  provider method headers c

structure HttpRouter (α : Type) where
  routes : Router (Endpoint α)
  defaultCors : CorsPolicy
  provider : Option (PolicyProvider α)

namespace HttpRouter

variable {α : Type}

def withCache (cache : String) : HttpRouter α := ⟨.withCache cache, .disabled, none⟩

def empty : HttpRouter α := withCache globalCache

def setDefaultCors (r : HttpRouter α) (cors : CorsPolicy) : HttpRouter α :=
  { r with defaultCors := cors }

def setProvider (r : HttpRouter α) (provider : PolicyProvider α) : HttpRouter α :=
  { r with provider := some provider }

def clearProvider (r : HttpRouter α) : HttpRouter α := { r with provider := none }

def size (r : HttpRouter α) : Nat := r.routes.size

def toList (r : HttpRouter α) : List (Method × String × α) :=
  r.routes.toList.map fun t => (t.2.method, t.1, t.2.data)

/-- Registers a route; a refused pattern changes nothing. -/
def insertEndpoint [SizeLimit] (r : HttpRouter α) (source : String) (endpoint : Endpoint α)
    (w : Workspace) : Except RouteError (HttpRouter α) × Workspace :=
  match r.routes.insert source endpoint w with
  | (.error e, w) => (.error e, w)
  | (.ok routes, w) => (.ok { r with routes }, w)

def insert [SizeLimit] (r : HttpRouter α) (method : Method) (source : String) (data : α)
    (w : Workspace) : Except RouteError (HttpRouter α) × Workspace :=
  r.insertEndpoint source ⟨method, data, none⟩ w

/-- Registers a route by the text of its method; a bad method comes before a bad pattern. -/
def insertText [SizeLimit] (r : HttpRouter α) (method : Option String) (source : String) (data : α)
    (w : Workspace) : Except RouteError (HttpRouter α) × Workspace :=
  match Method.ofRegistration method with
  | .error e => (.error e, w)
  | .ok m => r.insert m source data w

/-- Registers routes in order up to the first that is refused. -/
def insertAll [SizeLimit] (r : HttpRouter α) (routes : List (Method × String × α)) (w : Workspace) :
    Except RouteError (HttpRouter α) × Workspace :=
  match routes with
  | [] => (.ok r, w)
  | (method, source, data) :: routes =>
    match r.insert method source data w with
    | (.error e, w) => (.error e, w)
    | (.ok r, w) => r.insertAll routes w

/-- The first hit on a route of a method. -/
def firstOf? (method : Method) (hs : List (RouteHit (Endpoint α))) :
    Option (RouteHit (Endpoint α)) :=
  hs.find? (·.data.method = method)

section

variable {m : Type → Type} [Monad m] (ask : Asker m α) (r : HttpRouter α) (method : Method)

/-- The route of a hit, with the policy in force for a request. -/
def selectBy (headers : Headers) (h : RouteHit (Endpoint α)) : m (Selection α) :=
  let c : Selection α :=
    ⟨h.index, h.data.method, h.source, h.data.data, h.params, h.data.cors.getD r.defaultCors⟩
  match h.data.cors, r.provider with
  | none, some provider => do
    let cors ← ask provider method headers c
    return { c with cors }
  | _, _ => return c

/-- Resolves a request among the routes that match its path, the most specific first. -/
def chooseBy (headers : Headers) (hs : List (RouteHit (Endpoint α))) : m (Resolution α) :=
  if hs.isEmpty then return .notFound
  else match firstOf? method hs with
    | some h => do
      let c ← r.selectBy ask method headers h
      return .matched c
    | none =>
      match (announcedMethod? method headers).bind (firstOf? · hs) with
      | some h => do
        let c ← r.selectBy ask method headers h
        return .preflight c
      | none => return .methodNotAllowed

/-- Resolves a request and reports it, with this way to ask a provider. -/
def resolveBy (path : String) (headers : Headers) (w : Workspace) :
    m (Resolution α × HttpRouter α × Workspace) := do
  let (hs, routes, w) := r.routes.findAll path w
  let r := { r with routes }
  let d ← r.chooseBy ask method headers hs
  return (d, r, w.report (d.event method path))

end

def select (r : HttpRouter α) (method : Method) (headers : Headers) (h : RouteHit (Endpoint α)) :
    Selection α :=
  Id.run (r.selectBy .plain method headers h)

def choose (r : HttpRouter α) (method : Method) (headers : Headers)
    (hs : List (RouteHit (Endpoint α))) : Resolution α :=
  Id.run (r.chooseBy .plain method headers hs)

def resolve (r : HttpRouter α) (method : Method) (path : String) (headers : Headers)
    (w : Workspace) : Resolution α × HttpRouter α × Workspace :=
  Id.run (r.resolveBy .plain method path headers w)

section

variable (r : HttpRouter α) (method : Method) (headers : Headers)

theorem select_eq (h : RouteHit (Endpoint α)) :
    r.select method headers h =
      let c : Selection α :=
        ⟨h.index, h.data.method, h.source, h.data.data, h.params, h.data.cors.getD r.defaultCors⟩
      match h.data.cors, r.provider with
      | none, some provider => { c with cors := provider method headers c }
      | _, _ => c := by
  unfold select selectBy
  cases h.data.cors with
  | some own => rfl
  | none => cases r.provider <;> rfl

theorem choose_eq (hs : List (RouteHit (Endpoint α))) :
    r.choose method headers hs =
      if hs.isEmpty then .notFound
      else match firstOf? method hs with
        | some h => .matched (r.select method headers h)
        | none =>
          match (announcedMethod? method headers).bind (firstOf? · hs) with
          | some h => .preflight (r.select method headers h)
          | none => .methodNotAllowed := by
  unfold choose chooseBy
  cases hs.isEmpty with
  | true => rfl
  | false =>
    cases firstOf? method hs with
    | some h => rfl
    | none => cases (announcedMethod? method headers).bind (firstOf? · hs) <;> rfl

theorem resolve_eq (path : String) (w : Workspace) :
    r.resolve method path headers w =
      let (hs, routes, w) := r.routes.findAll path w
      let r := { r with routes }
      let d := r.choose method headers hs
      (d, r, w.report (d.event method path)) := rfl

end

/-- The route of a method on a path, preflights aside. -/
def find (r : HttpRouter α) (method : Method) (path : String) (w : Workspace) :
    Option (Selection α) × HttpRouter α × Workspace :=
  let (d, r, w) := r.resolve method path [] w
  match d with
  | .matched s => (some s, r, w)
  | _ => (none, r, w)

end HttpRouter

end PatternRouter
