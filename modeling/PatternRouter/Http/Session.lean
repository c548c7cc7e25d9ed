import PatternRouter.Http.Describe
import PatternRouter.Http.RequestHead

namespace PatternRouter

/-- The name of the cache that belongs to the session alone. -/
def ownCache : String := "own"

/-- One step of a session. Methods, targets and header fields are given as texts. -/
inductive HttpStep (α : Type) where
  | create
  | createOnOwnCache
  | createFromConfig (text : String)
  /-- Registers a route with a policy of its own if one is given; `strict` if that may not fail. -/
  | insert (method source : String) (data : α) (cors : Option CorsPolicy) (strict : Bool)
  | insertText (method : Option String) (source : String) (data : α)
  | setDefaultCors (cors : CorsPolicy)
  | setProvider (provider : PolicyProvider α)
  | clearProvider
  | defaultCors
  | size
  | list
  | find (method path : String)
  | resolve (method path : String) (headers : List (String × String))
  | request (method uri : String) (headers : List (String × String))
  | cacheSizes
  | describe

inductive HttpReply (α : Type) where
  | changed (size : Nat)
  | size (n : Nat)
  | cors (c : CorsPolicy)
  | routes (rs : List (Method × String × α))
  | selection (s : Option (Selection α))
  /-- The resolution of a request, with the fields that its response must carry. -/
  | resolved (d : Resolution α) (headers : Headers)
  | cacheSizes (own global : Nat)
  | text (s : String)
  | failed (f : Fault)

/-- What there is between two steps. -/
structure HttpSession (α : Type) where
  workspace : Workspace
  router : HttpRouter α

namespace HttpSession

variable {α : Type}

def empty : HttpSession α := ⟨Workspace.empty, HttpRouter.empty⟩

def change (s : HttpSession α) (r : HttpRouter α) : HttpReply α × HttpSession α :=
  (.changed r.size, { s with router := r })

def registered (s : HttpSession α) (fault : RouteError → Fault) :
    Except RouteError (HttpRouter α) × Workspace → HttpReply α × HttpSession α
  | (.ok r, w) => (.changed r.size, ⟨w, r⟩)
  | (.error e, w) => (.failed (fault e), { s with workspace := w })

def resolve (s : HttpSession α) (method : Method) (path : String) (headers : Headers) :
    HttpReply α × HttpSession α :=
  let (d, r, w) := s.router.resolve method path headers s.workspace
  let (fields, events) := d.headers
  (.resolved d fields, ⟨events.foldl Workspace.report w, r⟩)

def step [SizeLimit] [Describe α] (s : HttpSession α) : HttpStep α → HttpReply α × HttpSession α
  | .create => s.change HttpRouter.empty
  | .createOnOwnCache => s.change (HttpRouter.withCache ownCache)
  | .createFromConfig text =>
    match Config.ofText text with
    | .ok c => s.change (HttpRouter.empty.setDefaultCors c.defaultCors)
    | .error e => (.failed (.config e), s)
  | .insert method source data cors strict =>
    match Method.parse method with
    | .error f => (.failed f, s)
    | .ok m =>
      s.registered (fun e => if strict then .abort (e.abortMessage source) else .route e)
        (s.router.insertEndpoint source ⟨m, data, cors⟩ s.workspace)
  | .insertText method source data =>
    s.registered .route (s.router.insertText method source data s.workspace)
  | .setDefaultCors cors => s.change (s.router.setDefaultCors cors)
  | .setProvider provider => s.change (s.router.setProvider provider)
  | .clearProvider => s.change s.router.clearProvider
  | .defaultCors => (.cors s.router.defaultCors, s)
  | .size => (.size s.router.size, s)
  | .list => (.routes s.router.toList, s)
  | .find method path =>
    match Method.parse method with
    | .error f => (.failed f, s)
    | .ok m =>
      let (found, r, w) := s.router.find m path s.workspace
      (.selection found, ⟨w, r⟩)
  | .resolve method path headers =>
    match (do return (← Method.parse method, ← Headers.parse headers) : Except Fault _) with
    | .error f => (.failed f, s)
    | .ok (m, hs) => s.resolve m path hs
  | .request method uri headers =>
    match RequestHead.parse method uri headers with
    | .error f => (.failed f, s)
    | .ok head => s.resolve head.method head.uri.path head.headers
  | .cacheSizes =>
    (.cacheSizes (s.workspace.cache ownCache).size (s.workspace.cache globalCache).size, s)
  | .describe => (.text (s.router.describe s.workspace), s)

def run [SizeLimit] [Describe α] (s : HttpSession α) : List (HttpStep α) →
    List (HttpReply α) × HttpSession α
  | [] => ([], s)
  | a :: as =>
    let (r, s) := s.step a
    let (rs, s) := s.run as
    (r :: rs, s)

end HttpSession

end PatternRouter
