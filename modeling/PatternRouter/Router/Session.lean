import PatternRouter.Fault
import PatternRouter.Router.Describe

namespace PatternRouter

inductive RouterStep (α : Type) where
  /-- Makes a new router, on a cache of its own name if one is given. -/
  | create (router : String) (cache : Option String)
  /-- Registers a route; `strict` if that may not fail. -/
  | insert (router source : String) (data : α) (strict : Bool)
  | clear (router : String)
  | size (router : String)
  | get (router : String) (index : Nat)
  | list (router : String)
  | find (router path : String)
  | findAll (router path : String)
  | table (router : String)
  /-- Keeps the current table under a label. -/
  | holdTable (router label : String)
  | heldTable (label : String)
  | heldMatch (label path : String)
  /-- Finds the routes of two routers that share a compiled pattern, once both tables are up to
  date. -/
  | sharing (router other : String)
  /-- Compiles a pattern through a cache and keeps it under a label. -/
  | request (cache source label : String)
  | compileSorted (cache : String) (sources : List String)
  | cacheSize (cache : String)
  | cacheContains (cache source : String)
  | clearCache (cache : String)
  | describe (router : String)

inductive RouterReply (α : Type) where
  | done
  | inserted (size : Nat)
  | size (n : Nat)
  | route (r : Option (String × α))
  | routes (rs : List (String × α))
  | found (h : Option (RouteHit α))
  | foundAll (hs : List (RouteHit α))
  | table (t : RouteTable)
  | hits (hs : List Hit)
  /-- Whether what is kept now is what was kept before, if there was anything. -/
  | same (b : Option Bool)
  | pairs (ps : List (Nat × Nat))
  | pattern (p : Pattern) (same : Option Bool)
  | flag (b : Bool)
  | text (s : String)
  | failed (f : Fault)

/-- What there is between two steps. -/
structure RouterSession (α : Type) where
  workspace : Workspace
  routers : List (String × Router α)
  heldTables : List (String × Shared RouteTable)
  heldPatterns : List (String × Shared Pattern)

/-- The pairs of places at which two lists of routes hold one and the same compiled pattern. -/
def sharingPairs {α : Type} (a b : List (Route α)) : List (Nat × Nat) :=
  a.zipIdx.flatMap fun r => b.zipIdx.filterMap fun s =>
    if r.1.pattern.id = s.1.pattern.id then some (r.2, s.2) else none

namespace RouterSession

variable {α : Type}

def empty : RouterSession α := ⟨Workspace.empty, [], [], []⟩

/-- The router of a name; one that was never used is empty. -/
def router (s : RouterSession α) (name : String) : Router α :=
  (s.routers.lookup name).getD Router.empty

def setRouter (s : RouterSession α) (name : String) (r : Router α) : RouterSession α :=
  { s with routers := (name, r) :: s.routers.eraseP (·.1 == name) }

/-- A session after a step that looked at one router. -/
def after (s : RouterSession α) (name : String) (r : Router α) (w : Workspace) :
    RouterSession α :=
  { s.setRouter name r with workspace := w }

def refresh (s : RouterSession α) (name : String) : RouterSession α :=
  let (_, r, w) := (s.router name).table s.workspace
  s.after name r w

def sameAs {β : Type} (x : Shared β) (held : Option (Shared β)) : Option Bool :=
  held.map (·.id == x.id)

def step [SizeLimit] [Describe α] (s : RouterSession α) :
    RouterStep α → RouterReply α × RouterSession α
  | .create router cache =>
    (.done, s.setRouter router (Router.withCache (cache.getD globalCache)))
  | .insert router source data strict =>
    match (s.router router).insert source data s.workspace with
    | (.ok r, w) => (.inserted r.size, s.after router r w)
    | (.error e, w) =>
      (.failed (if strict then .abort (e.abortMessage source) else .route e),
        { s with workspace := w })
  | .clear router => (.done, s.setRouter router (s.router router).clear)
  | .size router => (.size (s.router router).size, s)
  | .get router index => (.route ((s.router router).get? index), s)
  | .list router => (.routes (s.router router).toList, s)
  | .find router path =>
    let (h, r, w) := (s.router router).find path s.workspace
    (.found h, s.after router r w)
  | .findAll router path =>
    let (hs, r, w) := (s.router router).findAll path s.workspace
    (.foundAll hs, s.after router r w)
  | .table router =>
    let (t, r, w) := (s.router router).table s.workspace
    (.table t.value, s.after router r w)
  | .holdTable router label =>
    let (t, r, w) := (s.router router).table s.workspace
    (.same (sameAs t (s.heldTables.lookup label)),
      { s.after router r w with heldTables := (label, t) :: s.heldTables })
  | .heldTable label =>
    match s.heldTables.lookup label with
    | some t => (.table t.value, s)
    | none => (.failed (.unknown "as"), s)
  | .heldMatch label path =>
    match s.heldTables.lookup label with
    | some t => (.hits (t.value.hits path), s)
    | none => (.failed (.unknown "as"), s)
  | .sharing router other =>
    let s := s.refresh router
    let s := s.refresh other
    (.pairs (sharingPairs (s.router router).routes (s.router other).routes), s)
  | .request cache source label =>
    match s.workspace.request cache source with
    | (.ok p, w) =>
      (.pattern p.value (sameAs p (s.heldPatterns.lookup label)),
        { s with workspace := w, heldPatterns := (label, p) :: s.heldPatterns })
    | (.error e, w) => (.failed (.route e), { s with workspace := w })
  | .compileSorted cache sources =>
    match s.workspace.compileSorted cache sources with
    | (.ok t, w) => (.table t, { s with workspace := w })
    | (.error e, w) => (.failed (.route e), { s with workspace := w })
  | .cacheSize cache => (.size (s.workspace.cache cache).size, s)
  | .cacheContains cache source => (.flag ((s.workspace.cache cache).contains source), s)
  | .clearCache cache => (.done, { s with workspace := s.workspace.clearCache cache })
  | .describe router => (.text ((s.router router).describe s.workspace), s)

def run [SizeLimit] [Describe α] (s : RouterSession α) : List (RouterStep α) →
    List (RouterReply α) × RouterSession α
  | [] => ([], s)
  | a :: as =>
    let (r, s) := s.step a
    let (rs, s) := s.run as
    (r :: rs, s)

end RouterSession

end PatternRouter
