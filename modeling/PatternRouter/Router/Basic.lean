import PatternRouter.Router.Workspace

namespace PatternRouter

/-- A pattern with the value that it leads to. -/
structure Route (α : Type) where
  pattern : Shared Pattern
  data : α

structure RouteHit (α : Type) where
  index : Nat
  source : String
  data : α
  params : Params

/-- Routes in the order of their registration. -/
structure Router (α : Type) where
  routes : List (Route α)
  /-- The number of changes so far. -/
  version : Nat
  cache : String
  /-- The table built last, unless the routes were cleared since. -/
  memo : Option (Shared RouteTable)

namespace Router

variable {α : Type}

def withCache (cache : String) : Router α := ⟨[], 0, cache, none⟩

def empty : Router α := withCache globalCache

def size (r : Router α) : Nat := r.routes.length

def toList (r : Router α) : List (String × α) :=
  r.routes.map fun t => (t.pattern.value.source, t.data)

def get? (r : Router α) (index : Nat) : Option (String × α) := r.toList[index]?

/-- Registers a route; a refused pattern changes nothing. -/
def insert [SizeLimit] (r : Router α) (source : String) (data : α) (w : Workspace) :
    Except RouteError (Router α) × Workspace :=
  match w.request r.cache source with
  | (.error e, w) => (.error e, w)
  | (.ok p, w) =>
    (.ok { r with routes := r.routes ++ [⟨p, data⟩], version := r.version + 1 }, w)

def clear (r : Router α) : Router α :=
  { r with routes := [], version := r.version + 1, memo := none }

def build (r : Router α) : RouteTable :=
  .ofPatterns r.version (r.routes.map (·.pattern.value))

/-- A new table, which is kept and reported. -/
def rebuild (r : Router α) (w : Workspace) : Shared RouteTable × Router α × Workspace :=
  let t : Shared RouteTable := ⟨w.journal.size, r.build⟩
  (t, { r with memo := some t }, w.report (.tableBuilt r.version r.size))

/-- The current table: the one kept if it is of this version, else a new one. -/
def table (r : Router α) (w : Workspace) : Shared RouteTable × Router α × Workspace :=
  match r.memo with
  | some t => if t.value.version = r.version then (t, r, w) else r.rebuild w
  | none => r.rebuild w

def routeHit? (r : Router α) (h : Hit) : Option (RouteHit α) :=
  r.routes[h.index]?.map fun t => ⟨h.index, t.pattern.value.source, t.data, h.params⟩

/-- Every route that matches a path, the most specific first. -/
def findAll (r : Router α) (path : String) (w : Workspace) :
    List (RouteHit α) × Router α × Workspace :=
  let (t, r, w) := r.table w
  ((t.value.hits path).filterMap r.routeHit?, r, w)

def find (r : Router α) (path : String) (w : Workspace) :
    Option (RouteHit α) × Router α × Workspace :=
  let (hs, r, w) := r.findAll path w
  (hs.head?, r, w)

end Router

end PatternRouter
