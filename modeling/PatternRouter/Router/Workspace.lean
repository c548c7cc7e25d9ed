import PatternRouter.Pattern.Cache
import PatternRouter.Router.Table

namespace PatternRouter

/-- The name of the cache of routers that were given none of their own. -/
def globalCache : String := "global"

/-- The caches that hold anything, and all reports so far. -/
structure Workspace where
  caches : List (String × Cache)
  journal : Journal

namespace Workspace

def empty : Workspace := ⟨[], #[]⟩

/-- The cache of a name; one that was never used is empty. -/
def cache (w : Workspace) (name : String) : Cache := (w.caches.lookup name).getD Cache.empty

def setCache (w : Workspace) (name : String) (c : Cache) : Workspace :=
  { w with caches := (name, c) :: w.caches.eraseP (·.1 == name) }

def clearCache (w : Workspace) (name : String) : Workspace := w.setCache name Cache.empty

def report (w : Workspace) (e : Event) : Workspace := { w with journal := w.journal.push e }

def request [SizeLimit] (w : Workspace) (name source : String) :
    Except RouteError (Shared Pattern) × Workspace :=
  let (r, c, journal) := (w.cache name).request source w.journal
  (r, { w with journal }.setCache name c)

def requestAll [SizeLimit] (w : Workspace) (name : String) (sources : List String) :
    Except RouteError (List (Shared Pattern)) × Workspace :=
  let (r, c, journal) := (w.cache name).requestAll sources w.journal
  (r, { w with journal }.setCache name c)

/-- The table of a list of sources, which have their places in the list as indices. -/
def compileTable [SizeLimit] (w : Workspace) (name : String) (version : Nat)
    (sources : List String) : Except RouteError RouteTable × Workspace :=
  let (r, w) := w.requestAll name sources
  (r.map fun ps => .ofPatterns version (ps.map (·.value)), w)

def compileSorted [SizeLimit] (w : Workspace) (name : String) (sources : List String) :
    Except RouteError RouteTable × Workspace :=
  w.compileTable name 0 sources

end Workspace

end PatternRouter
