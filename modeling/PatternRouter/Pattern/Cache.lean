import PatternRouter.Pattern.Basic

namespace PatternRouter

/-- Compiled patterns by source. -/
structure Cache where
  entries : List (String × Shared Pattern)

namespace Cache

def empty : Cache := ⟨[]⟩

def get? (c : Cache) (source : String) : Option (Shared Pattern) := c.entries.lookup source

def contains (c : Cache) (source : String) : Bool := (c.get? source).isSome

def size (c : Cache) : Nat := c.entries.length

/-- The compiled pattern of a source: the one in the cache, else a new one that is kept unless the
source is refused. -/
def request [SizeLimit] (c : Cache) (source : String) (log : Journal) :
    Except RouteError (Shared Pattern) × Cache × Journal :=
  match c.get? source with
  | some hit => (.ok hit, c, log.push (.cacheHit source))
  | none =>
    match Pattern.compile source with
    | .error e => (.error e, c, log)
    | .ok p =>
      let made : Shared Pattern := ⟨log.size, p⟩
      (.ok made, ⟨c.entries ++ [(source, made)]⟩, log.push p.event)

/-- Requests sources in order up to the first that is refused. -/
def requestAll [SizeLimit] (c : Cache) (sources : List String) (log : Journal) :
    Except RouteError (List (Shared Pattern)) × Cache × Journal :=
  match sources with
  | [] => (.ok [], c, log)
  | s :: ss =>
    match c.request s log with
    | (.error e, c, log) => (.error e, c, log)
    | (.ok p, c, log) =>
      match c.requestAll ss log with
      | (.error e, c, log) => (.error e, c, log)
      | (.ok ps, c, log) => (.ok (p :: ps), c, log)

end Cache

end PatternRouter
