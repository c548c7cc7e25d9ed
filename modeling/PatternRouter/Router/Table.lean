import PatternRouter.Pattern.Basic
import PatternRouter.Pattern.Specificity

namespace PatternRouter

/-- A pattern with its registration index. -/
structure Ranked where
  index : Nat
  pattern : Pattern

def Ranked.place (e : Ranked) : Place := ⟨e.index, e.pattern.shape⟩

/-- Puts a pattern in front of the first one that it comes before. -/
def insertRanked (e : Ranked) : List Ranked → List Ranked
  | [] => [e]
  | x :: xs => if comparePlaces e.place x.place = .lt then e :: x :: xs else x :: insertRanked e xs

def sortRanked (es : List Ranked) : List Ranked := es.foldl (fun t e => insertRanked e t) []

structure Hit where
  index : Nat
  pattern : Pattern
  params : Params

/-- The match of one pattern against a path that has been normalized. -/
def Ranked.hit? (path : String) (e : Ranked) : Option Hit :=
  (e.pattern.capture? path).map fun params => ⟨e.index, e.pattern, params⟩

/-- The patterns of a router at one version, the most specific first. -/
structure RouteTable where
  version : Nat
  entries : List Ranked

namespace RouteTable

/-- The table of patterns given in the order of their registration. -/
def ofPatterns (version : Nat) (ps : List Pattern) : RouteTable :=
  ⟨version, sortRanked (ps.zipIdx.map fun p => ⟨p.2, p.1⟩)⟩

def size (t : RouteTable) : Nat := t.entries.length

/-- Every pattern that matches a path, the most specific first. -/
def hits (t : RouteTable) (path : String) : List Hit :=
  t.entries.filterMap (Ranked.hit? (Path.normalize path))

end RouteTable

end PatternRouter
