import PatternRouter.Error

namespace PatternRouter

/-- One segment of a pattern. -/
inductive Node where
  /-- The segment itself, in any letter case. -/
  | literal (text : String)
  /-- Any one segment; an optional one may be left out with its slash. -/
  | named (name : String) (optional : Bool)
  | rest
  deriving DecidableEq, Repr

namespace Node

/-- The kinds of nodes, from the most to the least specific. -/
inductive Kind where
  | literal
  | required
  | optional
  | rest
  deriving DecidableEq, Repr

/-- The place of a kind in the order of specificity, the most specific first. -/
def Kind.rank : Kind → Nat
  | literal => 0
  | required => 1
  | optional => 2
  | rest => 3

/-- The word for a kind. -/
def Kind.word : Kind → String
  | literal => "literal"
  | required => "required"
  | optional => "optional"
  | rest => "rest"

def Kind.ofWord? (s : String) : Option Kind :=
  [literal, required, optional, rest].find? (·.word == s)

def kind : Node → Kind
  | literal _ => .literal
  | named _ false => .required
  | named _ true => .optional
  | rest => .rest

/-- The parameter that a node sets, if it captures anything. -/
def parameter? : Node → Option String
  | literal _ => none
  | named name _ => some name
  | rest => some restName

def isCapture (n : Node) : Bool := n.parameter?.isSome

theorem Kind.rank_injective {a b : Kind} (h : a.rank = b.rank) : a = b := by
  cases a <;> cases b <;> first | rfl | cases h

end Node

/-- The kinds of the nodes of a pattern, in order. -/
abbrev Shape := List Node.Kind

end PatternRouter
