import PatternRouter.Error

namespace PatternRouter

/-- The value under `name` becomes `value`; a new name goes to the end. -/
def overwrite (name value : String) : List (String × String) → List (String × String)
  | [] => [(name, value)]
  | e :: es => if e.1 = name then (name, value) :: es else e :: overwrite name value es

/-- Values by name, in the order in which the names were first set. -/
structure Params where
  entries : List (String × String)
  deriving DecidableEq, Repr

namespace Params

def empty : Params := ⟨[]⟩

/-- Sets a name, or unsets it where there is no value. -/
def set (p : Params) (name : String) : Option String → Params
  | some value => ⟨overwrite name value p.entries⟩
  | none => ⟨p.entries.eraseP (·.1 == name)⟩

def get? (p : Params) (name : String) : Option String := p.entries.lookup name

def contains (p : Params) (name : String) : Bool := (p.get? name).isSome

/-- What a trailing `*` captured, if it captured anything. -/
def rest? (p : Params) : Option String := p.get? restName

def size (p : Params) : Nat := p.entries.length

end Params

end PatternRouter
