import PatternRouter.Text.Quoted

namespace PatternRouter

class Describe (α : Type) where
  describe : α → String

export Describe (describe)

/-- A named value with named parts. -/
def describeRecord (name : String) (parts : List (String × String)) : String :=
  name ++ " \x7b " ++ ", ".intercalate (parts.map fun p => p.1 ++ ": " ++ p.2) ++ " \x7d"

def describeOne (name part : String) : String := name ++ "(" ++ part ++ ")"

def describeMap (entries : List (String × String)) : String :=
  "\x7b" ++ ", ".intercalate (entries.map fun p => p.1 ++ ": " ++ p.2) ++ "\x7d"

instance : Describe String := ⟨quoted⟩

instance : Describe Nat := ⟨toString⟩

instance : Describe Bool := ⟨fun b => if b then "true" else "false"⟩

instance {α : Type} [Describe α] : Describe (List α) :=
  ⟨fun xs => "[" ++ ", ".intercalate (xs.map describe) ++ "]"⟩

instance {α : Type} [Describe α] : Describe (Option α) :=
  ⟨fun
    | none => "None"
    | some x => describeOne "Some" (describe x)⟩

end PatternRouter
