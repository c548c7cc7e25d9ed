import PatternRouter.Error
import PatternRouter.Text.Blank

namespace PatternRouter

def methodMarks : List Char := ['!', '*', '+', '-', '.', '^', '_', '\x60', '|', '~']

def isMethodChar (c : Char) : Bool := c.isAlphanum || methodMarks.contains c

def isMethodText (s : List Char) : Bool := !s.isEmpty && s.all isMethodChar

structure Method where
  name : String
  valid : isMethodText name.toList = true
  deriving DecidableEq, Repr

namespace Method

def get : Method := ⟨"GET", by decide⟩
def post : Method := ⟨"POST", by decide⟩
def put : Method := ⟨"PUT", by decide⟩
def delete : Method := ⟨"DELETE", by decide⟩
def head : Method := ⟨"HEAD", by decide⟩
def options : Method := ⟨"OPTIONS", by decide⟩
def connect : Method := ⟨"CONNECT", by decide⟩
def patch : Method := ⟨"PATCH", by decide⟩
def trace : Method := ⟨"TRACE", by decide⟩

/-- The method with exactly this name. -/
def ofName? (name : String) : Option Method :=
  if h : isMethodText name.toList = true then some ⟨name, h⟩ else none

/-- The method that a text means once the white space around it is gone and its letters are upper
case. -/
def ofText? (s : String) : Option Method :=
  ofName? (String.ofList ((trimBlank s.toList).map Char.toUpper))

/-- The method of a registration; no text means `GET`. -/
def ofRegistration (s : Option String) : Except RouteError Method :=
  let s := s.getD "GET"
  match ofText? s with
  | some m => .ok m
  | none => .error (.invalidMethod s)

end Method

end PatternRouter
