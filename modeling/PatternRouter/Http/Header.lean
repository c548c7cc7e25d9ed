namespace PatternRouter

def headerMarks : List Char :=
  ['!', '"', '#', '$', '%', '&', '\'', '*', '+', '-', '.', '^', '_', '\x60', '|', '~']

/-- The most characters that a header name can have. -/
def maxHeaderName : Nat := 65535

def isHeaderName (s : List Char) : Bool :=
  !s.isEmpty && s.length ≤ maxHeaderName && s.all fun c => c.isAlphanum || headerMarks.contains c

def isHeaderChar (c : Char) : Bool := c == '\t' || (32 ≤ c.toNat && c.toNat ≠ 127)

def isHeaderValue (s : List Char) : Bool := s.all isHeaderChar

/-- Whether a header value consists of printable characters of seven bits, and tabs. -/
def isPlainValue (s : List Char) : Bool :=
  s.all fun c => c == '\t' || (32 ≤ c.toNat && c.toNat < 127)

/-- One header field; its name is in lower case. -/
structure Header where
  name : String
  value : String
  deriving DecidableEq, Repr

inductive HeaderError where
  | badName
  | badValue
  deriving DecidableEq, Repr

def HeaderError.message : HeaderError → String
  | badName => "invalid HTTP header name"
  | badValue => "failed to parse header value"

abbrev Headers := List Header

namespace Headers

/-- The fields of names and values; the first fault decides the error. -/
def ofPairs : List (String × String) → Except HeaderError Headers
  | [] => .ok []
  | (name, value) :: ps =>
    if !isHeaderName name.toList then .error .badName
    else if !isHeaderValue value.toList then .error .badValue
    else (ofPairs ps).map (⟨String.ofList (name.toList.map Char.toLower), value⟩ :: ·)

def first? (hs : Headers) (name : String) : Option String :=
  (hs.find? (·.name == name)).map (·.value)

def contains (hs : Headers) (name : String) : Bool := hs.any (·.name == name)

/-- Adds a field unless its name has a value already. -/
def addNew (hs : Headers) (h : Header) : Headers := if hs.contains h.name then hs else hs ++ [h]

/-- The fields by name, the values of one name in their order. -/
def sorted (hs : Headers) : Headers := hs.mergeSort fun a b => a.name ≤ b.name

end Headers

end PatternRouter
