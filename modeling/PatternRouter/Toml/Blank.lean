import PatternRouter.Toml.Value

namespace PatternRouter.Toml

def isSpace (c : Char) : Bool := c == ' ' || c == '\t'

/-- Whether a character is no control character, or a tab. -/
def isVisible (c : Char) : Bool := c == '\t' || (32 ≤ c.toNat && c.toNat ≠ 127)

def skipSpace (s : List Char) : List Char := s.dropWhile isSpace

/-- What follows the end of a line. -/
def newline? : List Char → Option (List Char)
  | '\n' :: s => some s
  | '\r' :: '\n' :: s => some s
  | _ => none

def skipComment : List Char → List Char
  | '#' :: s => s.dropWhile isVisible
  | s => s

/-- What follows the rest of a line that holds nothing more than a comment. -/
def lineEnd? (s : List Char) : Option (List Char) :=
  match skipComment (skipSpace s) with
  | [] => some []
  | t => newline? t

def skipLines (inComment : Bool) : List Char → List Char
  | [] => []
  | '\n' :: s => skipLines false s
  | '\r' :: '\n' :: s => skipLines false s
  | c :: s =>
    if inComment then if isVisible c then skipLines true s else c :: s
    else if isSpace c then skipLines false s
    else if c == '#' then skipLines true s
    else c :: s

end PatternRouter.Toml
