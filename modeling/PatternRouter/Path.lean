import PatternRouter.Text.Segments

namespace PatternRouter

def hasDoubleSlash : List Char → Bool
  | '/' :: '/' :: _ => true
  | _ :: s => hasDoubleSlash s
  | [] => false

/-- Whether a text has no slash at either end and no two side by side. -/
def isCleanText (s : List Char) : Bool :=
  s.head? != some '/' && s.getLast? != some '/' && !hasDoubleSlash s

/-- The segments of a text with single slashes between them; a clean text is left alone. -/
def normalizeText (s : List Char) : List Char :=
  if isCleanText s then s else joinSlash (segments s)

namespace Path

/-- Whether normalization leaves the path as it is. -/
def isClean (path : String) : Bool := isCleanText path.toList

def normalize (path : String) : String := String.ofList (normalizeText path.toList)

end Path

end PatternRouter
