import PatternRouter.Pattern.Node

namespace PatternRouter

/-- The parts of an expression. -/
inductive Token where
  | char (c : Char)
  /-- A capture of one segment or less, as short as can be. -/
  | segment
  /-- A capture of all that is left of the line, as long as can be. -/
  | remainder
  | groupStart
  /-- The end of a group that may be left out. -/
  | groupEnd
  deriving DecidableEq, Repr

def escapedChars : List Char :=
  ['\\', '.', '+', '*', '?', '(', ')', '|', '[', ']', '\x7b', '\x7d', '^', '$', '#', '&', '-', '~']

/-- The characters that mean something else where no backslash stands before them. -/
def activeChars : List Char :=
  ['\\', '.', '+', '*', '?', '(', ')', '|', '[', ']', '\x7b', '\x7d', '^', '$']

namespace Token

def text : Token → List Char
  | char c => if escapedChars.contains c then ['\\', c] else [c]
  | segment => ['(', '[', '^', '/', ']', '+', '?', ')']
  | remainder => ['(', '.', '+', ')']
  | groupStart => ['(', '?', ':']
  | groupEnd => [')', '?']

/-- The tokens of a node; `first` tells that no node and so no slash stands before it. -/
def ofNode (first : Bool) (n : Node) : List Token :=
  let slash := if first then [] else [char '/']
  match n with
  | .literal text => slash ++ text.toList.map char
  | .named _ false => slash ++ [segment]
  | .named _ true => groupStart :: slash ++ [segment, groupEnd]
  | .rest => groupStart :: slash ++ [remainder, groupEnd]

def ofNodes : List Node → List Token
  | [] => []
  | n :: ns => ofNode true n ++ ns.flatMap (ofNode false)

def write (ts : List Token) : List Char := '^' :: ts.flatMap text ++ ['$']

/-- The tokens up to the `$` at the end of an expression, or `none` where the text is no
expression of this kind. -/
def readBody? : List Char → Option (List Token)
  | ['$'] => some []
  | '(' :: '[' :: '^' :: '/' :: ']' :: '+' :: '?' :: ')' :: s => (readBody? s).map (segment :: ·)
  | '(' :: '.' :: '+' :: ')' :: s => (readBody? s).map (remainder :: ·)
  | '(' :: '?' :: ':' :: s => (readBody? s).map (groupStart :: ·)
  | ')' :: '?' :: s => (readBody? s).map (groupEnd :: ·)
  | '\\' :: c :: s =>
    if escapedChars.contains c then (readBody? s).map (char c :: ·) else none
  | c :: s => if activeChars.contains c then none else (readBody? s).map (char c :: ·)
  | [] => none

def read? : List Char → Option (List Token)
  | '^' :: s => readBody? s
  | _ => none

theorem mem_escapedChars_of_mem_activeChars {c : Char} (h : c ∈ activeChars) :
    c ∈ escapedChars := by
  have all : activeChars.all escapedChars.contains = true := by decide
  simpa using List.all_eq_true.1 all c h

/-- Reading takes exactly one token off a text that starts with one. -/
theorem readBody?_text (t : Token) (s : List Char) :
    readBody? (t.text ++ s) = (readBody? s).map (t :: ·) := by
  cases t with
  | char c =>
    -- A character is written behind a backslash or is none of those that reading takes for
    -- something else.
    by_cases h : c ∈ escapedChars
    · simp [text, h, readBody?]
    · have ha : c ∉ activeChars := fun hm => h (mem_escapedChars_of_mem_activeChars hm)
      simp only [text, List.contains_iff_mem, h, if_false, List.cons_append, List.nil_append]
      simp only [activeChars, List.mem_cons, List.not_mem_nil, or_false, not_or] at ha
      rw [readBody?]
      all_goals simp_all [activeChars]
  | segment => rfl
  | remainder => rfl
  | groupStart => rfl
  | groupEnd => rfl

/-- An expression is read back as the tokens that it was written from. -/
theorem read?_write (ts : List Token) : read? (write ts) = some ts := by
  have h : ∀ ts : List Token, readBody? (ts.flatMap text ++ ['$']) = some ts := by
    intro ts
    induction ts with
    | nil => rfl
    | cons t ts ih => simp [List.flatMap_cons, List.append_assoc, readBody?_text, ih]
  exact h ts

end Token

end PatternRouter
