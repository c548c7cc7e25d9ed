import PatternRouter.Toml.Blank

namespace PatternRouter.Toml

def prepend (c : Char) (r : Option (List Char × List Char)) : Option (List Char × List Char) :=
  r.map fun t => (c :: t.1, t.2)

def hexValue? (c : Char) : Option Nat :=
  if '0' ≤ c ∧ c ≤ '9' then some (c.toNat - '0'.toNat)
  else if 'a' ≤ c ∧ c ≤ 'f' then some (c.toNat - 'a'.toNat + 10)
  else if 'A' ≤ c ∧ c ≤ 'F' then some (c.toNat - 'A'.toNat + 10)
  else none

/-- The character that hexadecimal digits give the number of. -/
def numbered? (digits : List Char) : Option Char := do
  let n ← digits.foldlM (fun n c => (hexValue? c).map (16 * n + ·)) 0
  if h : n.isValidChar then some (Char.ofNatAux n h) else none

def escaped? : Char → Option Char
  | 'b' => some '\x08'
  | 't' => some '\t'
  | 'n' => some '\n'
  | 'f' => some '\x0c'
  | 'r' => some '\r'
  | '"' => some '"'
  | '\\' => some '\\'
  | _ => none

/-- A text with escapes up to its closing quote. -/
def basicRest : Reader (List Char)
  | [] => none
  | '"' :: s => some ([], s)
  | '\\' :: 'u' :: a :: b :: c :: d :: s =>
    match numbered? [a, b, c, d] with
    | some x => prepend x (basicRest s)
    | none => none
  | '\\' :: 'U' :: a :: b :: c :: d :: e :: f :: g :: h :: s =>
    match numbered? [a, b, c, d, e, f, g, h] with
    | some x => prepend x (basicRest s)
    | none => none
  | '\\' :: c :: s =>
    match escaped? c with
    | some x => prepend x (basicRest s)
    | none => none
  | c :: s => if isVisible c && c != '\\' then prepend c (basicRest s) else none

def literalRest : Reader (List Char)
  | [] => none
  | '\'' :: s => some ([], s)
  | c :: s => if isVisible c then prepend c (literalRest s) else none

/-- What follows three quotes: up to two more belong to the text that they close. -/
def closing (q : Char) : List Char → List Char × List Char
  | a :: b :: s => if a = q then if b = q then ([q, q], s) else ([q], b :: s) else ([], a :: b :: s)
  | [a] => if a = q then ([q], []) else ([], [a])
  | [] => ([], [])

/-- A text with escapes up to its closing triple quote. A backslash at the end of a line takes
away all blanks and line ends that follow; `skipping` tells that it does so here. -/
def basicLines (skipping : Bool) : Reader (List Char)
  | [] => none
  | '"' :: '"' :: '"' :: s => some (closing '"' s)
  | '\n' :: s => if skipping then basicLines true s else prepend '\n' (basicLines false s)
  | '\r' :: '\n' :: s => if skipping then basicLines true s else prepend '\n' (basicLines false s)
  | '\\' :: 'u' :: a :: b :: c :: d :: s =>
    match numbered? [a, b, c, d] with
    | some x => prepend x (basicLines false s)
    | none => none
  | '\\' :: 'U' :: a :: b :: c :: d :: e :: f :: g :: h :: s =>
    match numbered? [a, b, c, d, e, f, g, h] with
    | some x => prepend x (basicLines false s)
    | none => none
  | '\\' :: c :: s =>
    match escaped? c with
    | some x => prepend x (basicLines false s)
    | none => if (newline? (skipSpace (c :: s))).isSome then basicLines true (c :: s) else none
  | c :: s =>
    if skipping && isSpace c then basicLines true s
    else if isVisible c && c != '\\' then prepend c (basicLines false s)
    else none

def literalLines : Reader (List Char)
  | [] => none
  | '\'' :: '\'' :: '\'' :: s => some (closing '\'' s)
  | '\n' :: s => prepend '\n' (literalLines s)
  | '\r' :: '\n' :: s => prepend '\n' (literalLines s)
  | c :: s => if isVisible c then prepend c (literalLines s) else none

def lineText : Reader String
  | '"' :: s => (basicRest s).map fun t => (String.ofList t.1, t.2)
  | '\'' :: s => (literalRest s).map fun t => (String.ofList t.1, t.2)
  | _ => none

/-- A text of either kind; a line end right after an opening triple quote is dropped. -/
def text : Reader String
  | '"' :: '"' :: '"' :: s =>
    (basicLines false ((newline? s).getD s)).map fun t => (String.ofList t.1, t.2)
  | '\'' :: '\'' :: '\'' :: s =>
    (literalLines ((newline? s).getD s)).map fun t => (String.ofList t.1, t.2)
  | s => lineText s

end PatternRouter.Toml
