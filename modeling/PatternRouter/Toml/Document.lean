import PatternRouter.Toml.Number
import PatternRouter.Toml.Table
import PatternRouter.Toml.Text

namespace PatternRouter.Toml

/-- The least number of nested brackets, and of parts of a key, that is too large. -/
def nestingLimit : Nat := 80

def isKeyChar (c : Char) : Bool := c.isAlphanum || c == '_' || c == '-'

def simpleKey (s : List Char) : Option (String × List Char) :=
  match lineText s with
  | some r => some r
  | none =>
    let key := s.takeWhile isKeyChar
    if key.isEmpty then none else some (String.ofList key, s.drop key.length)

/-- The parts of a key, with dots and blanks between them; at most `fuel` of them. -/
def keyParts : Nat → Reader (List String)
  | 0, _ => none
  | fuel + 1, s => do
    let (key, s) ← simpleKey (skipSpace s)
    match skipSpace s with
    | '.' :: s => (keyParts fuel s).map fun r => (key :: r.1, r.2)
    | s => return ([key], s)

/-- A key: the path of its last part, and that part. -/
def key (s : List Char) : Option ((List String × String) × List Char) := do
  let (parts, s) ← keyParts (nestingLimit - 1) s
  let last ← parts.getLast?
  return ((parts.dropLast, last), s)

def pair (value : Reader Value) (s : List Char) :
    Option ((List String × String × Value) × List Char) := do
  let ((path, last), s) ← key s
  let s ← expect '=' s
  let (v, s) ← value (skipSpace s)
  return ((path, last, v), s)

/-- The items of an array up to its closing bracket; at most `fuel` of them. -/
def arrayItems (value : Reader Value) : Nat → Reader (List Value)
  | 0, _ => none
  | fuel + 1, s =>
    match skipLines false s with
    | ']' :: s => some ([], s)
    | s => do
      let (v, s) ← value s
      match skipLines false s with
      | ']' :: s => return ([v], s)
      | ',' :: s => (arrayItems value fuel s).map fun r => (v :: r.1, r.2)
      | _ => none

def tablePairs (value : Reader Value) : Nat → Reader (List (List String × String × Value))
  | 0, _ => none
  | fuel + 1, s => do
    let (p, s) ← pair value s
    match skipSpace s with
    | '\x7d' :: s => return ([p], s)
    | ',' :: s => (tablePairs value fuel s).map fun r => (p :: r.1, r.2)
    | _ => none

def addPairs (es : Entries) (ps : List (List String × String × Value)) : Option Entries :=
  ps.foldlM (fun es p => es.addPair p.1 p.2.1 p.2.2) es

def bracedTable (value : Reader Value) (s : List Char) : Option (Value × List Char) :=
  match skipSpace s with
  | '\x7d' :: s => some (.table [], s)
  | s => do
    let (ps, s) ← tablePairs value s.length s
    let es ← addPairs [] ps
    return (.table (entryValues es), s)

/-- A value with at most `depth` nested brackets. -/
def value : Nat → Reader Value
  | _, [] => none
  | depth, c :: s =>
    if c == '"' || c == '\'' then (text (c :: s)).map fun r => (.string r.1, r.2)
    else if c == '[' then
      match depth with
      | 0 => none
      | d + 1 => (arrayItems (value d) (s.length + 1) s).map fun r => (.array r.1, r.2)
    else if c == '\x7b' then
      match depth with
      | 0 => none
      | d + 1 => bracedTable (value d) s
    else if c == 't' || c == 'f' then boolean (c :: s)
    else number (c :: s)

inductive Line where
  | blank
  | pair (path : List String) (key : String) (v : Value)
  | header (path : List String) (key : String)
  | repeated (path : List String) (key : String)

def line (s : List Char) : Option (Line × List Char) :=
  match skipSpace s with
  | '[' :: '[' :: s => do
    let ((path, last), s) ← key s
    match s with
    | ']' :: ']' :: s => (lineEnd? s).map fun s => (.repeated path last, s)
    | _ => none
  | '[' :: s => do
    let ((path, last), s) ← key s
    match s with
    | ']' :: s => (lineEnd? s).map fun s => (.header path last, s)
    | _ => none
  | s =>
    match lineEnd? s with
    | some s => some (.blank, s)
    | none => do
      let ((path, last, v), s) ← pair (value (nestingLimit - 1)) s
      (lineEnd? s).map fun s => (.pair path last v, s)

def lines : Nat → List Char → Option (List Line)
  | _, [] => some []
  | 0, _ => none
  | fuel + 1, s => do
    let (l, s) ← line s
    let ls ← lines fuel s
    return l :: ls

/-- The entries of the document with these lines after `es`, where pairs belong to the table at
`current`. -/
def assemble (current : List String) (es : Entries) : List Line → Option Entries
  | [] => some es
  | .blank :: ls => assemble current es ls
  | .pair path key v :: ls => do
    let es ← es.update .implied (fun _ t => t.addPair path key v) current .defined
    assemble current es ls
  | .header path key :: ls => do
    let es ← es.addTable path key
    assemble (path ++ [key]) es ls
  | .repeated path key :: ls => do
    let es ← es.addTables path key
    assemble (path ++ [key]) es ls

/-- The top table of a document, or `none` where the text is no document. A byte order mark at the
start is dropped. -/
def document? (text : String) : Option (List (String × Value)) := do
  let s := match text.toList with
    | '\ufeff' :: s => s
    | s => s
  let ls ← lines s.length s
  let es ← assemble [] [] ls
  return entryValues es

end PatternRouter.Toml
