namespace PatternRouter

inductive UriError where
  | empty
  | tooLong
  | badChar
  | badAuthority
  | schemeTooLong
  | badFormat
  deriving DecidableEq, Repr

def UriError.message : UriError → String
  | empty => "empty string"
  | tooLong => "uri too long"
  | badChar => "invalid uri character"
  | badAuthority => "invalid authority"
  | schemeTooLong => "scheme too long"
  | badFormat => "invalid format"

/-- A request target, known by its path. -/
structure Uri where
  path : String
  deriving DecidableEq, Repr

namespace Uri

/-- The most bytes that a target can have. -/
def maxLength : Nat := 65534

def maxScheme : Nat := 64

/-- The most colons in a row of an authority. -/
def maxColons : Nat := 8

def isPathChar (c : Char) : Bool :=
  let n := c.toNat
  n == 0x21 || n == 0x22 || (0x24 ≤ n && n ≤ 0x3b) || n == 0x3d || (0x40 ≤ n && n ≤ 0x5f) ||
    (0x61 ≤ n && n ≤ 0x7e)

def isQueryChar (c : Char) : Bool :=
  let n := c.toNat
  n == 0x21 || (0x24 ≤ n && n ≤ 0x3b) || n == 0x3d || (0x3f ≤ n && n ≤ 0x7e)

def isAuthorityChar (c : Char) : Bool :=
  c.isAlphanum ||
    ['!', '$', '&', '\'', '(', ')', '*', '+', ',', '-', '.', ';', '=', '_', '~'].contains c

def isSchemeChar (c : Char) : Bool := c.isAlphanum || ['+', '-', '.', '~'].contains c

/-- Whether a query and a fragment after it are well formed. -/
def checkQuery (s : List Char) : Except UriError Unit :=
  if (s.takeWhile (· ≠ '#')).all isQueryChar then .ok () else .error .badChar

def splitPath (s : List Char) : Except UriError (List Char) :=
  let path := s.takeWhile fun c => c ≠ '?' && c ≠ '#'
  if path.all isPathChar then
    match s.drop path.length with
    | '?' :: query => (checkQuery query).map fun _ => path
    | _ => .ok path
  else .error .badChar

/-- What has been seen of an authority. -/
structure Authority where
  colons : Nat
  opened : Bool
  closed : Bool
  percent : Bool
  afterAt : Bool

/-- Reads an authority up to a slash, a query or a fragment, and gives what follows it. Colons and
percent signs are forgotten at the end of user information and of a bracketed address. -/
def readAuthority (a : Authority) : List Char → Except UriError (List Char)
  | [] => finish a []
  | c :: s =>
    if c == '/' || c == '?' || c == '#' then finish a (c :: s)
    else if c == ':' then
      if a.colons ≥ maxColons then .error .badAuthority
      else readAuthority { a with colons := a.colons + 1, afterAt := false } s
    else if c == '[' then
      if a.percent || a.opened then .error .badAuthority
      else readAuthority { a with opened := true, afterAt := false } s
    else if c == ']' then
      if !a.opened || a.closed then .error .badAuthority
      else
        readAuthority { a with colons := 0, closed := true, percent := false, afterAt := false } s
    else if c == '@' then readAuthority { a with colons := 0, percent := false, afterAt := true } s
    else if c == '%' then readAuthority { a with percent := true, afterAt := false } s
    else if isAuthorityChar c then readAuthority { a with afterAt := false } s
    else .error .badChar
where
  finish (a : Authority) (rest : List Char) : Except UriError (List Char) :=
    if a.opened != a.closed || a.colons > 1 || a.afterAt || a.percent then .error .badAuthority
    else .ok rest

def afterAuthority (s : List Char) : Except UriError (List Char) :=
  readAuthority ⟨0, false, false, false, false⟩ s

/-- What follows a scheme and its two slashes, or `none` where there is no scheme. -/
def afterScheme? (s : List Char) : Except UriError (Option (List Char)) :=
  let scheme := s.takeWhile isSchemeChar
  match s.drop scheme.length with
  | ':' :: '/' :: '/' :: rest =>
    if s.length ≤ 3 then .ok none
    else if scheme.length > maxScheme then .error .schemeTooLong
    else .ok (some rest)
  | _ => .ok none

/-- The path of a target that does not start with a slash. -/
def fullPath (s : List Char) : Except UriError (List Char) := do
  match ← afterScheme? s with
  | none =>
    let rest ← afterAuthority s
    if rest.isEmpty then .ok [] else .error .badFormat
  | some t =>
    let rest ← afterAuthority t
    if rest.length = t.length then .error .badFormat
    else
      let path ← splitPath rest
      .ok (if path.isEmpty then ['/'] else path)

/-- Reads a request target: a path with an optional query, `*`, an authority alone, or a scheme, an
authority and an optional path. Nothing is decoded, and a fragment is dropped. -/
def parse (text : String) : Except UriError Uri :=
  if text.utf8ByteSize > maxLength then .error .tooLong
  else match text.toList with
    | [] => .error .empty
    | ['*'] => .ok ⟨"*"⟩
    | '/' :: s => (splitPath ('/' :: s)).map fun p => ⟨String.ofList p⟩
    | [c] =>
      match afterAuthority [c] with
      | .error e => .error e
      | .ok [] => .ok ⟨""⟩
      | .ok _ => .error .badChar
    | s => (fullPath s).map fun p => ⟨String.ofList p⟩

end Uri

end PatternRouter
