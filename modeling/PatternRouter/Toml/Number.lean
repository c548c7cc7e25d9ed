import PatternRouter.Toml.Value

namespace PatternRouter.Toml

/-- Digits with single underscores between them, which are dropped. -/
def digits (isDigit : Char → Bool) : Reader (List Char)
  | [] => none
  | c :: s =>
    if isDigit c then
      match s with
      | '_' :: t => (digits isDigit t).map fun r => (c :: r.1, r.2)
      | t =>
        match digits isDigit t with
        | some r => some (c :: r.1, r.2)
        | none => some ([c], t)
    else none

def numeral (base : Nat) (ds : List Char) : Nat :=
  ds.foldl (fun n c =>
    base * n + (if c.isDigit then c.toNat - '0'.toNat else c.toLower.toNat - 'a'.toNat + 10)) 0

/-- An optional sign; `true` for a minus sign. -/
def sign : List Char → Bool × List Char
  | '+' :: s => (false, s)
  | '-' :: s => (true, s)
  | s => (false, s)

/-- Decimal digits without leading zeros. -/
def decimalDigits : Reader (List Char)
  | '0' :: s => some (['0'], s)
  | s => digits Char.isDigit s

def decimal (s : List Char) : Option (Int × List Char) :=
  let (negative, s) := sign s
  (decimalDigits s).map fun r =>
    (if negative then -(numeral 10 r.1 : Int) else numeral 10 r.1, r.2)

def integer (s : List Char) : Option (Int × List Char) :=
  let read : Option (Int × List Char) :=
    match s with
    | '0' :: 'x' :: t =>
      (digits (fun c => c.isDigit || ('a' ≤ c.toLower && c.toLower ≤ 'f')) t).map fun r =>
        ((numeral 16 r.1 : Int), r.2)
    | '0' :: 'o' :: t =>
      (digits (fun c => '0' ≤ c && c ≤ '7') t).map fun r => ((numeral 8 r.1 : Int), r.2)
    | '0' :: 'b' :: t =>
      (digits (fun c => c == '0' || c == '1') t).map fun r => ((numeral 2 r.1 : Int), r.2)
    | s => decimal s
  read.filter fun r => -Int.pow 2 63 ≤ r.1 && r.1 < Int.pow 2 63

/-- Whether `digits · 10 ^ exponent` is too large for a number of 64 bits with a binary point. -/
def tooLarge (ds : List Char) (exponent : Int) : Bool :=
  let n := numeral 10 ds
  let limit := Nat.pow 2 1024 - Nat.pow 2 970
  if n = 0 then false
  else if exponent > 400 then true
  else if exponent ≥ 0 then n * Nat.pow 10 exponent.toNat ≥ limit
  else if exponent < -((ds.length : Int) + 400) then false
  else n ≥ limit * Nat.pow 10 (-exponent).toNat

def fraction : Reader (List Char)
  | '.' :: s => digits Char.isDigit s
  | _ => none

def exponent : Reader Int
  | c :: s =>
    if c == 'e' || c == 'E' then
      let (negative, s) := sign s
      (digits Char.isDigit s).map fun r =>
        (if negative then -(numeral 10 r.1 : Int) else numeral 10 r.1, r.2)
    else none
  | [] => none

/-- A number with a fraction or an exponent, which no positive number may be too large for. -/
def pointNumber (s : List Char) : Option (Unit × List Char) := do
  let (negative, t) := sign s
  let (whole, t) ← decimalDigits t
  let (places, exp, t) ←
    match fraction t with
    | some (places, t) =>
      match exponent t with
      | some (exp, t) => some (places, exp, t)
      | none => some (places, 0, t)
    | none => (exponent t).map fun r => ([], r.1, r.2)
  if !negative && tooLarge (whole ++ places) (exp - places.length) then none else some ((), t)

/-- Infinity or no number. -/
def specialNumber (s : List Char) : Option (Unit × List Char) :=
  match (sign s).2 with
  | 'i' :: 'n' :: 'f' :: t => some ((), t)
  | 'n' :: 'a' :: 'n' :: t => some ((), t)
  | _ => none

def fixed (width least most : Nat) (s : List Char) : Option (Nat × List Char) :=
  let ds := s.take width
  let n := numeral 10 ds
  if ds.length = width && ds.all Char.isDigit && least ≤ n && n ≤ most then
    some (n, s.drop width)
  else none

def expect (c : Char) : List Char → Option (List Char)
  | d :: s => if c = d then some s else none
  | [] => none

def monthDays (year month : Nat) : Nat :=
  if month = 2 then
    if year % 4 = 0 ∧ (year % 100 ≠ 0 ∨ year % 400 = 0) then 29 else 28
  else if month = 4 ∨ month = 6 ∨ month = 9 ∨ month = 11 then 30
  else 31

def date (s : List Char) : Option (List Char) := do
  let (year, s) ← fixed 4 0 9999 s
  let s ← expect '-' s
  let (month, s) ← fixed 2 1 12 s
  let s ← expect '-' s
  let (_, s) ← fixed 2 1 (monthDays year month) s
  return s

/-- A time of day, which may have a leap second and parts of a second. -/
def time (s : List Char) : Option (List Char) := do
  let (_, s) ← fixed 2 0 23 s
  let s ← expect ':' s
  let (_, s) ← fixed 2 0 59 s
  let s ← expect ':' s
  let (_, s) ← fixed 2 0 60 s
  match s with
  | '.' :: t => if t.head?.any Char.isDigit then return t.dropWhile Char.isDigit else none
  | _ => return s

/-- The distance of a time from universal time, if it is given. -/
def offset (s : List Char) : Option (List Char) :=
  match s with
  | 'Z' :: t => some t
  | 'z' :: t => some t
  | c :: t =>
    if c == '+' || c == '-' then do
      let (_, t) ← fixed 2 0 23 t
      let t ← expect ':' t
      let (_, t) ← fixed 2 0 59 t
      return t
    else some s
  | [] => some s

/-- A day, a time of day, or both, the latter with or without an offset. -/
def datetime (s : List Char) : Option (List Char) :=
  match date s with
  | none => time s
  | some s =>
    match s with
    | c :: t =>
      if c == 'T' || c == 't' || c == ' ' then
        match time t with
        | some t => offset t
        | none => some s
      else some s
    | [] => some s

/-- What a reader took from the start of a text. -/
def taken (s rest : List Char) : String := String.ofList (s.take (s.length - rest.length))

/-- A number or a date: a date before a number with a point, and that before a whole number. -/
def number (s : List Char) : Option (Value × List Char) :=
  match datetime s with
  | some t => some (.datetime (taken s t), t)
  | none =>
    match (pointNumber s).or (specialNumber s) with
    | some (_, t) => some (.float (taken s t), t)
    | none => (integer s).map fun r => (.integer r.1, r.2)

def boolean : Reader Value
  | 't' :: 'r' :: 'u' :: 'e' :: s => some (.boolean true, s)
  | 'f' :: 'a' :: 'l' :: 's' :: 'e' :: s => some (.boolean false, s)
  | _ => none

end PatternRouter.Toml
