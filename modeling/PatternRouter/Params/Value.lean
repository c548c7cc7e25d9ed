import PatternRouter.Params.Basic

namespace PatternRouter

/-- What a parameter can be read as. -/
inductive ValueType where
  | unsigned (bits : Nat)
  | signed (bits : Nat)
  | bool
  | char
  deriving DecidableEq, Repr

inductive Value where
  | int (n : Int)
  | bool (b : Bool)
  | char (c : Char)
  deriving DecidableEq, Repr

inductive ValueError where
  | noInteger
  | badDigit
  | tooLarge
  | tooSmall
  | badBool
  | noChar
  | manyChars
  deriving DecidableEq, Repr

namespace ValueError

def message : ValueError → String
  | noInteger => "cannot parse integer from empty string"
  | badDigit => "invalid digit found in string"
  | tooLarge => "number too large to fit in target type"
  | tooSmall => "number too small to fit in target type"
  | badBool => "provided string was not `true` or `false`"
  | noChar => "cannot parse char from empty string"
  | manyChars => "too many characters in string"

end ValueError

namespace Value

/-- The usual text of a value: a number without a plus sign or leading zeros. -/
def text : Value → String
  | int n => toString n
  | bool true => "true"
  | bool false => "false"
  | char c => c.toString

end Value

/-- The number that decimal digits stand for; from left to right, the first character that is no
digit or makes the number larger than `limit` decides the error. -/
def readDigits (limit : Nat) (overflow : ValueError) (n : Nat) : List Char → Except ValueError Nat
  | [] => .ok n
  | c :: s =>
    if c.isDigit then
      let m := 10 * n + (c.toNat - '0'.toNat)
      if m > limit then .error overflow else readDigits limit overflow m s
    else .error .badDigit

/-- A number without its sign, which has at least one digit. -/
def readMagnitude (limit : Nat) (overflow : ValueError) (s : List Char) : Except ValueError Nat :=
  if s.isEmpty then .error .badDigit else readDigits limit overflow 0 s

/-- A number between the two limits; only one that may be negative can have a minus sign. -/
def readInteger (most least : Nat) : List Char → Except ValueError Int
  | [] => .error .noInteger
  | '+' :: s => (readMagnitude most .tooLarge s).map Int.ofNat
  | '-' :: s =>
    if least = 0 then .error .badDigit
    else (readMagnitude least .tooSmall s).map fun n => -(n : Int)
  | s => (readMagnitude most .tooLarge s).map Int.ofNat

namespace ValueType

def read (t : ValueType) (s : String) : Except ValueError Value :=
  match t with
  | unsigned bits => (readInteger (Nat.pow 2 bits - 1) 0 s.toList).map .int
  | signed bits => (readInteger (Nat.pow 2 (bits - 1) - 1) (Nat.pow 2 (bits - 1)) s.toList).map .int
  | bool =>
    if s = "true" then .ok (.bool true)
    else if s = "false" then .ok (.bool false)
    else .error .badBool
  | char =>
    match s.toList with
    | [] => .error .noChar
    | [c] => .ok (.char c)
    | _ => .error .manyChars

end ValueType

def Params.read? (p : Params) (name : String) (t : ValueType) :
    Option (Except ValueError Value) :=
  (p.get? name).map t.read

end PatternRouter
