import PatternRouter.Toml.Value

/-!
Tables while a document is read. A table is defined once: by its header, or by the dotted keys that
lead into it. A table that a longer header only passes through can still get its own header.
-/

namespace PatternRouter.Toml

/-- How a table came to be. -/
inductive Origin where
  /-- By a header of its own, or by braces. -/
  | defined
  /-- By a header that leads through it. -/
  | implied
  /-- By a dotted key that leads through it. -/
  | dotted
  deriving DecidableEq, Repr

inductive Item where
  | value (v : Value)
  | table (origin : Origin) (entries : List (String × Item))
  /-- Tables under one repeated header, the latest first. -/
  | tables (items : List (List (String × Item)))

abbrev Entries := List (String × Item)

mutual

def Item.toValue : Item → Value
  | .value v => v
  | .table _ entries => .table (entryValues entries)
  | .tables items => .array (tableValues items).reverse

def entryValues : List (String × Item) → List (String × Value)
  | [] => []
  | (key, item) :: es => (key, item.toValue) :: entryValues es

def tableValues : List (List (String × Item)) → List Value
  | [] => []
  | t :: ts => .table (entryValues t) :: tableValues ts

end

namespace Entries

/-- Gives a key an item; a new key goes to the end. -/
def put (key : String) (item : Item) : Entries → Entries
  | [] => [(key, item)]
  | e :: es => if e.1 = key then (key, item) :: es else e :: put key item es

/-- Changes the table that a path leads to from a table, and makes the tables that are missing on
the way with origin `made`. A repeated header stands for its latest table. Nothing leads through a
value, and no dotted key through a table that was defined. -/
def update (made : Origin) (change : Origin → Entries → Option Entries) :
    List String → Origin → Entries → Option Entries
  | [], origin, es => change origin es
  | key :: path, _, es =>
    match es.lookup key with
    | none => (update made change path made []).map fun t => es.put key (.table made t)
    | some (.value _) => none
    | some (.table origin t) =>
      if made = .dotted ∧ origin = .defined then none
      else (update made change path origin t).map fun t => es.put key (.table origin t)
    | some (.tables []) => none
    | some (.tables (t :: ts)) =>
      (update made change path .defined t).map fun t => es.put key (.tables (t :: ts))

/-- Adds a key that must be new, at the end of a path of dotted keys. -/
def addPair (path : List String) (key : String) (v : Value) (es : Entries) : Option Entries :=
  es.update .dotted (fun origin t =>
    if (origin = .dotted ↔ path = []) ∨ (t.lookup key).isSome then none
    else some (t ++ [(key, .value v)])) path .defined

def addTable (path : List String) (key : String) (es : Entries) : Option Entries :=
  es.update .implied (fun _ t =>
    match t.lookup key with
    | none => some (t ++ [(key, .table .defined [])])
    | some (.table .implied sub) => some (t.put key (.table .defined sub))
    | some _ => none) path .defined

/-- Begins one more table under a repeated header. -/
def addTables (path : List String) (key : String) (es : Entries) : Option Entries :=
  es.update .implied (fun _ t =>
    match t.lookup key with
    | none => some (t ++ [(key, .tables [[]])])
    | some (.tables ts) => some (t.put key (.tables ([] :: ts)))
    | some _ => none) path .defined

end Entries

end PatternRouter.Toml
