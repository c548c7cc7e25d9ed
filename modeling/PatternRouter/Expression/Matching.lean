import PatternRouter.Text.CaseFold
import PatternRouter.Expression.Tree

/-!
Matching. `Expr.eval` says what an expression matches, by the first way to go on that succeeds:
a group before its absence, a short capture before a longer one or the other way round. It can
take a time exponential in the number of groups. `Expr.table` gives the same answers for all ends
of a text at once, from what follows the expression to the expression itself, in a time
proportional to the product of both sizes.
-/

namespace PatternRouter

/-- What the captures of an expression took, in the order of their opening brackets; `none` for
one that took no part. -/
abbrev Groups := List (Option (List Char))

/-- What remains to be matched after an expression. -/
abbrev Continuation := List Char → Option Groups

/-- The shortest text without `avoid` after which `k` succeeds, and what `k` gives there. -/
def shortest (avoid : Char) (k : Continuation) : List Char → Option (List Char × Groups)
  | [] => none
  | c :: s =>
    if c = avoid then none
    else match k s with
      | some g => some ([c], g)
      | none => (shortest avoid k s).map fun r => (c :: r.1, r.2)

/-- The longest text without `avoid` after which `k` succeeds, and what `k` gives there. -/
def longest (avoid : Char) (k : Continuation) : List Char → Option (List Char × Groups)
  | [] => none
  | c :: s =>
    if c = avoid then none
    else match longest avoid k s with
      | some r => some (c :: r.1, r.2)
      | none => (k s).map fun g => ([c], g)

/-- A capture in front of the groups that follow it. -/
def captured (r : List Char × Groups) : Groups := some r.1 :: r.2

/-- The groups of an expression that was left out, in front of those that follow it. -/
def absent (n : Nat) (g : Groups) : Groups := List.replicate n none ++ g

def atEnd : Continuation
  | [] => some []
  | _ :: _ => none

namespace Expr

/-- What an expression and then `k` capture from a text. -/
def eval : Expr → Continuation → Continuation
  | empty, k => k
  | char c, k => fun
    | [] => none
    | x :: s => if caseless c x then k s else none
  | capture avoid greedy, k => fun s =>
    (if greedy then longest avoid k s else shortest avoid k s).map captured
  | optional e, k => fun s => (e.eval k s).or ((k s).map (absent e.groups))
  | seq a b, k => a.eval (b.eval k)

end Expr

/-- The answers of `k` for a text and for each of its ends, the text itself first. -/
def tableOf (k : Continuation) : List Char → List (Option Groups)
  | [] => [k []]
  | c :: s => k (c :: s) :: tableOf k s

/-- The first answer of a table. -/
def firstAnswer {α : Type} : List (Option α) → Option α
  | [] => none
  | x :: _ => x

def charTable (c : Char) : List Char → List (Option Groups) → List (Option Groups)
  | x :: s, _ :: t => (if caseless c x then firstAnswer t else none) :: charTable c s t
  | _, _ => [none]

def shortestTable (avoid : Char) :
    List Char → List (Option Groups) → List (Option (List Char × Groups))
  | c :: s, _ :: t =>
    let r := shortestTable avoid s t
    (if c = avoid then none
      else match firstAnswer t with
        | some g => some ([c], g)
        | none => (firstAnswer r).map fun r => (c :: r.1, r.2)) :: r
  | _, _ => [none]

def longestTable (avoid : Char) :
    List Char → List (Option Groups) → List (Option (List Char × Groups))
  | c :: s, _ :: t =>
    let r := longestTable avoid s t
    (if c = avoid then none
      else match firstAnswer r with
        | some r => some (c :: r.1, r.2)
        | none => (firstAnswer t).map fun g => ([c], g)) :: r
  | _, _ => [none]

namespace Expr

/-- The table of an expression in front of what the table `t` is for. -/
def table : Expr → List Char → List (Option Groups) → List (Option Groups)
  | empty, _, t => t
  | char c, s, t => charTable c s t
  | capture avoid greedy, s, t =>
    (if greedy then longestTable avoid s t else shortestTable avoid s t).map (·.map captured)
  | optional e, s, t => List.zipWith (fun x y => x.or (y.map (absent e.groups))) (e.table s t) t
  | seq a b, s, t => a.table s (b.table s t)

/-- What an expression captures from a whole text. -/
def run (e : Expr) (s : List Char) : Option Groups := firstAnswer (e.table s (tableOf atEnd s))

end Expr

@[simp] theorem firstAnswer_tableOf (k : Continuation) (s : List Char) :
    firstAnswer (tableOf k s) = k s := by
  cases s <;> rfl

theorem firstAnswer_cons {α : Type} (x : Option α) (t : List (Option α)) :
    firstAnswer (x :: t) = x := rfl

theorem charTable_tableOf (c : Char) (k : Continuation) (s : List Char) :
    charTable c s (tableOf k s) = tableOf ((Expr.char c).eval k) s := by
  induction s with
  | nil => rfl
  | cons x s ih => simp [charTable, tableOf, ih, Expr.eval]

theorem shortestTable_tableOf (avoid : Char) (k : Continuation) (s : List Char) :
    (shortestTable avoid s (tableOf k s)).map (·.map captured) =
      tableOf (fun s => (shortest avoid k s).map captured) s ∧
    firstAnswer (shortestTable avoid s (tableOf k s)) = shortest avoid k s := by
  induction s with
  | nil => exact ⟨rfl, rfl⟩
  | cons x s ih =>
    obtain ⟨ih, hd⟩ := ih
    constructor <;> simp [shortestTable, tableOf, ih, hd, shortest, firstAnswer_cons]

theorem longestTable_tableOf (avoid : Char) (k : Continuation) (s : List Char) :
    (longestTable avoid s (tableOf k s)).map (·.map captured) =
      tableOf (fun s => (longest avoid k s).map captured) s ∧
    firstAnswer (longestTable avoid s (tableOf k s)) = longest avoid k s := by
  induction s with
  | nil => exact ⟨rfl, rfl⟩
  | cons x s ih =>
    obtain ⟨ih, hd⟩ := ih
    constructor <;> simp [longestTable, tableOf, ih, hd, longest, firstAnswer_cons]

theorem zipWith_tableOf (f : Option Groups → Option Groups → Option Groups) (j k : Continuation)
    (s : List Char) :
    List.zipWith f (tableOf j s) (tableOf k s) = tableOf (fun s => f (j s) (k s)) s := by
  induction s with
  | nil => rfl
  | cons x s ih => simp [tableOf, ih]

/-- The table of an expression holds the answers of its evaluation. -/
theorem table_tableOf (e : Expr) (k : Continuation) (s : List Char) :
    e.table s (tableOf k s) = tableOf (e.eval k) s := by
  -- `k` is general, for what follows the first of two expressions is the second one.
  induction e generalizing k with
  | empty => rfl
  | char c => exact charTable_tableOf c k s
  | capture avoid greedy =>
    cases greedy
    · exact (shortestTable_tableOf avoid k s).1
    · exact (longestTable_tableOf avoid k s).1
  | optional e ih => simp only [Expr.table, ih, zipWith_tableOf]; rfl
  | seq a b iha ihb => simp only [Expr.table, ihb, iha]; rfl

/-- A run gives what the evaluation gives at the end of the text. -/
theorem run_eq_eval (e : Expr) (s : List Char) : e.run s = e.eval atEnd s := by
  simp [Expr.run, table_tableOf]

end PatternRouter
