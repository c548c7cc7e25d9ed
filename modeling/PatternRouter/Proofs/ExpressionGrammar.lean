import Mathlib.Logic.Relation
import PatternRouter.Expression.Token
import PatternRouter.Text.Blank

/-!
The grammar of regular expressions. A text is read from its start, one item at a time; groups that
are open wait on a stack, and captures are numbered in the order of their opening brackets. What
stands in square and curly brackets, behind `(?` and behind a backslash has a grammar of its own,
which is left open but for two words.
-/

namespace PatternRouter

namespace Regex

/-- What a group is for. -/
inductive Mark where
  /-- A capture, with its number and its name if it has one. -/
  | capture (number : Nat) (name : Option (List Char))
  /-- Grouping alone, with the flags that hold inside. -/
  | plain (flags : List Char)

/-- The parts of a regular expression. -/
inductive Item where
  /-- The character itself, or any letter case of it where the flags say so. -/
  | char (c : Char)
  /-- Any character but a line feed, or any at all where the flags say so. -/
  | dot
  | oneOf (accepts : Char → Bool)
  | start
  | finish
  /-- What else has a name, such as the border of a word. -/
  | special (name : List Char)
  /-- Flags that hold up to the end of the group. -/
  | flags (flags : List Char)
  /-- An item several times, as often as can be first if `greedy`, else as seldom as can be. -/
  | times (item : Item) (least : Nat) (most : Option Nat) (greedy : Bool)
  | group (mark : Mark) (branches : List (List Item))

mutual

/-- The numbers of the captures in an item, in the order of their opening brackets. -/
def Item.captures : Item → List Nat
  | .times item _ _ _ => item.captures
  | .group (.capture number _) branches => number :: capturesOfBranches branches
  | .group (.plain _) branches => capturesOfBranches branches
  | _ => []

def capturesOf : List Item → List Nat
  | [] => []
  | i :: is => i.captures ++ capturesOf is

def capturesOfBranches : List (List Item) → List Nat
  | [] => []
  | b :: bs => capturesOf b ++ capturesOfBranches bs

end

def captureOf (number : Nat) (i : Item) (greedy : Bool) : Item :=
  .group (.capture number none) [[.times i 1 none greedy]]

def optionally (is : List Item) : Item := .times (.group (.plain []) [is]) 0 (some 1) true

def anyBut (c : Char) : Item := if c = '\n' then .dot else .oneOf (· != c)

/-- What a group begins with behind `(?`. -/
inductive Opening where
  | plain (flags : List Char)
  | capture (name : List Char)
  | flags (flags : List Char)

/-- The readers of what has a grammar of its own. Each takes its part off the front of a text and
gives the rest, and is told whether blanks are left out. All that an expression of a pattern needs
of them is the set without the slash and the group without flags. -/
structure Vocabulary where
  /-- What a backslash and what follows stand for, where no punctuation follows. -/
  escape : Bool → List Char → Option (Item × List Char)
  set : Bool → List Char → Option ((Char → Bool) × List Char)
  bounds : Bool → List Char → Option ((Nat × Option Nat) × List Char)
  /-- How a group begins, behind the opening bracket and the question mark. -/
  opening : Bool → List Char → Option (Opening × List Char)
  set_noSlash : ∀ s, set false ('^' :: '/' :: ']' :: s) = some ((· != '/'), s)
  opening_plain : ∀ s, opening false (':' :: s) = some (.plain [], s)

/-- What is left of a text behind blanks and comments; `comment` tells that one has begun. -/
def afterBlanks (comment : Bool) : List Char → List Char
  | [] => []
  | c :: s =>
    if comment then afterBlanks (c != '\n') s
    else if c = '#' then afterBlanks true s
    else if isBlank c then afterBlanks false s
    else c :: s

/-- Whether blanks are left out under these flags; behind a minus a flag is taken back. -/
def verboseUnder (flags : List Char) (verbose : Bool) : Bool :=
  if (flags.takeWhile (· != '-')).contains 'x' then true
  else verbose && !flags.contains 'x'

/-- Whether a character stands for itself behind a backslash. -/
def isPunctuation (c : Char) : Bool :=
  '!' ≤ c && c ≤ '~' && !c.isAlphanum && c != '<' && c != '>'

/-- A group that has been opened, or the whole expression, as far as it has been read. -/
structure Level where
  mark : Mark
  verbose : Bool
  /-- The alternatives that are complete, the last one first. -/
  branches : List (List Item)
  /-- The items of the alternative that is being read, the last one first. -/
  items : List Item

namespace Level

def begun (mark : Mark) (verbose : Bool) : Level := ⟨mark, verbose, [], []⟩

def push (l : Level) (i : Item) : Level := { l with items := i :: l.items }

def body (l : Level) : List (List Item) := (l.items.reverse :: l.branches).reverse

def skip (l : Level) (s : List Char) : List Char := if l.verbose then afterBlanks false s else s

end Level

/-- An expression as far as it has been read. -/
structure Reading where
  /-- The groups around the one that is being read, the innermost first. -/
  outer : List Level
  here : Level
  captures : Nat
  names : List (List Char)

namespace Reading

def init : Reading := ⟨[], .begun (.plain []) false, 0, []⟩

def push (r : Reading) (i : Item) : Reading := { r with here := r.here.push i }

def openPlain (r : Reading) (flags : List Char) : Reading :=
  { r with
    outer := r.here :: r.outer
    here := .begun (.plain flags) (verboseUnder flags r.here.verbose) }

def openCapture (r : Reading) (name : Option (List Char)) : Reading where
  outer := r.here :: r.outer
  here := .begun (.capture (r.captures + 1) name) r.here.verbose
  captures := r.captures + 1
  names := name.toList ++ r.names

def setFlags (r : Reading) (flags : List Char) : Reading :=
  { r with
    here := { r.here.push (.flags flags) with verbose := verboseUnder flags r.here.verbose } }

/-- Starts what begins with `(?`; no two captures may have one name. -/
def begin? (r : Reading) : Opening → Option Reading
  | .plain flags => some (r.openPlain flags)
  | .capture name => if r.names.contains name then none else some (r.openCapture (some name))
  | .flags flags => some (r.setFlags flags)

def close? (r : Reading) : Option Reading :=
  match r.outer with
  | [] => none
  | l :: ls => some { r with outer := ls, here := l.push (.group r.here.mark r.here.body) }

def alternate (r : Reading) : Reading :=
  { r with
    here := { r.here with branches := r.here.items.reverse :: r.here.branches, items := [] } }

/-- Lets the last item occur so often; there has to be one, and flags cannot be repeated. -/
def repeat? (r : Reading) (least : Nat) (most : Option Nat) (greedy : Bool) : Option Reading :=
  match r.here.items with
  | [] => none
  | .flags _ :: _ => none
  | i :: is => some { r with here := { r.here with items := .times i least most greedy :: is } }

/-- Repeats the last item, the fewest times first if a question mark follows. -/
def repeatThen? (r : Reading) (least : Nat) (most : Option Nat) :
    List Char → Option (Reading × List Char)
  | '?' :: s => (r.repeat? least most false).map (·, s)
  | s => (r.repeat? least most true).map (·, s)

/-- Reads the item that starts with a character; gives the rest of the text behind the item. -/
def item? (v : Vocabulary) (r : Reading) (c : Char) (s : List Char) :
    Option (Reading × List Char) :=
  match c with
  | '(' =>
    match r.here.skip s with
    | '?' :: s => do
      let (o, s) ← v.opening r.here.verbose s
      return (← r.begin? o, s)
    | s => some (r.openCapture none, s)
  | ')' => r.close?.map (·, s)
  | '|' => some (r.alternate, s)
  | '?' => r.repeatThen? 0 (some 1) s
  | '*' => r.repeatThen? 0 none s
  | '+' => r.repeatThen? 1 none s
  | '\x7b' => do
    let ((least, most), s) ← v.bounds r.here.verbose s
    r.repeatThen? least most s
  | '[' => do
    let (accepts, s) ← v.set r.here.verbose s
    return (r.push (.oneOf accepts), s)
  | '.' => some (r.push .dot, s)
  | '^' => some (r.push .start, s)
  | '$' => some (r.push .finish, s)
  | '\\' =>
    match s with
    | [] => none
    | d :: t =>
      if isPunctuation d then some (r.push (.char d), t)
      else do
        let (i, s) ← v.escape r.here.verbose s
        return (r.push i, s)
  | c => some (r.push (.char c), s)

def next? (v : Vocabulary) (r : Reading) (s : List Char) : Option (Reading × List Char) :=
  match r.here.skip s with
  | [] => none
  | c :: s => r.item? v c s

/-- The alternatives of the whole expression, if no group is open. -/
def finish? (r : Reading) : Option (List (List Item)) :=
  if r.outer.isEmpty then some r.here.body else none

/-- Whether blanks count as other characters do. -/
def IsPlain (r : Reading) : Prop := r.here.verbose = false

def add (r : Reading) (is : List Item) (captures : Nat) : Reading :=
  { r with
    here := { r.here with items := is.reverse ++ r.here.items }
    captures := r.captures + captures }

theorem add_add (r : Reading) (is js : List Item) (m n : Nat) :
    (r.add is m).add js n = r.add (is ++ js) (m + n) := by
  simp [add, Nat.add_assoc]

theorem isPlain_init : init.IsPlain := rfl

namespace IsPlain

variable {r : Reading}

theorem add (plain : r.IsPlain) (is : List Item) (n : Nat) : (r.add is n).IsPlain := plain

theorem openCapture (plain : r.IsPlain) (name : Option (List Char)) :
    (r.openCapture name).IsPlain := plain

theorem openPlain (plain : r.IsPlain) : (r.openPlain []).IsPlain := by
  change verboseUnder [] r.here.verbose = false
  rw [plain]
  rfl

end IsPlain

end Reading

/-- Reading goes on from one point of a text to another. -/
abbrev Steps (v : Vocabulary) : Reading × List Char → Reading × List Char → Prop :=
  Relation.ReflTransGen fun x y => x.1.next? v x.2 = some y

/-- Whether a text is an expression with these alternatives. -/
def Reads (v : Vocabulary) (text : List Char) (branches : List (List Item)) : Prop :=
  ∃ r rest, Steps v (.init, text) (r, rest) ∧ r.here.skip rest = [] ∧ r.finish? = some branches

theorem capturesOf_append (is js : List Item) :
    capturesOf (is ++ js) = capturesOf is ++ capturesOf js := by
  induction is with
  | nil => rfl
  | cons i is ih => rw [List.cons_append, capturesOf, capturesOf, ih, List.append_assoc]

section

variable {v : Vocabulary} {r : Reading}

theorem next?_eq_none {s : List Char} (h : r.here.skip s = []) : r.next? v s = none := by
  rw [Reading.next?, h]

theorem next?_rightUnique (v : Vocabulary) :
    Relator.RightUnique fun x y : Reading × List Char => x.1.next? v x.2 = some y := by
  intro x y z first second
  exact Option.some.inj (first.symm.trans second)

theorem eq_of_steps_of_ended {x y : Reading × List Char} (steps : Steps v x y)
    (ended : x.1.here.skip x.2 = []) : x = y := by
  rcases steps.cases_head with same | ⟨z, step, -⟩
  · exact same
  · rw [next?_eq_none ended] at step
    cases step

/-- A text is read in one way only: where the steps end is what it is. -/
theorem reads_iff_of_steps {text rest : List Char} (steps : Steps v (.init, text) (r, rest))
    (ended : r.here.skip rest = []) {branches : List (List Item)} :
    Reads v text branches ↔ r.finish? = some branches := by
  constructor
  · rintro ⟨q, t, others, ended', finished⟩
    -- Of two ways through a text one goes on from where the other has come.
    have same : (r, rest) = (q, t) := by
      rcases steps.total_of_right_unique (next?_rightUnique v) others with more | more
      · exact eq_of_steps_of_ended more ended
      · exact (eq_of_steps_of_ended more ended').symm
    obtain ⟨rfl, rfl⟩ := Prod.mk.inj same
    exact finished
  · intro finished
    exact ⟨r, rest, steps, ended, finished⟩

theorem next?_cons (plain : r.IsPlain) (c : Char) (s : List Char) :
    r.next? v (c :: s) = r.item? v c s := by
  rw [Reading.next?, Level.skip, plain]
  rfl

theorem item?_char {c : Char} (h : c ∉ activeChars) (s : List Char) :
    r.item? v c s = some (r.add [.char c] 0, s) := by
  rw [Reading.item?]
  · rfl
  all_goals
    rintro rfl
    exact h (by decide)

theorem item?_escaped {c : Char} (h : c ∈ escapedChars) (s : List Char) :
    r.item? v '\\' (c :: s) = some (r.add [.char c] 0, s) := by
  have all : escapedChars.all isPunctuation = true := by decide
  rw [Reading.item?, if_pos (List.all_eq_true.1 all c h)]
  rfl

theorem repeatThen?_greedy {least : Nat} {most : Option Nat} {s : List Char}
    (h : s.head? ≠ some '?') :
    r.repeatThen? least most s = (r.repeat? least most true).map (·, s) := by
  rw [Reading.repeatThen?]
  rintro t rfl
  exact h rfl

theorem steps_append {s t u : List Char} {is js : List Item} {m n : Nat}
    (front : Steps v (r, s) (r.add is m, t))
    (back : Steps v (r.add is m, t) ((r.add is m).add js n, u)) :
    Steps v (r, s) (r.add (is ++ js) (m + n), u) := by
  rw [← Reading.add_add]
  exact front.trans back

/-- A character is read as itself in the way that it is written. -/
theorem steps_char (plain : r.IsPlain) (c : Char) (s : List Char) :
    Steps v (r, (Token.char c).text ++ s) (r.add [.char c] 0, s) := by
  apply Relation.ReflTransGen.single
  rw [Token.text]
  split
  · next escaped =>
    exact (next?_cons plain _ _).trans (item?_escaped (List.contains_iff_mem.1 escaped) s)
  · next unescaped =>
    have inactive : c ∉ activeChars := fun active =>
      unescaped (List.contains_iff_mem.2 (Token.mem_escapedChars_of_mem_activeChars active))
    exact (next?_cons plain _ _).trans (item?_char inactive s)

/-- A text is opaque: whatever its characters, they are read as themselves. -/
theorem steps_text (plain : r.IsPlain) (cs s : List Char) :
    Steps v (r, (cs.map Token.char).flatMap Token.text ++ s) (r.add (cs.map .char) 0, s) := by
  induction cs generalizing r with
  | nil => exact .refl
  | cons c cs ih =>
    rw [List.map_cons, List.flatMap_cons, List.append_assoc]
    exact steps_append (steps_char plain c _) (ih (plain.add _ _))

theorem steps_segment (plain : r.IsPlain) (s : List Char) :
    Steps v (r, Token.segment.text ++ s)
      (r.add [captureOf (r.captures + 1) (anyBut '/') false] 1, s) := by
  let inside := r.openCapture none
  have set_read : inside.next? v ('[' :: '^' :: '/' :: ']' :: '+' :: '?' :: ')' :: s) =
      some (inside.add [anyBut '/'] 0, '+' :: '?' :: ')' :: s) := by
    have plain' : inside.here.verbose = false := plain.openCapture none
    rw [next?_cons plain', Reading.item?, plain', v.set_noSlash]
    rfl
  -- The other steps, the opening bracket, how often and the closing bracket, need no vocabulary.
  obtain ⟨outer, ⟨mark, verbose, branches, items⟩, k, names⟩ := r
  obtain rfl : verbose = false := plain
  exact .head rfl (.head set_read (.head rfl (.single rfl)))

theorem steps_remainder (plain : r.IsPlain) (s : List Char) :
    Steps v (r, Token.remainder.text ++ s)
      (r.add [captureOf (r.captures + 1) (anyBut '\n') true] 1, s) := by
  obtain ⟨outer, ⟨mark, verbose, branches, items⟩, k, names⟩ := r
  obtain rfl : verbose = false := plain
  exact .head rfl (.head rfl (.head rfl (.single rfl)))

theorem steps_groupStart (plain : r.IsPlain) (s : List Char) :
    Steps v (r, Token.groupStart.text ++ s) (r.openPlain [], s) := by
  obtain ⟨outer, ⟨mark, verbose, branches, items⟩, k, names⟩ := r
  obtain rfl : verbose = false := plain
  refine .single ?_
  change (v.opening false (':' :: s)).bind _ = _
  rw [v.opening_plain]
  rfl

/-- The end of a group closes it and lets it be left out, unless another question mark follows. -/
theorem steps_groupEnd (plain : r.IsPlain) (is : List Item) (n : Nat) {s : List Char}
    (h : s.head? ≠ some '?') :
    Steps v ((r.openPlain []).add is n, Token.groupEnd.text ++ s) (r.add [optionally is] n, s) := by
  have body : [(is.reverse ++ []).reverse] = [is] := by rw [List.append_nil, List.reverse_reverse]
  have closed : ((r.openPlain []).add is n).next? v (')' :: '?' :: s) =
      some (r.add [.group (.plain []) [is]] n, '?' :: s) := by
    rw [next?_cons (plain.openPlain.add is n), ← body]
    rfl
  have left_out : (r.add [.group (.plain []) [is]] n).next? v ('?' :: s) =
      some (r.add [optionally is] n, s) :=
    (next?_cons (plain.add _ n) '?' s).trans (repeatThen?_greedy h)
  exact .head closed (.single left_out)

/-- No token starts with a question mark, which would change how often what is before it may
occur. -/
theorem head?_text (t : Token) (s : List Char) : (t.text ++ s).head? ≠ some '?' := by
  cases t with
  | char c =>
    rw [Token.text]
    split
    · exact ne_of_beq_false rfl
    · next unescaped =>
      intro same
      obtain rfl : c = '?' := Option.some.inj same
      exact unescaped (by decide)
  | segment => exact ne_of_beq_false rfl
  | remainder => exact ne_of_beq_false rfl
  | groupStart => exact ne_of_beq_false rfl
  | groupEnd => exact ne_of_beq_false rfl

end

end Regex

end PatternRouter
