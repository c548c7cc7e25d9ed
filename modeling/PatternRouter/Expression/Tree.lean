import PatternRouter.Expression.Token

namespace PatternRouter

/-- An expression without its anchors. -/
inductive Expr where
  | empty
  | char (c : Char)
  /-- A capture of one or more characters other than `avoid`, the longest first if `greedy`, else
  the shortest first. -/
  | capture (avoid : Char) (greedy : Bool)
  /-- The expression, or failing that nothing. -/
  | optional (e : Expr)
  | seq (a b : Expr)
  deriving DecidableEq, Repr

namespace Expr

def groups : Expr → Nat
  | empty => 0
  | char _ => 0
  | capture _ _ => 1
  | optional e => e.groups
  | seq a b => a.groups + b.groups

/-- The expression of a token list: `outers` holds what stands before each group that is still
open, the innermost first, and `e` what has been read of the innermost. -/
def assemble? (outers : List Expr) (e : Expr) : List Token → Option Expr
  | [] => if outers.isEmpty then some e else none
  | .char c :: ts => assemble? outers (seq e (char c)) ts
  | .segment :: ts => assemble? outers (seq e (capture '/' false)) ts
  | .remainder :: ts => assemble? outers (seq e (capture '\n' true)) ts
  | .groupStart :: ts => assemble? (e :: outers) empty ts
  | .groupEnd :: ts =>
    match outers with
    | [] => none
    | outer :: outers => assemble? outers (seq outer (optional e)) ts

def read? (s : List Char) : Option Expr := (Token.read? s).bind (assemble? [] empty)

/-- The expression and then the slash in front of a node that is not the first. -/
def addSlash (first : Bool) (e : Expr) : Expr := if first then e else seq e (char '/')

def addText (e : Expr) (s : List Char) : Expr := s.foldl (fun e c => seq e (char c)) e

def addNode (first : Bool) (e : Expr) : Node → Expr
  | .literal text => (e.addSlash first).addText text.toList
  | .named _ false => seq (e.addSlash first) (capture '/' false)
  | .named _ true => seq e (optional (seq (empty.addSlash first) (capture '/' false)))
  | .rest => seq e (optional (seq (empty.addSlash first) (capture '\n' true)))

def ofNodes : List Node → Expr
  | [] => empty
  | n :: ns => ns.foldl (addNode false) (empty.addNode true n)

theorem assemble?_slash (outers : List Expr) (e : Expr) (first : Bool) (ts : List Token) :
    assemble? outers e ((if first then [] else [.char '/']) ++ ts) =
      assemble? outers (e.addSlash first) ts := by
  cases first <;> rfl

theorem assemble?_text (outers : List Expr) (e : Expr) (s : List Char) (ts : List Token) :
    assemble? outers e (s.map Token.char ++ ts) = assemble? outers (e.addText s) ts := by
  induction s generalizing e with
  | nil => rfl
  | cons c s ih => exact ih (seq e (char c))

theorem assemble?_ofNode (outers : List Expr) (e : Expr) (first : Bool) (n : Node)
    (ts : List Token) :
    assemble? outers e (Token.ofNode first n ++ ts) = assemble? outers (e.addNode first n) ts := by
  cases n with
  | literal text =>
    simp only [Token.ofNode, List.append_assoc]
    rw [assemble?_slash, assemble?_text]
    rfl
  | named name optional =>
    cases optional
    · simp only [Token.ofNode, List.append_assoc]
      rw [assemble?_slash]
      rfl
    · simp only [Token.ofNode, List.append_assoc, List.cons_append]
      rw [assemble?, assemble?_slash]
      rfl
  | rest =>
    simp only [Token.ofNode, List.append_assoc, List.cons_append]
    rw [assemble?, assemble?_slash]
    rfl

theorem assemble?_ofNodes (nodes : List Node) :
    assemble? [] empty (Token.ofNodes nodes) = some (ofNodes nodes) := by
  have tail : ∀ (e : Expr) (ns : List Node),
      assemble? [] e (ns.flatMap (Token.ofNode false)) = some (ns.foldl (addNode false) e) := by
    intro e ns
    induction ns generalizing e with
    | nil => rfl
    | cons n ns ih => rw [List.flatMap_cons, assemble?_ofNode, ih, List.foldl_cons]
  cases nodes with
  | nil => rfl
  | cons n ns => rw [Token.ofNodes, assemble?_ofNode, tail, ofNodes]

/-- What is written for a list of nodes is read back as the expression of the nodes. -/
theorem read?_write (nodes : List Node) :
    read? (Token.write (Token.ofNodes nodes)) = some (ofNodes nodes) := by
  rw [read?, Token.read?_write, Option.bind_some, assemble?_ofNodes]

end Expr

end PatternRouter
