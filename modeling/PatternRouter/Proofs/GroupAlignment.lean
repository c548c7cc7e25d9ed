import PatternRouter.Proofs.ExpressionGrammar
import PatternRouter.Proofs.PieceMatching

namespace PatternRouter

open Regex

/-- The slash in front of a node, if it is not the first. -/
def slashItem (first : Bool) : List Item := if first then [] else [.char '/']

/-- The items that are meant by a node behind so many captures. -/
def Node.items (first : Bool) (before : Nat) : Node → List Item
  | .literal text => slashItem first ++ text.toList.map .char
  | .named _ false => slashItem first ++ [captureOf (before + 1) (anyBut '/') false]
  | .named _ true => [optionally (slashItem first ++ [captureOf (before + 1) (anyBut '/') false])]
  | .rest => [optionally (slashItem first ++ [captureOf (before + 1) (anyBut '\n') true])]

/-- The items of each of some nodes behind so many captures. -/
def partsFrom (first : Bool) (before : Nat) : List Node → List (List Item)
  | [] => []
  | n :: ns => n.items first before :: partsFrom false (before + n.isCapture.toNat) ns

def writtenFrom (first : Bool) : List Node → List Char
  | [] => []
  | n :: ns => (Token.ofNode first n).flatMap Token.text ++ writtenFrom false ns

theorem toList_textOf (nodes : List Node) :
    (Expression.textOf nodes).toList = '^' :: writtenFrom true nodes ++ ['$'] := by
  have later : ∀ ns : List Node,
      (ns.flatMap (Token.ofNode false)).flatMap Token.text = writtenFrom false ns := by
    intro ns
    induction ns with
    | nil => rfl
    | cons n ns ih => rw [List.flatMap_cons, List.flatMap_append, ih, writtenFrom]
  rw [Expression.textOf, String.toList_ofList, Token.write]
  cases nodes with
  | nil => rfl
  | cons n ns => rw [Token.ofNodes, List.flatMap_append, later, writtenFrom]

theorem writtenFrom_append (first : Bool) (ns ms : List Node) :
    writtenFrom first (ns ++ ms) =
      writtenFrom first ns ++ writtenFrom (first && ns.isEmpty) ms := by
  induction ns generalizing first with
  | nil => rw [List.isEmpty_nil, Bool.and_true]; rfl
  | cons n ns ih =>
    rw [List.cons_append, writtenFrom, writtenFrom, ih, List.append_assoc, List.isEmpty_cons,
      Bool.false_and, Bool.and_false]

theorem head?_writtenFrom (first : Bool) (ns : List Node) {s : List Char} (h : s.head? ≠ some '?') :
    (writtenFrom first ns ++ s).head? ≠ some '?' := by
  induction ns generalizing first with
  | nil => exact h
  | cons n ns ih =>
    rw [writtenFrom, List.append_assoc]
    cases Token.ofNode first n with
    | nil => exact ih false
    | cons t ts =>
      rw [List.flatMap_cons, List.append_assoc]
      exact head?_text t _

theorem capturesOf_chars (cs : List Char) : capturesOf (cs.map Item.char) = [] := by
  induction cs with
  | nil => rfl
  | cons c cs ih => exact ih

/-- A node has a capture just if it captures anything, and that has the next number. -/
theorem Node.capturesOf_items (first : Bool) (before : Nat) (n : Node) :
    capturesOf (n.items first before) = if n.isCapture then [before + 1] else [] := by
  cases n with
  | literal text =>
    rw [Node.items, capturesOf_append, capturesOf_chars]
    cases first <;> rfl
  | named name optional => cases optional <;> cases first <;> rfl
  | rest => cases first <;> rfl

theorem countP_isCapture_cons (n : Node) (ns : List Node) :
    (n :: ns).countP Node.isCapture = n.isCapture.toNat + ns.countP Node.isCapture := by
  rw [List.countP_cons, Nat.add_comm]
  cases n.isCapture <;> rfl

theorem capturesOf_partsFrom (first : Bool) (before : Nat) (ns : List Node) :
    capturesOf (partsFrom first before ns).flatten =
      List.range' (before + 1) (ns.countP Node.isCapture) := by
  induction ns generalizing first before with
  | nil => rfl
  | cons n ns ih =>
    rw [partsFrom, List.flatten_cons, capturesOf_append, Node.capturesOf_items, ih,
      countP_isCapture_cons]
    cases n.isCapture
    · rw [Bool.toNat_false, Nat.add_zero, Nat.zero_add]; rfl
    · rw [Bool.toNat_true, Nat.add_comm 1, List.range'_succ]; rfl

namespace Regex

section

variable {v : Vocabulary} {r : Reading}

theorem steps_slash (plain : r.IsPlain) (first : Bool) (s : List Char) :
    Steps v (r, (if first then [] else [Token.char '/']).flatMap Token.text ++ s)
      (r.add (slashItem first) 0, s) := by
  cases first
  · exact steps_text plain ['/'] s
  · exact .refl

/-- A capture may be left out together with its slash. -/
theorem steps_optionally (plain : r.IsPlain) (first : Bool) {t : Token} {i : Item} {greedy : Bool}
    (capture : ∀ {r : Reading}, r.IsPlain → ∀ s,
      Steps v (r, t.text ++ s) (r.add [captureOf (r.captures + 1) i greedy] 1, s))
    {s : List Char} (h : s.head? ≠ some '?') :
    Steps v (r, (Token.groupStart :: (if first then [] else [Token.char '/']) ++
        [t, Token.groupEnd]).flatMap Token.text ++ s)
      (r.add [optionally (slashItem first ++ [captureOf (r.captures + 1) i greedy])] 1, s) := by
  have inside := steps_append (steps_slash plain.openPlain first _)
    (capture (plain.openPlain.add (slashItem first) 0) (Token.groupEnd.text ++ s))
  simp only [List.cons_append, List.flatMap_cons, List.flatMap_append, List.flatMap_nil,
    List.append_assoc, List.append_nil]
  exact (steps_groupStart plain _).trans (inside.trans (steps_groupEnd plain _ _ h))

theorem steps_node (plain : r.IsPlain) (first : Bool) (n : Node) {s : List Char}
    (h : s.head? ≠ some '?') :
    Steps v (r, (Token.ofNode first n).flatMap Token.text ++ s)
      (r.add (n.items first r.captures) n.isCapture.toNat, s) := by
  have plain' := plain.add (slashItem first) 0
  cases n with
  | literal text =>
    rw [Token.ofNode, List.flatMap_append, List.append_assoc]
    exact steps_append (steps_slash plain first _) (steps_text plain' text.toList s)
  | named name optional =>
    cases optional
    · rw [Token.ofNode, List.flatMap_append, List.append_assoc]
      exact steps_append (steps_slash plain first _) (steps_segment plain' s)
    · exact steps_optionally plain first steps_segment h
  | rest => exact steps_optionally plain first steps_remainder h

/-- What is written for some nodes is read as the items of one node after the other. -/
theorem steps_nodes (plain : r.IsPlain) (first : Bool) (ns : List Node) {s : List Char}
    (h : s.head? ≠ some '?') :
    Steps v (r, writtenFrom first ns ++ s)
      (r.add (partsFrom first r.captures ns).flatten (ns.countP Node.isCapture), s) := by
  -- By induction on the nodes; the reading takes the number of captures before each node along.
  induction ns generalizing r first with
  | nil => exact .refl
  | cons n ns ih =>
    rw [writtenFrom, List.append_assoc, countP_isCapture_cons]
    exact steps_append (steps_node plain first n (head?_writtenFrom false ns h))
      (ih (plain.add _ _) false)

end

end Regex

namespace Expr

def items (before : Nat) : Expr → List Item
  | empty => []
  | char c => [.char c]
  | capture avoid greedy => [captureOf (before + 1) (anyBut avoid) greedy]
  | optional e => [optionally (e.items before)]
  | seq a b => a.items before ++ b.items (before + a.groups)

theorem addText_items (e : Expr) (s : List Char) (before : Nat) :
    (e.addText s).groups = e.groups ∧
      (e.addText s).items before = e.items before ++ s.map .char := by
  induction s generalizing e with
  | nil => exact ⟨rfl, (List.append_nil _).symm⟩
  | cons c s ih =>
    obtain ⟨groups, items⟩ := ih (seq e (char c))
    refine ⟨groups, items.trans ?_⟩
    rw [Expr.items, Expr.items, List.append_assoc]
    rfl

theorem addSlash_items (e : Expr) (first : Bool) (before : Nat) :
    (e.addSlash first).groups = e.groups ∧
      (e.addSlash first).items before = e.items before ++ slashItem first := by
  cases first
  · exact ⟨rfl, rfl⟩
  · exact ⟨rfl, (List.append_nil _).symm⟩

theorem addNode_items (e : Expr) (first : Bool) (n : Node) (before : Nat) :
    (e.addNode first n).groups = e.groups + n.isCapture.toNat ∧
      (e.addNode first n).items before = e.items before ++ n.items first (before + e.groups) := by
  obtain ⟨groups, items⟩ := e.addSlash_items first before
  cases n with
  | literal text =>
    obtain ⟨groups', items'⟩ := (e.addSlash first).addText_items text.toList before
    refine ⟨groups'.trans groups, items'.trans ?_⟩
    rw [items, Node.items, List.append_assoc]
  | named name optional =>
    cases optional
    · refine ⟨congrArg (· + 1) groups, ?_⟩
      rw [addNode, Expr.items, items, groups, Node.items, List.append_assoc]
      rfl
    · cases first <;> exact ⟨rfl, rfl⟩
  | rest => cases first <;> exact ⟨rfl, rfl⟩

theorem items_ofNodes (nodes : List Node) :
    (ofNodes nodes).items 0 = (partsFrom true 0 nodes).flatten := by
  have later : ∀ (ns : List Node) (e : Expr), (ns.foldl (addNode false) e).items 0 =
      e.items 0 ++ (partsFrom false e.groups ns).flatten := by
    intro ns
    induction ns with
    | nil => exact fun e => (List.append_nil _).symm
    | cons n ns ih =>
      intro e
      -- The nodes are added on the left, so the expression so far is kept general.
      obtain ⟨groups, items⟩ := e.addNode_items false n 0
      rw [List.foldl_cons, ih, items, groups, partsFrom, List.flatten_cons, List.append_assoc,
        Nat.zero_add]
  cases nodes with
  | nil => rfl
  | cons n ns =>
    obtain ⟨groups, items⟩ := empty.addNode_items true n 0
    rw [ofNodes, later, items, groups, partsFrom, List.flatten_cons]
    rfl

end Expr

/-- Whether an expression and its captures are those of a list of nodes. -/
structure GroupsAligned (v : Vocabulary) (nodes : List Node) (x : Expression) : Prop where
  written : x.text.toList = '^' :: writtenFrom true nodes ++ ['$']
  /-- The text is a regular expression, made of the items of the nodes in order, and no other. -/
  reads : ∀ branches, Reads v x.text.toList branches ↔
    branches = [.start :: (partsFrom true 0 nodes).flatten ++ [.finish]]
  /-- What is run is what is read. -/
  runs : x.tree.items 0 = (partsFrom true 0 nodes).flatten
  /-- There are as many captures as nodes that capture. -/
  numbered : capturesOf (partsFrom true 0 nodes).flatten =
    List.range' 1 (nodes.countP Node.isCapture)
  /-- A node that captures has the capture of its number in what is written for the node: reading
  comes there outside of all groups with as many captures as nodes that capture, and goes on with
  the items of the node. -/
  placed : ∀ before n after, nodes = before ++ n :: after →
    let own := (Token.ofNode before.isEmpty n).flatMap Token.text
    let rest := writtenFrom false after ++ ['$']
    let number := before.countP Node.isCapture
    let items := n.items before.isEmpty number
    ∃ r : Reading, r.outer = [] ∧ r.captures = number ∧
      Steps v (.init, x.text.toList) (r, own ++ rest) ∧
      Steps v (r, own ++ rest) (r.add items n.isCapture.toNat, rest) ∧
      capturesOf items = if n.isCapture then [number + 1] else []
  /-- A match cuts the text into pieces that the nodes take, a literal nothing but itself in any
  letter case. It has one group for each node that captures, and binds to the name of the node just
  the piece of the node. -/
  matched : ∀ path gs, x.capture? path = some gs → gs.length = nodes.countP Node.isCapture ∧
    ∃ os, List.Forall₂ Node.Takes nodes os ∧ path.toList = wholeOf os ∧
      gs = (bindPieces nodes os).values.map (·.map String.ofList) ∧
      ∀ source shape, Pattern.capture? ⟨source, nodes, x, shape⟩ path =
        some (bindPieces nodes os).params
  /-- Pieces that the nodes can take make a match. -/
  complete : ∀ os, List.Forall₂ Node.Takes nodes os →
    (x.capture? (String.ofList (wholeOf os))).isSome = true

/-- Reading comes to each node outside of all groups, with the items of the nodes before. -/
theorem steps_before (v : Vocabulary) (before ns : List Node) :
    Steps v (.init, (Expression.textOf (before ++ ns)).toList)
      (Reading.init.add (.start :: (partsFrom true 0 before).flatten)
        (before.countP Node.isCapture), writtenFrom before.isEmpty ns ++ ['$']) := by
  have ended := head?_writtenFrom before.isEmpty ns (s := ['$']) (ne_of_beq_false rfl)
  have steps := steps_nodes (v := v) (Reading.isPlain_init.add [.start] 0) true before ended
  rw [Reading.add_add, Nat.zero_add] at steps
  rw [toList_textOf, writtenFrom_append, Bool.true_and, List.cons_append, List.append_assoc]
  exact .head rfl steps

theorem finish?_init_add (is : List Item) (n : Nat) :
    (Reading.init.add is n).finish? = some [is] := by
  simp [Reading.finish?, Reading.init, Reading.add, Level.body, Level.begun]

theorem reads_textOf (v : Vocabulary) (nodes : List Node) {branches : List (List Item)} :
    Reads v (Expression.textOf nodes).toList branches ↔
      branches = [.start :: (partsFrom true 0 nodes).flatten ++ [.finish]] := by
  let r := Reading.init.add (.start :: (partsFrom true 0 nodes).flatten)
    (nodes.countP Node.isCapture)
  have steps := steps_before v nodes []
  rw [List.append_nil] at steps
  have all : Steps v (.init, (Expression.textOf nodes).toList) (r.add [.finish] 0, []) :=
    steps.tail rfl
  rw [reads_iff_of_steps all rfl, Reading.add_add, finish?_init_add, Option.some.injEq, eq_comm]

/-- Whatever nodes an expression is made for, only the limit on its size can have it refused, and
its captures are those of the nodes. -/
theorem groups_stay_aligned [SizeLimit] (v : Vocabulary) (nodes : List Node) :
    ∃ x, Expression.ofNodes nodes =
        (if SizeLimit.admits x.text then .ok x else .error .expressionRefused) ∧
      GroupsAligned v nodes x := by
  refine ⟨.build nodes, rfl, ?_⟩
  refine ⟨toList_textOf nodes, fun _ => reads_textOf v nodes, Expr.items_ofNodes nodes,
    capturesOf_partsFrom true 0 nodes, ?_, ?_, ?_⟩
  · rintro before n after rfl own rest number items
    -- The point is the one where the nodes before have been read.
    let r := Reading.init.add (.start :: (partsFrom true 0 before).flatten) number
    have captures : r.captures = number := Nat.zero_add number
    have ended := head?_writtenFrom false after (s := ['$']) (ne_of_beq_false rfl)
    have comes := steps_before v before (n :: after)
    have reads : Steps v (r, own ++ rest) (r.add (n.items before.isEmpty r.captures) _, rest) :=
      steps_node (Reading.isPlain_init.add _ _) before.isEmpty n ended
    rw [writtenFrom, List.append_assoc] at comes
    rw [captures] at reads
    exact ⟨r, rfl, captures, comes, reads, n.capturesOf_items before.isEmpty number⟩
  · intro path gs captured
    rw [Expression.capture?_build] at captured
    obtain ⟨groups, run, rfl⟩ := Option.map_eq_some_iff.1 captured
    obtain ⟨os, takes, whole, rfl⟩ := takes_of_runNodes run
    have length : (bindPieces nodes os).values.length = nodes.countP Node.isCapture := by
      rw [Bindings.values, List.length_map, length_bindPieces takes]
    refine ⟨by rw [List.length_map, length], os, takes, whole, rfl, ?_⟩
    intro source shape
    have bound := bindGroups_values (map_fst_bindPieces takes) Params.empty
    rw [Pattern.capture?, Expression.capture?_build, run, Option.map_some, Option.map_some, bound]
    rfl
  · intro os takes
    rw [Expression.capture?_build, Option.isSome_map, String.toList_ofList]
    exact runNodes_isSome_of_takes takes

/-- The words that expressions of patterns use, and groups and sets of the simplest kind. -/
def Regex.Vocabulary.basic : Vocabulary where
  escape _ _ := none
  set _ s :=
    match s with
    | '^' :: c :: ']' :: s => some ((· != c), s)
    | _ => none
  bounds _ _ := none
  opening _ s :=
    match s.span Char.isAlpha with
    | (flags, ':' :: s) => some (.plain flags, s)
    | (flags, ')' :: s) => if flags.isEmpty then none else some (.flags flags, s)
    | _ => none
  set_noSlash _ := rfl
  opening_plain _ := rfl

section

open Unlimited

/-- In a literal flags are characters as any others. -/
theorem groups_stay_aligned_flags :
    ∃ x, Expression.ofNodes [.literal "(?x) a|b", .named "id" true, .rest] = .ok x ∧
      x.text = "^\\(\\?x\\) a\\|b(?:/([^/]+?))?(?:/(.+))?$" ∧
      GroupsAligned .basic [.literal "(?x) a|b", .named "id" true, .rest] x := by
  obtain ⟨x, made, aligned⟩ :=
    groups_stay_aligned .basic [.literal "(?x) a|b", .named "id" true, .rest]
  refine ⟨x, made, ?_, aligned⟩
  apply String.toList_injective
  rw [aligned.written]
  decide

end

/-- Without a backslash they would change how all that follows is read. -/
example : Reads .basic "(?x) a|b".toList [[.flags ['x'], .char 'a'], [.char 'b']] :=
  ⟨_, [], .head rfl (.head rfl (.head rfl (.single rfl))), rfl, rfl⟩

end PatternRouter
