import PatternRouter.Pattern.Basic

namespace PatternRouter

theorem Pattern.compile_of_parse [SizeLimit] {source : String} {nodes : List Node}
    (read : parse source = .ok nodes) :
    compile source = (Expression.ofNodes nodes).map fun x =>
      ⟨source, nodes, x, nodes.map Node.kind⟩ := by
  simp only [compile, read, bind, Except.bind, pure, Except.pure]
  cases Expression.ofNodes nodes <;> rfl

theorem Pattern.compile_of_parse_error [SizeLimit] {source : String} {e : RouteError}
    (refused : parse source = .error e) : compile source = .error e := by
  rw [compile, refused]
  rfl

theorem Pattern.compile_eq_ok [SizeLimit] {source : String} {p : Pattern} :
    Pattern.compile source = .ok p ↔
      ∃ nodes, Pattern.parse source = .ok nodes ∧
        SizeLimit.admits (Expression.textOf nodes) = true ∧
        p = ⟨source, nodes, .build nodes, nodes.map Node.kind⟩ := by
  simp only [compile, bind, Except.bind, pure, Except.pure]
  cases hn : parse source with
  | error e => simp
  | ok nodes =>
    simp only [Except.ok.injEq, exists_eq_left']
    cases hx : Expression.ofNodes nodes with
    | error e =>
      simp only [reduceCtorEq, false_iff, not_and]
      intro hc
      have ok := Expression.ofNodes_eq_ok.2 ⟨hc, rfl⟩
      rw [hx] at ok
      cases ok
    | ok x =>
      obtain ⟨hc, rfl⟩ := Expression.ofNodes_eq_ok.1 hx
      simp only [Except.ok.injEq, hc, true_and, eq_comm]

/-- What a slash, where one is due, and then `k` capture. -/
def slashThen (first : Bool) (k : Continuation) : Continuation :=
  if first then k else (Expr.char '/').eval k

def textThen : List Char → Continuation → Continuation
  | [], k => k
  | c :: s, k => (Expr.char c).eval (textThen s k)

def segmentThen (k : Continuation) : Continuation := fun s => (shortest '/' k s).map captured

def remainderThen (k : Continuation) : Continuation := fun s => (longest '\n' k s).map captured

/-- What `j` captures, else what `k` captures after one capture that took no part. -/
def orAbsent (j k : Continuation) : Continuation := fun s => (j s).or ((k s).map (none :: ·))

/-- What a node and then `k` capture. -/
def Node.eval (first : Bool) : Node → Continuation → Continuation
  | .literal text, k => slashThen first (textThen text.toList k)
  | .named _ false, k => slashThen first (segmentThen k)
  | .named _ true, k => orAbsent (slashThen first (segmentThen k)) k
  | .rest, k => orAbsent (slashThen first (remainderThen k)) k

/-- What nodes that are not the first and then the end of the text capture. -/
def evalNodes : List Node → Continuation
  | [] => atEnd
  | n :: ns => n.eval false (evalNodes ns)

/-- What a list of nodes captures from a whole text. -/
def runNodes : List Node → Continuation
  | [] => atEnd
  | n :: ns => n.eval true (evalNodes ns)

namespace Expr

theorem eval_addSlash (first : Bool) (e : Expr) (k : Continuation) :
    (e.addSlash first).eval k = e.eval (slashThen first k) := by
  cases first <;> rfl

theorem eval_addText (e : Expr) (s : List Char) (k : Continuation) :
    (e.addText s).eval k = e.eval (textThen s k) := by
  induction s generalizing e with
  | nil => rfl
  | cons c s ih => exact ih (seq e (char c))

theorem eval_optional_capture (first : Bool) (avoid : Char) (greedy : Bool) (k : Continuation) :
    (optional (seq (empty.addSlash first) (capture avoid greedy))).eval k =
      orAbsent (slashThen first ((capture avoid greedy).eval k)) k := by
  cases first <;> rfl

theorem eval_addNode (first : Bool) (e : Expr) (n : Node) (k : Continuation) :
    (e.addNode first n).eval k = e.eval (n.eval first k) := by
  cases n with
  | literal text => rw [addNode, eval_addText, eval_addSlash]; rfl
  | named name optional =>
    cases optional
    · rw [addNode, eval, eval_addSlash]; rfl
    · rw [addNode, eval, eval_optional_capture]; rfl
  | rest => rw [addNode, eval, eval_optional_capture]; rfl

/-- A run of the expression of some nodes is a run through the nodes. -/
theorem run_ofNodes (nodes : List Node) (s : List Char) :
    (ofNodes nodes).run s = runNodes nodes s := by
  have tail : ∀ (e : Expr) (ns : List Node),
      (ns.foldl (addNode false) e).eval atEnd = e.eval (evalNodes ns) := by
    intro e ns
    induction ns generalizing e with
    | nil => rfl
    | cons n ns ih => rw [List.foldl_cons, ih, eval_addNode]; rfl
  rw [run_eq_eval]
  cases nodes with
  | nil => rfl
  | cons n ns => rw [ofNodes, tail, eval_addNode]; rfl

end Expr

theorem Expression.capture?_build (nodes : List Node) (path : String) :
    (Expression.build nodes).capture? path =
      (runNodes nodes path.toList).map (·.map (·.map String.ofList)) := by
  rw [Expression.capture?, build, Expr.run_ofNodes]

theorem Pattern.capture?_of_compile [SizeLimit] {source : String} {p : Pattern}
    (hp : Pattern.compile source = .ok p) (path : String) :
    p.capture? path = (runNodes p.nodes path.toList).map fun gs =>
      bindGroups p.nodes (gs.map (·.map String.ofList)) Params.empty := by
  obtain ⟨nodes, -, -, rfl⟩ := Pattern.compile_eq_ok.1 hp
  simp only [Pattern.capture?, Expression.capture?_build, Option.map_map]
  rfl

theorem Pattern.parse_of_compile [SizeLimit] {source : String} {p : Pattern}
    (hp : Pattern.compile source = .ok p) : Pattern.parse source = .ok p.nodes := by
  obtain ⟨nodes, read, -, rfl⟩ := Pattern.compile_eq_ok.1 hp
  exact read

theorem Pattern.nodes_of_compile [SizeLimit] {source : String} {p : Pattern} {nodes : List Node}
    (hp : Pattern.compile source = .ok p) (read : Pattern.parse source = .ok nodes) :
    p.nodes = nodes :=
  Except.ok.inj ((Pattern.parse_of_compile hp).symm.trans read)

end PatternRouter
