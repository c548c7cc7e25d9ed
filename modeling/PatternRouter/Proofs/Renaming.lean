import Mathlib.Data.List.Forall2
import Mathlib.Data.Set.Function
import PatternRouter.Proofs.PatternPrinting
import PatternRouter.Proofs.RepeatedNames
import PatternRouter.Router.Table

namespace PatternRouter

/-- The new name of a parameter; the rest of the path keeps the name that is reserved for it. -/
def newName (f : String → String) (name : String) : String :=
  if name = restName then restName else f name

/-- The node with a new name. -/
def Node.rename (f : String → String) : Node → Node
  | literal text => literal text
  | named name optional => named (f name) optional
  | rest => rest

/-- The same values under the new names. -/
def Params.rename (f : String → String) (q : Params) : Params :=
  ⟨q.entries.map fun e => (newName f e.1, e.2)⟩

/-- Whether new names keep the parameters of some nodes apart and can be written in their places. -/
structure Renames (f : String → String) (nodes : List Node) : Prop where
  injective : ∀ name optional other optional', Node.named name optional ∈ nodes →
    Node.named other optional' ∈ nodes → f name = f other → name = other
  writable : ∀ name optional, Node.named name optional ∈ nodes →
    (f name).toList ≠ [] ∧ '/' ∉ (f name).toList ∧ f name ≠ restName ∧
      (optional = false → (f name).toList.getLast? ≠ some '?')

/-- Whether two patterns are read to the same nodes but for their names. -/
structure Renaming (f : String → String) (source other : String) : Prop where
  parse : ∃ nodes, Pattern.parse source = .ok nodes ∧ Renames f nodes ∧
    Pattern.parse other = .ok (nodes.map (Node.rename f))

section

variable {f : String → String}

namespace Node

theorem kind_rename (n : Node) : (n.rename f).kind = n.kind := by
  cases n with
  | literal text => rfl
  | named name optional => cases optional <;> rfl
  | rest => rfl

theorem parameter?_rename {n : Node} (named : n.parameter? = some restName → n = .rest) :
    (n.rename f).parameter? = n.parameter?.map (newName f) := by
  cases n with
  | literal text => rfl
  | named name optional =>
    have free : name ≠ restName := by
      rintro rfl
      cases named rfl
    rw [parameter?, Option.map_some, newName, if_neg free]
    rfl
  | rest => rfl

theorem wellFormed_rename {n : Node} {last : Bool} (h : n.WellFormed last)
    (renamed : ∀ name optional, n = .named name optional →
      (Node.named (f name) optional).WellFormed last) : (n.rename f).WellFormed last := by
  cases n with
  | literal text => exact h
  | named name optional => exact renamed name optional rfl
  | rest => exact h

end Node

/-- Nothing of a name gets into an expression. -/
theorem Token.ofNode_rename (first : Bool) (n : Node) :
    ofNode first (n.rename f) = ofNode first n := by
  cases n with
  | literal text => rfl
  | named name optional => cases optional <;> rfl
  | rest => rfl

theorem Expression.ofNodes_rename [SizeLimit] (nodes : List Node) :
    ofNodes (nodes.map (Node.rename f)) = ofNodes nodes := by
  have tokens : Token.ofNodes (nodes.map (Node.rename f)) = Token.ofNodes nodes := by
    cases nodes with
    | nil => rfl
    | cons n ns =>
      simp only [List.map_cons, Token.ofNodes, List.flatMap_map, Token.ofNode_rename]
  have text : textOf (nodes.map (Node.rename f)) = textOf nodes := by rw [textOf, tokens, textOf]
  have expression : build (nodes.map (Node.rename f)) = build nodes := eq_of_text text
  rw [ofNodes, ofNodes, text, expression]

theorem Renames.isPattern {nodes : List Node} (h : Renames f nodes) (pattern : IsPattern nodes) :
    IsPattern (nodes.map (Node.rename f)) := by
  have wellFormed : ∀ {ns : List Node}, ns ⊆ nodes → WellFormedNodes ns →
      WellFormedNodes (ns.map (Node.rename f)) := by
    intro ns sub hw
    induction ns with
    | nil => trivial
    | cons n ns ih =>
      rw [List.cons_subset] at sub
      refine ⟨?_, ih sub.2 hw.2⟩
      rw [List.isEmpty_map]
      apply Node.wellFormed_rename hw.1
      rintro name optional rfl
      exact h.writable name optional sub.1
  rcases pattern with rfl | ⟨ne, hw⟩
  · exact .inl rfl
  · exact .inr ⟨by simpa using ne, wellFormed (List.Subset.refl _) hw⟩

theorem Renames.renaming {source : String} {nodes : List Node} (h : Renames f nodes)
    (read : Pattern.parse source = .ok nodes) :
    Renaming f source (Pattern.print (nodes.map (Node.rename f))) :=
  ⟨nodes, read, h, parse_print (h.isPattern (root_or_wellFormed_of_parse read))⟩

end

namespace Params

variable {f : String → String} {known : Set String} {name : String}

theorem mem_map_fst_set {q : Params} {other : String} {o : Option String}
    (h : other ∈ (q.set name o).entries.map Prod.fst) :
    other = name ∨ other ∈ q.entries.map Prod.fst := by
  cases o with
  | none => exact .inr ((q.map_fst_unset_sublist name).subset h)
  | some value =>
    by_cases held : name ∈ q.entries.map Prod.fst
    · rw [map_fst_set_of_mem held] at h
      exact .inr h
    · rw [entries_set_of_notMem held, List.map_append, List.mem_append] at h
      exact h.symm.imp_left List.mem_singleton.1

theorem rename_overwrite (inj : Set.InjOn (newName f) known) (hn : name ∈ known) (value : String)
    {es : List (String × String)} (hes : ∀ e ∈ es, e.1 ∈ known) :
    (overwrite name value es).map (fun e => (newName f e.1, e.2)) =
      overwrite (newName f name) value (es.map fun e => (newName f e.1, e.2)) := by
  induction es with
  | nil => rfl
  | cons e es ih =>
    rw [List.forall_mem_cons] at hes
    have same : newName f e.1 = newName f name ↔ e.1 = name := inj.eq_iff hes.1 hn
    rw [List.map_cons, overwrite, overwrite]
    by_cases here : e.1 = name
    · rw [if_pos here, if_pos (same.2 here), List.map_cons]
    · rw [if_neg here, if_neg (mt same.1 here), List.map_cons, ih hes.2]

theorem rename_eraseP (inj : Set.InjOn (newName f) known) (hn : name ∈ known)
    {es : List (String × String)} (hes : ∀ e ∈ es, e.1 ∈ known) :
    (es.eraseP (·.1 == name)).map (fun e => (newName f e.1, e.2)) =
      (es.map fun e => (newName f e.1, e.2)).eraseP (·.1 == newName f name) := by
  induction es with
  | nil => rfl
  | cons e es ih =>
    rw [List.forall_mem_cons] at hes
    have same : newName f e.1 = newName f name ↔ e.1 = name := inj.eq_iff hes.1 hn
    by_cases here : e.1 = name
    · rw [List.eraseP_cons_of_pos (by simpa using here), List.map_cons,
        List.eraseP_cons_of_pos (by simpa using same.2 here)]
    · rw [List.eraseP_cons_of_neg (by simpa using here), List.map_cons, List.map_cons,
        List.eraseP_cons_of_neg (by simpa using mt same.1 here), ih hes.2]

theorem rename_set (inj : Set.InjOn (newName f) known) (hn : name ∈ known) {q : Params}
    (hq : ∀ other ∈ q.entries.map Prod.fst, other ∈ known) (o : Option String) :
    (q.set name o).rename f = (q.rename f).set (newName f name) o := by
  have entries : ∀ e ∈ q.entries, e.1 ∈ known := fun e he => hq _ (List.mem_map_of_mem he)
  cases o with
  | some value => exact congrArg Params.mk (rename_overwrite inj hn value entries)
  | none => exact congrArg Params.mk (rename_eraseP inj hn entries)

end Params

section

variable {f : String → String} {nodes : List Node}

/-- Whatever was captured before, the same is captured under the new names. -/
theorem bindGroups_rename {known : Set String} (inj : Set.InjOn (newName f) known)
    (hns : ∀ n ∈ nodes, ∀ name, n.parameter? = some name → name ∈ known)
    (named : ∀ n ∈ nodes, n.parameter? = some restName → n = .rest)
    (gs : List (Option String)) {q : Params}
    (hq : ∀ name ∈ q.entries.map Prod.fst, name ∈ known) :
    bindGroups (nodes.map (Node.rename f)) gs (q.rename f) = (bindGroups nodes gs q).rename f := by
  induction nodes generalizing gs q with
  | nil => rfl
  | cons n ns ih =>
    rw [List.forall_mem_cons] at hns named
    rw [List.map_cons, bindGroups, bindGroups, Node.parameter?_rename named.1]
    cases bears : n.parameter? with
    | none => exact ih hns.2 named.2 gs hq
    | some name =>
      have mem := hns.1 name bears
      simp only [Option.map_some, ← Params.rename_set inj mem hq]
      -- Only known names have values, so the new names are still apart.
      apply ih hns.2 named.2
      intro other set
      rcases Params.mem_map_fst_set set with rfl | held
      · exact mem
      · exact hq other held

/-- The names of all captures, the rest included, are kept apart. -/
theorem Renames.injOn_newName (h : Renames f nodes) :
    Set.InjOn (newName f) {name | ∃ n ∈ nodes, n.parameter? = some name} := by
  have renamed : ∀ {n name}, n ∈ nodes → n.parameter? = some name →
      name = restName ∨ ∃ optional, Node.named name optional ∈ nodes ∧ newName f name = f name := by
    intro n name hn bears
    by_cases reserved : name = restName
    · exact .inl reserved
    · cases n with
      | literal text => cases bears
      | named name' optional =>
        obtain rfl := Option.some.inj bears
        exact .inr ⟨optional, hn, if_neg reserved⟩
      | rest => exact absurd (Option.some.inj bears).symm reserved
  have other_than_rest : newName f restName = restName := if_pos rfl
  rintro a ⟨n, hn, bears⟩ b ⟨m, hm, bears'⟩ same
  rcases renamed hn bears with rfl | ⟨o, ha, new⟩ <;>
    rcases renamed hm bears' with rfl | ⟨o', hb, new'⟩
  · rfl
  · rw [other_than_rest, new'] at same
    exact absurd same.symm (h.writable b o' hb).2.2.1
  · rw [other_than_rest, new] at same
    exact absurd same (h.writable a o ha).2.2.1
  · rw [new, new'] at same
    exact h.injective a o b o' ha hb same

end

namespace Pattern

/-- What is the same about two compiled patterns that differ in names. -/
structure IsRenamed (f : String → String) (p q : Pattern) : Prop where
  nodes : q.nodes = p.nodes.map (Node.rename f)
  expression : q.expression = p.expression
  shape : q.shape = p.shape
  capture? : ∀ path, q.capture? path = (p.capture? path).map (Params.rename f)

end Pattern

section

variable [SizeLimit] {f : String → String} {source other : String}

theorem Renaming.compile_of_error (h : Renaming f source other) {e : RouteError}
    (refused : Pattern.compile source = .error e) : Pattern.compile other = .error e := by
  obtain ⟨nodes, read, -, read'⟩ := h.parse
  rw [Pattern.compile_of_parse read] at refused
  rw [Pattern.compile_of_parse read', Expression.ofNodes_rename]
  cases made : Expression.ofNodes nodes with
  | error e' =>
    rw [made] at refused
    obtain rfl := Except.error.inj refused
    rfl
  | ok x =>
    rw [made] at refused
    cases refused

theorem Renaming.compile_of_ok (h : Renaming f source other) {p : Pattern}
    (compiled : Pattern.compile source = .ok p) :
    ∃ q, Pattern.compile other = .ok q ∧ p.IsRenamed f q := by
  obtain ⟨nodes, read, names, read'⟩ := h.parse
  have named : ∀ n ∈ nodes, n.parameter? = some restName → n = .rest :=
    fun n hn => eq_rest_of_parameter? read hn
  have groups : ∀ gs, bindGroups (nodes.map (Node.rename f)) gs Params.empty =
      (bindGroups nodes gs Params.empty).rename f := by
    intro gs
    exact bindGroups_rename (q := Params.empty) names.injOn_newName
      (fun n hn _ bears => ⟨n, hn, bears⟩) named gs (by simp [Params.empty])
  rw [Pattern.compile_of_parse read] at compiled
  cases made : Expression.ofNodes nodes with
  | error e =>
    rw [made] at compiled
    cases compiled
  | ok x =>
    rw [made] at compiled
    obtain rfl := Except.ok.inj compiled
    refine ⟨⟨other, nodes.map (Node.rename f), x, (nodes.map (Node.rename f)).map Node.kind⟩,
      ?_, rfl, rfl, ?_, ?_⟩
    · rw [Pattern.compile_of_parse read', Expression.ofNodes_rename, made]
      rfl
    · rw [List.map_map]
      exact List.map_congr_left fun n _ => n.kind_rename
    · intro path
      rw [Pattern.capture?, Pattern.capture?, Option.map_map]
      simp only [groups]
      rfl

theorem mapM_compile_rename {sources others : List String}
    (h : List.Forall₂ (Renaming f) sources others) :
    (∀ e, sources.mapM Pattern.compile = .error e → others.mapM Pattern.compile = .error e) ∧
    ∀ ps, sources.mapM Pattern.compile = .ok ps →
      ∃ qs, others.mapM Pattern.compile = .ok qs ∧
        List.Forall₂ (Pattern.IsRenamed f) ps qs := by
  induction h with
  | nil =>
    refine ⟨nofun, ?_⟩
    intro ps accepted
    obtain rfl := Except.ok.inj accepted
    exact ⟨[], rfl, .nil⟩
  | @cons source other sources others first later ih =>
    simp only [List.mapM_cons]
    cases compiled : Pattern.compile source with
    | error e =>
      rw [first.compile_of_error compiled]
      exact ⟨fun _ same => same, nofun⟩
    | ok p =>
      obtain ⟨q, compiled', renamed⟩ := first.compile_of_ok compiled
      rw [compiled']
      cases rest : sources.mapM Pattern.compile with
      | error e =>
        rw [ih.1 e rest]
        exact ⟨fun _ same => same, nofun⟩
      | ok ps =>
        obtain ⟨qs, rest', all⟩ := ih.2 ps rest
        rw [rest']
        refine ⟨nofun, ?_⟩
        intro ps' accepted
        obtain rfl := Except.ok.inj accepted
        exact ⟨q :: qs, rfl, .cons renamed all⟩

end

/-- Patterns are put in order by their places alone. -/
theorem insertRanked_forall₂ {R : Ranked → Ranked → Prop}
    (place : ∀ e e', R e e' → e'.place = e.place) {e e' : Ranked} (first : R e e')
    {xs ys : List Ranked} (h : List.Forall₂ R xs ys) :
    List.Forall₂ R (insertRanked e xs) (insertRanked e' ys) := by
  induction h with
  | nil => exact .cons first .nil
  | cons hx later ih =>
    rw [insertRanked, insertRanked, place _ _ first, place _ _ hx]
    split
    · exact .cons first (.cons hx later)
    · exact .cons hx ih

theorem sortRanked_forall₂ {R : Ranked → Ranked → Prop}
    (place : ∀ e e', R e e' → e'.place = e.place) {xs ys : List Ranked}
    (h : List.Forall₂ R xs ys) : List.Forall₂ R (sortRanked xs) (sortRanked ys) := by
  refine List.rel_foldl (P := List.Forall₂ R) (R := R) ?_ .nil h
  intro ts us sorted e e' first
  exact insertRanked_forall₂ place first sorted

structure Ranked.IsRenamed (f : String → String) (e e' : Ranked) : Prop where
  index : e'.index = e.index
  pattern : e.pattern.IsRenamed f e'.pattern

theorem Ranked.IsRenamed.place {f : String → String} {e e' : Ranked} (h : e.IsRenamed f e') :
    e'.place = e.place := by
  rw [Ranked.place, Ranked.place, h.index, h.pattern.shape]

namespace RouteTable

variable {f : String → String}

theorem entries_ofPatterns_rename {ps qs : List Pattern}
    (h : List.Forall₂ (Pattern.IsRenamed f) ps qs) (version : Nat) :
    List.Forall₂ (Ranked.IsRenamed f) (ofPatterns version ps).entries
      (ofPatterns version qs).entries := by
  have numbered : ∀ start, List.Forall₂ (Ranked.IsRenamed f)
      ((ps.zipIdx start).map fun p => ⟨p.2, p.1⟩) ((qs.zipIdx start).map fun q => ⟨q.2, q.1⟩) := by
    induction h with
    | nil => exact fun _ => .nil
    | cons first _ ih => exact fun start => .cons ⟨rfl, first⟩ (ih (start + 1))
  exact sortRanked_forall₂ (fun _ _ same => same.place) (numbered 0)

theorem hits_rename {t u : RouteTable}
    (h : List.Forall₂ (Ranked.IsRenamed f) t.entries u.entries) (path : String) :
    (u.hits path).map (fun h => (h.index, h.params)) =
      (t.hits path).map fun h => (h.index, h.params.rename f) := by
  rw [hits, hits]
  generalize t.entries = es at h
  generalize u.entries = es' at h
  induction h with
  | nil => rfl
  | @cons e e' es es' first _ ih =>
    rw [List.filterMap_cons, List.filterMap_cons, Ranked.hit?, Ranked.hit?,
      first.pattern.capture?, first.index]
    cases e.pattern.capture? (Path.normalize path) with
    | none => exact ih
    | some q =>
      simp only [Option.map_some, List.map_cons, ih]

end RouteTable

/-- Parameters may be named in any way that keeps the names of a pattern apart. Each pattern with
its new names can be written. Lists of patterns that differ in names are accepted or refused alike,
with the same expressions and shapes; and whatever the path, the same patterns match it in the same
order, and capture the same values in the same order under the new names, repeated names included.
What a `*` captures keeps its name. -/
theorem rename_insignificant [SizeLimit] (f : String → String) :
    (∀ source nodes, Pattern.parse source = .ok nodes → Renames f nodes →
      Renaming f source (Pattern.print (nodes.map (Node.rename f)))) ∧
    ∀ sources others, List.Forall₂ (Renaming f) sources others →
      (∀ e, sources.mapM Pattern.compile = .error e →
        others.mapM Pattern.compile = .error e) ∧
      ∀ ps, sources.mapM Pattern.compile = .ok ps →
        ∃ qs, others.mapM Pattern.compile = .ok qs ∧
          List.Forall₂ (Pattern.IsRenamed f) ps qs ∧
          ∀ version path,
            ((RouteTable.ofPatterns version qs).hits path).map (fun h => (h.index, h.params)) =
              ((RouteTable.ofPatterns version ps).hits path).map fun h =>
                (h.index, h.params.rename f) := by
  constructor
  · intro source nodes read names
    exact names.renaming read
  · intro sources others h
    obtain ⟨refused, accepted⟩ := mapM_compile_rename h
    refine ⟨refused, ?_⟩
    intro ps compiled
    obtain ⟨qs, compiled', renamed⟩ := accepted ps compiled
    refine ⟨qs, compiled', renamed, ?_⟩
    intro version path
    exact RouteTable.hits_rename (RouteTable.entries_ofPatterns_rename renamed version) path

open Unlimited

/-- Two names change places, one of which is borne twice, and one pattern gets needless slashes. -/
theorem rename_insignificant_swap :
    let f := fun name => if name = "a" then "b" else if name = "b" then "a" else name
    ∃ ps qs, ["/:a/:b?/:a?/*", "/:b/c"].mapM Pattern.compile = .ok ps ∧
      [":b/:a?/:b?/*", "//:a//c"].mapM Pattern.compile = .ok qs ∧
      List.Forall₂ (Pattern.IsRenamed f) ps qs ∧
      ((RouteTable.ofPatterns 0 qs).hits "/1/c").map (fun h => (h.index, h.params)) =
        [(1, ⟨[("a", "1")]⟩), (0, ⟨[("a", "c")]⟩)] := by
  intro f
  have swap : Function.Involutive f := by
    intro name
    by_cases a : name = "a"
    · rw [a]
      rfl
    · by_cases b : name = "b"
      · rw [b]
        rfl
      · simp [f, a, b]
  have names : ∀ nodes : List Node, (∀ n ∈ nodes, n ∈ [.named "a" false, .named "a" true,
      .named "b" false, .named "b" true, .literal "c", .rest]) → Renames f nodes := by
    intro nodes few
    refine ⟨fun _ _ _ _ _ _ same => swap.injective same, ?_⟩
    intro name optional mem
    have known := few _ mem
    simp only [List.mem_cons, Node.named.injEq, reduceCtorEq, List.not_mem_nil, or_false] at known
    rcases known with ⟨rfl, rfl⟩ | ⟨rfl, rfl⟩ | ⟨rfl, rfl⟩ | ⟨rfl, rfl⟩ <;> decide
  have renamings : List.Forall₂ (Renaming f) ["/:a/:b?/:a?/*", "/:b/c"]
      [":b/:a?/:b?/*", "//:a//c"] :=
    .cons ⟨_, rfl, names _ (by decide), rfl⟩ (.cons ⟨_, rfl, names _ (by decide), rfl⟩ .nil)
  obtain ⟨ps, compiled⟩ :
      ∃ ps, ["/:a/:b?/:a?/*", "/:b/c"].mapM Pattern.compile = .ok ps := ⟨_, rfl⟩
  have hits : ((RouteTable.ofPatterns 0 ps).hits "/1/c").map (fun h => (h.index, h.params)) =
      [(1, ⟨[("b", "1")]⟩), (0, ⟨[("b", "c")]⟩)] := by
    obtain rfl := Except.ok.inj compiled
    rfl
  obtain ⟨-, accepted⟩ := (rename_insignificant f).2 _ _ renamings
  obtain ⟨qs, compiled', renamed, same⟩ := accepted ps compiled
  refine ⟨ps, qs, compiled, compiled', renamed, ?_⟩
  have renamedHits := congrArg (List.map fun h => (h.1, h.2.rename f)) hits
  rw [List.map_map] at renamedHits
  exact (same 0 "/1/c").trans renamedHits

end PatternRouter
