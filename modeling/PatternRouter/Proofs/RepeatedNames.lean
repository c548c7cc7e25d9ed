import Mathlib.Data.List.Induction
import PatternRouter.Proofs.CacheValidity
import PatternRouter.Proofs.DistinctKeys
import PatternRouter.Proofs.DistinctNames
import PatternRouter.Proofs.Histories
import PatternRouter.Proofs.TrailingRest

namespace PatternRouter

theorem map_fst_overwrite_of_mem {name value : String} {es : List (String × String)}
    (h : name ∈ es.map Prod.fst) : (overwrite name value es).map Prod.fst = es.map Prod.fst := by
  induction es with
  | nil => cases h
  | cons e es ih =>
    rw [overwrite]
    split
    · next same => rw [List.map_cons, List.map_cons, same]
    · next other =>
      rw [List.map_cons, List.mem_cons] at h
      rw [List.map_cons, List.map_cons, ih (h.resolve_left (Ne.symm other))]

theorem lookup_overwrite (name value other : String) (es : List (String × String)) :
    (overwrite name value es).lookup other =
      if other = name then some value else es.lookup other := by
  induction es with
  | nil =>
    by_cases same : other = name
    · simp [overwrite, same]
    · simp [overwrite, same, List.lookup_cons, beq_eq_false_iff_ne.2 same]
  | cons e es ih =>
    rw [overwrite]
    by_cases here : e.1 = name
    · rw [if_pos here, List.lookup_cons, List.lookup_cons, here]
      by_cases same : other = name
      · simp [same]
      · simp [same, beq_eq_false_iff_ne.2 same]
    · rw [if_neg here, List.lookup_cons, List.lookup_cons, ih]
      by_cases same : other = e.1
      · simp [same, here]
      · simp [beq_eq_false_iff_ne.2 same]

theorem name_notMem_eraseP {name : String} {es : List (String × String)}
    (h : (es.map Prod.fst).Nodup) : name ∉ (es.eraseP (·.1 == name)).map Prod.fst := by
  induction es with
  | nil => simp
  | cons e es ih =>
    obtain ⟨new, distinct⟩ := List.nodup_cons.1 h
    by_cases here : e.1 = name
    · rw [List.eraseP_cons_of_pos (by simpa using here), ← here]
      exact new
    · rw [List.eraseP_cons_of_neg (by simpa using here), List.map_cons, List.mem_cons, not_or]
      exact ⟨Ne.symm here, ih distinct⟩

namespace Params

variable {p : Params} {name other : String}

theorem map_fst_unset_sublist (p : Params) (name : String) :
    ((p.set name none).entries.map Prod.fst).Sublist (p.entries.map Prod.fst) :=
  List.eraseP_sublist.map Prod.fst

theorem map_fst_set_of_mem (h : name ∈ p.entries.map Prod.fst) (value : String) :
    (p.set name (some value)).entries.map Prod.fst = p.entries.map Prod.fst :=
  map_fst_overwrite_of_mem h

theorem nodup_set (h : (p.entries.map Prod.fst).Nodup) (o : Option String) :
    ((p.set name o).entries.map Prod.fst).Nodup := by
  cases o with
  | none => exact (map_fst_unset_sublist p name).nodup h
  | some value =>
    by_cases known : name ∈ p.entries.map Prod.fst
    · rwa [map_fst_set_of_mem known]
    · rw [entries_set_of_notMem known]
      exact nodup_keys_concat h (lookup_eq_none_of_notMem known) value

theorem get?_set (h : (p.entries.map Prod.fst).Nodup) (o : Option String) :
    (p.set name o).get? other = if other = name then o else p.get? other := by
  cases o with
  | some value => exact lookup_overwrite name value other p.entries
  | none =>
    change (p.entries.eraseP (·.1 == name)).lookup other = _
    split
    · next same =>
      rw [same]
      exact lookup_eq_none_of_notMem (name_notMem_eraseP h)
    · next different =>
      have kept := lookup_cons_eraseP name other "" p.entries
      rwa [if_neg different, List.lookup_cons, beq_eq_false_iff_ne.2 different] at kept

end Params

namespace Bindings

variable {bs : Bindings} {name other : String} {i j : Nat}

/-- Whether a name that has a value in the end has had one since the binding at this place: it is
the first binding of the name after the last one without a value. -/
structure StartsAt (bs : Bindings) (name : String) (i : Nat) : Prop where
  bound : ∃ o, bs[i]? = some (name, o)
  after_absence : ∀ k, bs[k]? = some (name, none) → k < i
  first : ∀ j o, j < i → bs[j]? = some (name, o) → ∃ k, j ≤ k ∧ bs[k]? = some (name, none)

/-- Whether one name has had its value for longer than another. -/
def StartsBefore (bs : Bindings) (name other : String) : Prop :=
  ∃ i j, StartsAt bs name i ∧ StartsAt bs other j ∧ i < j

/-- What comes of bindings that are carried out one after the other. -/
structure Resolves (bs : Bindings) (q : Params) : Prop where
  distinct : (q.entries.map Prod.fst).Nodup
  /-- The last binding of a name decides. -/
  last : ∀ before name o after, bs = before ++ (name, o) :: after → name ∉ after.map Prod.fst →
    q.get? name = o.map String.ofList
  unbound : ∀ name, name ∉ bs.map Prod.fst → q.get? name = none
  /-- Each name that has a value has had one since a certain binding. -/
  starts : ∀ name ∈ q.entries.map Prod.fst, ∃! i, StartsAt bs name i
  ordered : (q.entries.map Prod.fst).Pairwise (StartsBefore bs)

theorem StartsAt.lt_length (h : StartsAt bs name i) : i < bs.length := by
  obtain ⟨o, at_i⟩ := h.bound
  exact (List.getElem?_eq_some_iff.1 at_i).1

theorem StartsAt.unique (hi : StartsAt bs name i) (hj : StartsAt bs name j) : i = j := by
  have none_earlier : ∀ {i j}, StartsAt bs name i → StartsAt bs name j → ¬j < i := by
    intro i j hi hj lt
    obtain ⟨o, at_j⟩ := hj.bound
    obtain ⟨k, le, absent⟩ := hi.first j o lt at_j
    have := hj.after_absence k absent
    omega
  have := none_earlier hi hj
  have := none_earlier hj hi
  omega

/-- A binding that does not take the value of a name away leaves the name where it is. -/
theorem StartsAt.concat (h : StartsAt bs name i) {b : String × Option (List Char)}
    (kept : b ≠ (name, none)) : StartsAt (bs ++ [b]) name i := by
  have bound := h.lt_length
  have old : ∀ j, j < bs.length → (bs ++ [b])[j]? = bs[j]? := fun _ => List.getElem?_append_left
  refine ⟨?_, ?_, ?_⟩
  · rw [old i bound]
    exact h.bound
  · intro k absent
    by_cases lt : k < bs.length
    · rw [old k lt] at absent
      exact h.after_absence k absent
    · have le : bs.length ≤ k := by omega
      rw [List.getElem?_append_right le, List.getElem?_singleton] at absent
      split at absent
      · exact absurd (Option.some.inj absent) kept
      · cases absent
  · intro j o lt at_j
    rw [old j (by omega)] at at_j
    obtain ⟨k, le, absent⟩ := h.first j o lt at_j
    have within := (List.getElem?_eq_some_iff.1 absent).1
    exact ⟨k, le, by rwa [old k within]⟩

theorem StartsBefore.concat (h : StartsBefore bs name other) {b : String × Option (List Char)}
    (kept : b ≠ (name, none)) (kept' : b ≠ (other, none)) :
    StartsBefore (bs ++ [b]) name other := by
  obtain ⟨i, j, hi, hj, lt⟩ := h
  exact ⟨i, j, hi.concat kept, hj.concat kept', lt⟩

theorem exists_last_binding (h : name ∈ bs.map Prod.fst) :
    ∃ before o after, bs = before ++ (name, o) :: after ∧ name ∉ after.map Prod.fst := by
  induction bs with
  | nil => cases h
  | cons b bs ih =>
    by_cases later : name ∈ bs.map Prod.fst
    · obtain ⟨before, o, after, rfl, none_after⟩ := ih later
      exact ⟨b :: before, o, after, rfl, none_after⟩
    · obtain rfl : name = b.1 := (List.mem_cons.1 h).resolve_right later
      exact ⟨[], b.2, bs, rfl, later⟩

theorem Resolves.absent_after {q : Params} (h : Resolves bs q) (absent : q.get? name = none)
    {o : Option (List Char)} (at_j : bs[j]? = some (name, o)) :
    ∃ k, j ≤ k ∧ bs[k]? = some (name, none) := by
  obtain ⟨bound, at_j⟩ := List.getElem?_eq_some_iff.1 at_j
  have bound_later : name ∈ (bs.drop j).map Prod.fst := by
    rw [List.drop_eq_getElem_cons bound, at_j]
    exact List.mem_cons_self ..
  obtain ⟨between, o', after, later, none_after⟩ := exists_last_binding bound_later
  have split : bs = (bs.take j ++ between) ++ (name, o') :: after := by
    rw [List.append_assoc, ← later, List.take_append_drop]
  have decides := h.last _ _ _ _ split none_after
  rw [absent] at decides
  obtain rfl : o' = none := Option.map_eq_none_iff.1 decides.symm
  refine ⟨j + between.length, Nat.le_add_right .., ?_⟩
  have place : (bs.take j ++ between).length = j + between.length := by
    rw [List.length_append, List.length_take, Nat.min_eq_left (Nat.le_of_lt bound)]
  rw [split, List.getElem?_append_right (Nat.le_of_eq place), place, Nat.sub_self,
    List.getElem?_cons_zero]

theorem Resolves.startsAt_length {q : Params} (h : Resolves bs q) (absent : q.get? name = none)
    (value : List Char) : StartsAt (bs ++ [(name, some value)]) name bs.length := by
  have at_end : (bs ++ [(name, some value)])[bs.length]? = some (name, some value) := by simp
  refine ⟨⟨_, at_end⟩, ?_, ?_⟩
  · intro k at_k
    have within := (List.getElem?_eq_some_iff.1 at_k).1
    rw [List.length_append, List.length_singleton] at within
    rcases Nat.lt_succ_iff_lt_or_eq.1 within with lt | rfl
    · exact lt
    · rw [at_end] at at_k
      cases at_k
  · intro j o lt at_j
    rw [List.getElem?_append_left lt] at at_j
    obtain ⟨k, le, at_k⟩ := h.absent_after absent at_j
    refine ⟨k, le, ?_⟩
    rwa [List.getElem?_append_left (List.getElem?_eq_some_iff.1 at_k).1]

theorem Resolves.placed_unset {q : Params} (h : Resolves bs q) (name : String) :
    (∀ other ∈ (q.set name none).entries.map Prod.fst,
      ∃ i, StartsAt (bs ++ [(name, none)]) other i) ∧
    ((q.set name none).entries.map Prod.fst).Pairwise (StartsBefore (bs ++ [(name, none)])) := by
  have fewer := Params.map_fst_unset_sublist q name
  have kept : ∀ other ∈ (q.set name none).entries.map Prod.fst,
      ((name, none) : String × Option (List Char)) ≠ (other, none) := by
    intro other mem same
    obtain rfl : name = other := congrArg Prod.fst same
    exact name_notMem_eraseP h.distinct mem
  constructor
  · intro other mem
    obtain ⟨i, start, -⟩ := h.starts other (fewer.subset mem)
    exact ⟨i, start.concat (kept other mem)⟩
  · apply (h.ordered.sublist fewer).imp_of_mem
    intro a b ha hb earlier
    exact earlier.concat (kept a ha) (kept b hb)

theorem Resolves.placed_value {q : Params} (h : Resolves bs q) (name : String)
    (value : List Char) :
    (∀ other ∈ (q.set name (some (String.ofList value))).entries.map Prod.fst,
      ∃ i, StartsAt (bs ++ [(name, some value)]) other i) ∧
    ((q.set name (some (String.ofList value))).entries.map Prod.fst).Pairwise
      (StartsBefore (bs ++ [(name, some value)])) := by
  have kept : ∀ other,
      ((name, some value) : String × Option (List Char)) ≠ (other, none) := by simp
  have start : ∀ other ∈ q.entries.map Prod.fst,
      ∃ i, StartsAt bs other i ∧ StartsAt (bs ++ [(name, some value)]) other i := by
    intro other mem
    obtain ⟨i, start, -⟩ := h.starts other mem
    exact ⟨i, start, start.concat (kept other)⟩
  have ordered := h.ordered.imp fun earlier => earlier.concat (kept _) (kept _)
  -- A name that has a value stays where it is. Any other goes behind all that have one, and its
  -- value starts with the new binding.
  by_cases known : name ∈ q.entries.map Prod.fst
  · rw [Params.map_fst_set_of_mem known]
    exact ⟨fun other mem => (start other mem).imp fun _ both => both.2, ordered⟩
  · have names : (q.set name (some (String.ofList value))).entries.map Prod.fst =
        q.entries.map Prod.fst ++ [name] := by
      rw [Params.entries_set_of_notMem known, List.map_append]
      rfl
    have absent : q.get? name = none := lookup_eq_none_of_notMem known
    have last := h.startsAt_length absent value
    rw [names]
    constructor
    · intro other mem
      rcases List.mem_append.1 mem with mem | mem
      · exact (start other mem).imp fun _ both => both.2
      · obtain rfl := List.mem_singleton.1 mem
        exact ⟨_, last⟩
    · refine List.pairwise_append.2 ⟨ordered, List.pairwise_singleton _ _, ?_⟩
      intro other mem name' mem'
      obtain rfl := List.mem_singleton.1 mem'
      obtain ⟨i, old, now⟩ := start other mem
      exact ⟨i, bs.length, now, last, old.lt_length⟩

/-- Setting or unsetting a name keeps the order in which names have had their values. -/
theorem Resolves.placed_set {q : Params} (h : Resolves bs q) (name : String)
    (o : Option (List Char)) :
    (∀ other ∈ (q.set name (o.map String.ofList)).entries.map Prod.fst,
      ∃ i, StartsAt (bs ++ [(name, o)]) other i) ∧
    ((q.set name (o.map String.ofList)).entries.map Prod.fst).Pairwise
      (StartsBefore (bs ++ [(name, o)])) := by
  cases o with
  | none => exact h.placed_unset name
  | some value => exact h.placed_value name value

theorem Resolves.set {q : Params} (h : Resolves bs q) (name : String) (o : Option (List Char)) :
    Resolves (bs ++ [(name, o)]) (q.set name (o.map String.ofList)) := by
  have get : ∀ other, (q.set name (o.map String.ofList)).get? other =
      if other = name then o.map String.ofList else q.get? other :=
    fun _ => Params.get?_set h.distinct _
  obtain ⟨starts, ordered⟩ := h.placed_set name o
  refine ⟨Params.nodup_set h.distinct _, ?_, ?_, ?_, ordered⟩
  · intro before other o' after split none_after
    rw [get]
    rcases concat_eq_append_cons_iff.1 split with ⟨-, same, -⟩ | ⟨between, older, rfl⟩
    · obtain ⟨rfl, rfl⟩ := Prod.mk.inj same
      rw [if_pos rfl]
    · simp only [List.map_append, List.mem_append, not_or] at none_after
      have different : other ≠ name := by simpa using none_after.2
      rw [if_neg different]
      exact h.last before other o' between older none_after.1
  · intro other none_bound
    simp only [List.map_append, List.mem_append, not_or] at none_bound
    have different : other ≠ name := by simpa using none_bound.2
    rw [get, if_neg different]
    exact h.unbound other none_bound.1
  · intro other mem
    obtain ⟨i, start⟩ := starts other mem
    exact ⟨i, start, fun j start' => start'.unique start⟩

/-- Whatever names repeat, the last binding of each decides, and each stands where it started. -/
theorem resolves_params (bs : Bindings) : Resolves bs bs.params := by
  -- By induction from the back, as one more binding is carried out after all others.
  induction bs using List.reverseRecOn with
  | nil => exact ⟨List.nodup_nil, by simp, fun _ _ => rfl, by simp [params, Params.empty], .nil⟩
  | append_singleton bs b ih =>
    have carried := ih.set b.1 b.2
    rwa [params, List.foldl_append]

end Bindings

section

variable {source path : String} {p : Pattern} {q : Params}

/-- A match hands over, node by node, what the expression captured for the node. -/
theorem Pattern.exists_pieces [SizeLimit] (hp : Pattern.compile source = .ok p)
    (hq : p.capture? path = some q) :
    ∃ os, List.Forall₂ Node.Takes p.nodes os ∧ path.toList = wholeOf os ∧
      p.expression.capture? path =
        some ((bindPieces p.nodes os).values.map (·.map String.ofList)) ∧
      q = (bindPieces p.nodes os).params := by
  rw [Pattern.capture?_of_compile hp] at hq
  obtain ⟨gs, run, rfl⟩ := Option.map_eq_some_iff.1 hq
  obtain ⟨os, takes, whole, rfl⟩ := takes_of_runNodes run
  have groups : p.expression.capture? path =
      some ((bindPieces p.nodes os).values.map (·.map String.ofList)) := by
    obtain ⟨nodes, -, -, rfl⟩ := Pattern.compile_eq_ok.1 hp
    rw [Expression.capture?_build, run, Option.map_some]
  exact ⟨os, takes, whole, groups, bindGroups_values (map_fst_bindPieces takes) _⟩

theorem rest?_eq_some_iff {nodes : List Node} (hp : Pattern.parse source = .ok nodes)
    {os : List (Option (List Char))} (takes : List.Forall₂ Node.Takes nodes os)
    (hq : (bindPieces nodes os).Resolves q) (value : String) :
    q.rest? = some value ↔
      nodes.getLast? = some .rest ∧ os.getLast? = some (some value.toList) := by
  by_cases ends : nodes.getLast? = some .rest
  · obtain ⟨before, rfl⟩ := List.getLast?_eq_some_iff.1 ends
    obtain ⟨os, o, rfl, takes, -⟩ := forall₂_concat takes
    have split : bindPieces (before ++ [.rest]) (os ++ [o]) =
        bindPieces before os ++ [(restName, o)] := by
      rw [bindPieces, List.zip_append takes.length_eq, List.filterMap_append]
      rfl
    have decides := hq.last _ _ _ _ split List.not_mem_nil
    rw [Params.rest?, decides, List.getLast?_concat, List.getLast?_concat, Option.some_inj]
    cases o with
    | none => simp
    | some v => simp [String.ext_iff]
  · have unbound : restName ∉ (bindPieces nodes os).map Prod.fst := by
      rw [map_fst_bindPieces takes, List.mem_filterMap]
      rintro ⟨n, mem, name⟩
      obtain rfl := eq_rest_of_parameter? hp mem name
      exact rest_notMem (.of_parse hp) ends mem
    rw [Params.rest?, hq.unbound _ unbound]
    simp [ends]

/-- Where nodes share a name the last of them decides. Every match cuts the path into pieces for the
nodes, and hands over what the nodes with names took: each name once, with what its last node took
if it took part, and in the order of the first nodes since which the names have not been without a
value. The name of the rest stands for what a `*` at the end took, and no parameter bears it. -/
theorem last_node_decides [SizeLimit] (hp : Pattern.compile source = .ok p)
    (hq : p.capture? path = some q) :
    ∃ os : List (Option (List Char)), List.Forall₂ Node.Takes p.nodes os ∧
      path.toList = wholeOf os ∧
      p.expression.capture? path =
        some ((bindPieces p.nodes os).values.map (·.map String.ofList)) ∧
      (bindPieces p.nodes os).Resolves q ∧
      (∀ value, q.rest? = some value ↔
        p.nodes.getLast? = some .rest ∧ os.getLast? = some (some value.toList)) ∧
      ∀ name optional, Node.named name optional ∈ p.nodes → name ≠ restName := by
  have read := Pattern.parse_of_compile hp
  obtain ⟨os, takes, whole, groups, rfl⟩ := Pattern.exists_pieces hp hq
  have resolves := Bindings.resolves_params (bindPieces p.nodes os)
  refine ⟨os, takes, whole, groups, resolves, rest?_eq_some_iff read takes resolves, ?_⟩
  rintro name optional mem rfl
  cases eq_rest_of_parameter? read mem rfl

end

open Unlimited

/-- A name that loses its value to a node that is left out, and has another one in the end, stands
behind a name that came later. -/
theorem last_node_decides_again :
    ∃ p q os, Pattern.compile "/:a/:b/:a?/c/:a" = .ok p ∧ p.capture? "1/2/c/3" = some q ∧
      q.entries = [("b", "2"), ("a", "3")] ∧ wholeOf os = "1/2/c/3".toList ∧
      (bindPieces p.nodes os).Resolves q ∧ (bindPieces p.nodes os).StartsBefore "b" "a" := by
  have read : Pattern.parse "/:a/:b/:a?/c/:a" = .ok [.named "a" false, .named "b" false,
    .named "a" true, .literal "c", .named "a" false] := rfl
  have compiled := Pattern.compile_eq_ok.2 ⟨_, read, by decide, rfl⟩
  have captured := Pattern.capture?_of_compile compiled "1/2/c/3"
  rw [runNodes_eq_bindPath (root_or_wellFormed_of_parse read) (by decide) (by decide) (by decide)]
    at captured
  have params := captured.trans (c := some (Params.mk [("b", "2"), ("a", "3")])) (by decide)
  obtain ⟨os, -, whole, -, resolves, -⟩ := last_node_decides compiled params
  have ordered := List.rel_of_pairwise_cons resolves.ordered (List.mem_singleton_self "a")
  exact ⟨_, _, os, compiled, params, rfl, whole.symm, resolves, ordered⟩

end PatternRouter
