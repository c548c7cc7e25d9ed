import PatternRouter.Proofs.LetterCase
import PatternRouter.Proofs.NodeMatching
import PatternRouter.Proofs.WellFormed

namespace PatternRouter

/-- The segments that the parameters of a pattern take, in the order of the nodes. -/
abbrev Bindings := List (String × Option (List Char))

/-- Gives segments to nodes in order until both are used up. An optional parameter takes a segment
if what follows can go on from there, and is left out only if not. -/
def bindSegments : List Node → List (List Char) → Option Bindings
  | [], [] => some []
  | [], _ :: _ => none
  | .literal _ :: _, [] => none
  | .literal text :: ns, s :: ss =>
    if caselessText text.toList s then bindSegments ns ss else none
  | .named _ false :: _, [] => none
  | .named name false :: ns, s :: ss => (bindSegments ns ss).map ((name, some s) :: ·)
  | .named name true :: ns, [] => (bindSegments ns []).map ((name, none) :: ·)
  | .named name true :: ns, s :: ss =>
    ((bindSegments ns ss).map ((name, some s) :: ·)).or
      ((bindSegments ns (s :: ss)).map ((name, none) :: ·))
  | .rest :: ns, [] => (bindSegments ns []).map ((restName, none) :: ·)
  | .rest :: ns, s :: ss =>
    (bindSegments ns []).map ((restName, some (joinSlash (s :: ss))) :: ·)

/-- What the nodes of a pattern bind on a path; the root matches the empty path alone. -/
def bindPath (nodes : List Node) (path : List Char) : Option Bindings :=
  if nodes = rootNodes then if path = [] then some [] else none
  else bindSegments nodes (segments path)

namespace Bindings

def params (bs : Bindings) : Params :=
  bs.foldl (fun p b => p.set b.1 (b.2.map String.ofList)) Params.empty

def values (bs : Bindings) : Groups := bs.map Prod.snd

end Bindings

/-- Whether every path that a node matches has a segment for it. -/
def Node.isMandatory (n : Node) : Bool := n.kind == .literal || n.kind == .required

theorem Node.isMandatory_iff_rank_le {n : Node} : n.isMandatory = true ↔ n.kind.rank ≤ 1 := by
  rw [isMandatory]
  cases n.kind <;> decide

/-- Whether the first node can be left out and a later one cannot. -/
def leadsOptional : List Node → Bool
  | .named _ true :: ns => ns.any Node.isMandatory
  | _ => false

/-- What can only go on at a slash or at the end of a text. -/
def Blocked (k : Continuation) : Prop := ∀ c s, c ≠ '/' → k (c :: s) = none

theorem blocked_atEnd : Blocked atEnd := fun _ _ _ => rfl

theorem blocked_slashThen (k : Continuation) : Blocked (slashThen false k) := by
  intro c s hc
  have other : ¬caseless '/' c = true := fun h => hc ((slash_caseless c).1 h)
  change (if caseless '/' c = true then k s else none) = none
  rw [if_neg other]

theorem blocked_orAbsent {j k : Continuation} (hj : Blocked j) (hk : Blocked k) :
    Blocked (orAbsent j k) := by
  intro c s hc
  rw [orAbsent, hj c s hc, hk c s hc]
  rfl

theorem blocked_eval (n : Node) {k : Continuation} (hk : Blocked k) : Blocked (n.eval false k) := by
  cases n with
  | literal text => exact blocked_slashThen _
  | named name optional =>
    cases optional
    · exact blocked_slashThen _
    · exact blocked_orAbsent (blocked_slashThen _) hk
  | rest => exact blocked_orAbsent (blocked_slashThen _) hk

/-- Nodes that are not the first start nowhere inside a segment. -/
theorem blocked_evalNodes (ns : List Node) : Blocked (evalNodes ns) := by
  induction ns with
  | nil => exact blocked_atEnd
  | cons n ns ih => exact blocked_eval n ih

theorem slashThen_slash (k : Continuation) (s : List Char) :
    slashThen false k ('/' :: s) = k s := by
  change (if caseless '/' '/' = true then k s else none) = k s
  rw [if_pos (caseless_refl '/')]

theorem shortest_trail (k : Continuation) (ss : List (List Char)) :
    shortest '/' k (trail ss) = none := by
  cases ss with
  | nil => rfl
  | cons s ss => rw [trail_cons, List.cons_append, shortest, if_pos rfl]

theorem shortest_append {k : Continuation} (hk : Blocked k) {s : List Char} (hs : s ≠ [])
    (hn : '/' ∉ s) (ss : List (List Char)) :
    shortest '/' k (s ++ trail ss) = (k (trail ss)).map (s, ·) := by
  induction s with
  | nil => exact absurd rfl hs
  | cons c s ih =>
    simp only [List.mem_cons, not_or] at hn
    rw [List.cons_append, shortest, if_neg (Ne.symm hn.1)]
    cases s with
    | nil =>
      rw [List.nil_append, shortest_trail]
      cases k (trail ss) <;> rfl
    | cons d s =>
      have inside : k (d :: s ++ trail ss) = none := hk d _ fun h => hn.2 (by simp [h])
      rw [inside, ih (by simp) hn.2, Option.map_map]
      rfl

theorem segmentThen_append {k : Continuation} (hk : Blocked k) {s : List Char} (hs : s ≠ [])
    (hn : '/' ∉ s) (ss : List (List Char)) :
    segmentThen k (s ++ trail ss) = (k (trail ss)).map (some s :: ·) := by
  rw [segmentThen, shortest_append hk hs hn, Option.map_map]
  rfl

theorem longest_line {k : Continuation} {g : Groups} (hk : k [] = some g) {s : List Char}
    (hs : s ≠ []) (hn : '\n' ∉ s) : longest '\n' k s = some (s, g) := by
  induction s with
  | nil => exact absurd rfl hs
  | cons c s ih =>
    simp only [List.mem_cons, not_or] at hn
    rw [longest, if_neg (Ne.symm hn.1)]
    cases s with
    | nil =>
      rw [longest, hk]
      rfl
    | cons d s => rw [ih (by simp) hn.2]

theorem remainderThen_atEnd {s : List Char} (hs : s ≠ []) (hn : '\n' ∉ s) :
    remainderThen atEnd s = some [some s] := by
  have line := longest_line (k := atEnd) (g := []) rfl hs hn
  rw [remainderThen, line]
  rfl

/-- A literal ends where its segment ends, and takes no slash. -/
theorem textThen_append {k : Continuation} (hk : Blocked k) {t s : List Char} (ht : '/' ∉ t)
    (hs : '/' ∉ s) (ss : List (List Char)) :
    textThen t k (s ++ trail ss) = if caselessText t s then k (trail ss) else none := by
  induction t generalizing s with
  | nil =>
    cases s with
    | nil => rfl
    | cons d s =>
      have inside : k (d :: s ++ trail ss) = none := hk d _ fun h => hs (by simp [h])
      exact inside
  | cons c t ih =>
    simp only [List.mem_cons, not_or] at ht
    cases s with
    | nil =>
      cases ss with
      | nil => rfl
      | cons p ss =>
        have other : ¬caseless c '/' = true := fun h => ht.1 ((caseless_slash c).1 h).symm
        change (if caseless c '/' = true then _ else none) = none
        rw [if_neg other]
    | cons d s =>
      simp only [List.mem_cons, not_or] at hs
      change (if caseless c d = true then textThen t k (s ++ trail ss) else none) = _
      rw [ih ht.2 hs.2]
      cases hd : caseless c d <;> simp [caselessText, hd]

/-- Whether segments can be those of a path without line feeds. -/
def LineSegments (ss : List (List Char)) : Prop := ∀ s ∈ ss, s ≠ [] ∧ '/' ∉ s ∧ '\n' ∉ s

theorem LineSegments.tail {s : List Char} {ss : List (List Char)} (h : LineSegments (s :: ss)) :
    LineSegments ss := fun p hp => h p (List.mem_cons_of_mem _ hp)

theorem lineFeed_notMem_joinSlash {ss : List (List Char)} (h : LineSegments ss) :
    '\n' ∉ joinSlash ss := by
  intro hm
  obtain ⟨p, hp, hc⟩ := (eq_slash_or_mem_of_mem_joinSlash hm).resolve_left (by decide)
  exact (h p hp).2.2 hc

theorem joinSlash_cons_ne_nil {s : List Char} {ss : List (List Char)}
    (h : LineSegments (s :: ss)) : joinSlash (s :: ss) ≠ [] := by
  rw [joinSlash_cons]
  exact List.append_ne_nil_of_left_ne_nil (h s (List.mem_cons_self ..)).1 _

theorem values_cons (name : String) (v : Option (List Char)) (o : Option Bindings) :
    (o.map ((name, v) :: ·)).map Bindings.values = (o.map Bindings.values).map (v :: ·) := by
  cases o <;> rfl

/-- Nodes that are not the first take from whole segments what they bind. -/
theorem evalNodes_trail {ns : List Node} (hw : WellFormedNodes ns) {ss : List (List Char)}
    (hss : LineSegments ss) :
    evalNodes ns (trail ss) = (bindSegments ns ss).map Bindings.values := by
  -- By induction on the nodes. What follows a node is blocked inside a segment, so a capture of one
  -- segment takes it whole.
  induction ns generalizing ss with
  | nil => cases ss <;> rfl
  | cons n ns ih =>
    have blocked := blocked_evalNodes ns
    cases ss with
    | nil =>
      have end_ := ih hw.2 hss
      cases n with
      | literal text => rfl
      | named name optional =>
        cases optional
        · rfl
        · rw [bindSegments, values_cons, ← end_]
          rfl
      | rest =>
        rw [bindSegments, values_cons, ← end_]
        rfl
    | cons s ss =>
      obtain ⟨hs, hn, hl⟩ := hss s (List.mem_cons_self ..)
      have after := ih hw.2 hss.tail
      have here := ih hw.2 hss
      cases n with
      | literal text =>
        change slashThen false (textThen text.toList (evalNodes ns)) ('/' :: (s ++ trail ss)) = _
        rw [slashThen_slash, textThen_append blocked hw.1.2.1 hn, after, bindSegments]
        split <;> rfl
      | named name optional =>
        cases optional
        · change slashThen false (segmentThen (evalNodes ns)) ('/' :: (s ++ trail ss)) = _
          rw [slashThen_slash, segmentThen_append blocked hs hn, after, bindSegments, values_cons]
        · change (slashThen false (segmentThen (evalNodes ns)) ('/' :: (s ++ trail ss))).or
            ((evalNodes ns (trail (s :: ss))).map (none :: ·)) = _
          rw [slashThen_slash, segmentThen_append blocked hs hn, after, here, bindSegments,
            Option.map_or, values_cons, values_cons]
      | rest =>
        obtain rfl := hw.tail_nil
        change (slashThen false (remainderThen atEnd) ('/' :: (s ++ trail ss))).or
          ((atEnd (trail (s :: ss))).map (none :: ·)) = _
        rw [slashThen_slash, ← joinSlash_cons, remainderThen_atEnd (joinSlash_cons_ne_nil hss)
          (lineFeed_notMem_joinSlash hss)]
        rfl

theorem bindSegments_optional_isSome (name : String) (ns : List Node) (ss : List (List Char)) :
    (bindSegments (.named name true :: ns) ss).isSome =
      ((bindSegments ns ss.tail).isSome || (bindSegments ns ss).isSome) := by
  cases ss with
  | nil => rw [bindSegments, Option.isSome_map, List.tail_nil, Bool.or_self]
  | cons s ss => rw [bindSegments, Option.isSome_or, Option.isSome_map, Option.isSome_map]; rfl

/-- With nodes that can all be left out, fewer segments match whenever more do. -/
theorem bindSegments_isSome_of_cons {ns : List Node} (hw : WellFormedNodes ns)
    (hm : ns.any Node.isMandatory = false) {s : List Char} {ss : List (List Char)}
    (h : (bindSegments ns (s :: ss)).isSome = true) : (bindSegments ns ss).isSome = true := by
  induction ns generalizing s ss with
  | nil => cases h
  | cons n ns ih =>
    simp only [List.any_cons, Bool.or_eq_false_iff] at hm
    cases n with
    | literal text => cases hm.1
    | named name optional =>
      cases optional
      · cases hm.1
      · rw [bindSegments_optional_isSome, Bool.or_eq_true, List.tail_cons] at h
        have skipped : (bindSegments ns ss).isSome = true := h.elim id (ih hw.2 hm.2)
        rw [bindSegments_optional_isSome, skipped, Bool.or_true]
    | rest =>
      obtain rfl := hw.tail_nil
      cases ss <;> rfl

theorem runNodes_joinSlash {n : Node} {ns : List Node} (hw : WellFormedNodes (n :: ns))
    (hl : leadsOptional (n :: ns) = false) {ss : List (List Char)} (hss : LineSegments ss) :
    runNodes (n :: ns) (joinSlash ss) = (bindSegments (n :: ns) ss).map Bindings.values := by
  have blocked := blocked_evalNodes ns
  cases ss with
  | nil =>
    have end_ := evalNodes_trail hw.2 hss
    cases n with
    | literal text =>
      obtain ⟨c, t, ht⟩ := List.exists_cons_of_ne_nil hw.1.1
      change textThen text.toList (evalNodes ns) [] = none
      rw [ht]
      rfl
    | named name optional =>
      cases optional
      · rfl
      · rw [bindSegments, values_cons, ← end_]
        rfl
    | rest =>
      rw [bindSegments, values_cons, ← end_]
      rfl
  | cons s ss =>
    obtain ⟨hs, hn, -⟩ := hss s (List.mem_cons_self ..)
    have after := evalNodes_trail hw.2 hss.tail
    cases n with
    | literal text =>
      change textThen text.toList (evalNodes ns) (joinSlash (s :: ss)) = _
      rw [joinSlash_cons, textThen_append blocked hw.1.2.1 hn, after, bindSegments]
      split <;> rfl
    | named name optional =>
      cases optional
      · change segmentThen (evalNodes ns) (joinSlash (s :: ss)) = _
        rw [joinSlash_cons, segmentThen_append blocked hs hn, after, bindSegments, values_cons]
      · obtain ⟨c, t, rfl⟩ := List.exists_cons_of_ne_nil hs
        have inside : evalNodes ns (c :: t ++ trail ss) = none :=
          blocked c _ fun h => hn (by simp [h])
        change (segmentThen (evalNodes ns) (joinSlash ((c :: t) :: ss))).or
          ((evalNodes ns (joinSlash ((c :: t) :: ss))).map (none :: ·)) = _
        rw [joinSlash_cons, segmentThen_append blocked hs hn, after, inside, bindSegments,
          Option.map_or, values_cons, values_cons]
        -- A first parameter that is left out leaves no slash for the next node, so the other way
        -- on fails; the segments then are too many for the nodes anyway.
        cases htaken : bindSegments ns ss with
        | some bs => rfl
        | none =>
          cases hskipped : bindSegments ns ((c :: t) :: ss) with
          | none => rfl
          | some bs =>
            have fewer := bindSegments_isSome_of_cons hw.2 hl (by rw [hskipped]; rfl)
            rw [htaken] at fewer
            cases fewer
    | rest =>
      obtain rfl := hw.tail_nil
      change (remainderThen atEnd (joinSlash (s :: ss))).or
        ((atEnd (joinSlash (s :: ss))).map (none :: ·)) = _
      rw [remainderThen_atEnd (joinSlash_cons_ne_nil hss) (lineFeed_notMem_joinSlash hss)]
      rfl

theorem lineSegments_segments {s : List Char} (h : '\n' ∉ s) : LineSegments (segments s) :=
  fun _ hp => ⟨ne_nil_of_mem_segments hp, slash_notMem_of_mem_segments hp,
    fun hc => h (mem_of_mem_segments hp hc)⟩

theorem runNodes_eq_bindPath {nodes : List Node}
    (hw : nodes = rootNodes ∨ nodes ≠ [] ∧ WellFormedNodes nodes)
    (hl : leadsOptional nodes = false) {path : String} (hn : Path.normalize path = path)
    (hf : '\n' ∉ path.toList) :
    runNodes nodes path.toList = (bindPath nodes path.toList).map Bindings.values := by
  unfold bindPath
  split
  · next hr =>
    subst hr
    change atEnd path.toList = _
    cases path.toList <;> rfl
  · next hr =>
    obtain ⟨hne, hw⟩ := hw.resolve_left hr
    obtain ⟨n, ns, rfl⟩ := List.exists_cons_of_ne_nil hne
    rw [Path.toList_eq_joinSlash hn, segments_joinSlash fun p hp =>
      ⟨ne_nil_of_mem_segments hp, slash_notMem_of_mem_segments hp⟩]
    exact runNodes_joinSlash hw hl (lineSegments_segments hf)

theorem map_fst_of_map_cons {name : String} {v : Option (List Char)} {o : Option Bindings}
    {names : List String} (ho : ∀ cs, o = some cs → cs.map Prod.fst = names) {bs : Bindings}
    (h : o.map ((name, v) :: ·) = some bs) : bs.map Prod.fst = name :: names := by
  obtain ⟨cs, hcs, rfl⟩ := Option.map_eq_some_iff.1 h
  rw [List.map_cons, ho cs hcs]

theorem map_fst_of_bindSegments {ns : List Node} {ss : List (List Char)} {bs : Bindings}
    (h : bindSegments ns ss = some bs) : bs.map Prod.fst = ns.filterMap Node.parameter? := by
  induction ns generalizing ss bs with
  | nil =>
    cases ss with
    | nil => cases h; rfl
    | cons s ss => cases h
  | cons n ns ih =>
    cases n with
    | literal text =>
      cases ss with
      | nil => cases h
      | cons s ss =>
        rw [bindSegments] at h
        split at h
        · exact ih h
        · cases h
    | named name optional =>
      have ho : ∀ ts cs, bindSegments ns ts = some cs →
          cs.map Prod.fst = ns.filterMap Node.parameter? := fun _ _ => ih
      cases optional
      · cases ss with
        | nil => cases h
        | cons s ss => exact map_fst_of_map_cons (ho _) h
      · cases ss with
        | nil => exact map_fst_of_map_cons (ho _) h
        | cons s ss =>
          rw [bindSegments] at h
          rcases Option.or_eq_some_iff.1 h with h | ⟨-, h⟩
          · exact map_fst_of_map_cons (ho _) h
          · exact map_fst_of_map_cons (ho _) h
    | rest =>
      cases ss with
      | nil => exact map_fst_of_map_cons (fun _ => ih) h
      | cons s ss => exact map_fst_of_map_cons (fun _ => ih) h

theorem bindGroups_values {ns : List Node} {bs : Bindings}
    (h : bs.map Prod.fst = ns.filterMap Node.parameter?) (p : Params) :
    bindGroups ns (bs.values.map (·.map String.ofList)) p =
      bs.foldl (fun p b => p.set b.1 (b.2.map String.ofList)) p := by
  induction ns generalizing bs p with
  | nil =>
    obtain rfl := List.map_eq_nil_iff.1 h
    rfl
  | cons n ns ih =>
    cases hn : n.parameter? with
    | none =>
      rw [List.filterMap_cons_none hn] at h
      rw [bindGroups, hn]
      exact ih h p
    | some name =>
      rw [List.filterMap_cons_some hn] at h
      obtain ⟨b, cs, rfl, rfl, hcs⟩ := List.map_eq_cons_iff.1 h
      rw [bindGroups, hn]
      exact ih hcs (p.set b.1 (b.2.map String.ofList))

theorem map_fst_of_bindPath {nodes : List Node} {path : List Char} {bs : Bindings}
    (h : bindPath nodes path = some bs) : bs.map Prod.fst = nodes.filterMap Node.parameter? := by
  unfold bindPath at h
  split at h
  · next hr =>
    subst hr
    split at h
    · cases h; rfl
    · cases h
  · exact map_fst_of_bindSegments h

/-- A pattern captures from a path what its nodes bind to the segments of the path, unless its first
node can be left out and a later one cannot. -/
theorem capture?_eq_bindPath [SizeLimit] {source path : String} {p : Pattern}
    (hp : Pattern.compile source = .ok p) (hn : Path.normalize path = path)
    (hf : '\n' ∉ path.toList) (hl : leadsOptional p.nodes = false) :
    p.capture? path = (bindPath p.nodes path.toList).map Bindings.params := by
  obtain ⟨nodes, hparse, -, rfl⟩ := Pattern.compile_eq_ok.1 hp
  have run := runNodes_eq_bindPath (root_or_wellFormed_of_parse hparse) hl hn hf
  simp only [Pattern.capture?, Expression.capture?_build, run]
  cases hb : bindPath nodes path.toList with
  | none => rfl
  | some bs =>
    have bound := bindGroups_values (map_fst_of_bindPath hb) Params.empty
    simp only [Option.map_some, bound]
    rfl

open Unlimited

theorem capture?_eq_bindPath_profile :
    ∃ p, Pattern.compile "/Users/:id?/:tab?/profile/*" = .ok p ∧
      Path.normalize "users/7/PROFILE/a/b" = "users/7/PROFILE/a/b" ∧
      '\n' ∉ "users/7/PROFILE/a/b".toList ∧ leadsOptional p.nodes = false ∧
      p.capture? "users/7/PROFILE/a/b" = some ⟨[("id", "7"), ("*", "a/b")]⟩ := by
  have compiled := Pattern.compile_eq_ok.2
    ⟨_, (rfl : Pattern.parse "/Users/:id?/:tab?/profile/*" = .ok _), by decide, rfl⟩
  refine ⟨_, compiled, by decide, by decide, by decide, ?_⟩
  rw [capture?_eq_bindPath compiled (by decide) (by decide) (by decide)]
  decide

end PatternRouter
