import PatternRouter.Proofs.Dispatch
import PatternRouter.Proofs.PieceMatching

namespace PatternRouter

theorem segmentNode?_of_ne_star {p : List Char} (h : p ≠ ['*']) (last : Bool) :
    segmentNode? last p = segmentNode? false p := by
  unfold segmentNode?
  split
  · rfl
  · rfl
  · rfl
  · simp [h]

theorem segmentNodes?_concat_star {ps : List (List Char)} {ns : List Node}
    (h : segmentNodes? ps = some ns) (hl : ns.getLast? ≠ some .rest) :
    segmentNodes? (ps ++ [['*']]) = some (ns ++ [.rest]) := by
  induction ps generalizing ns with
  | nil =>
    obtain rfl := Option.some.inj h
    rfl
  | cons p ps ih =>
    obtain ⟨n, ms, hn, hms, rfl⟩ := segmentNodes?_cons_eq_some.1 h
    have inner : segmentNode? false p = some n := by
      cases ps with
      | cons q ps => exact hn
      | nil =>
        obtain rfl := Option.some.inj hms
        have other : n ≠ .rest := fun same => hl (by simp [same])
        have plain : p ≠ ['*'] := by
          rintro rfl
          exact other (Option.some.inj hn).symm
        exact (segmentNode?_of_ne_star plain true).symm.trans hn
    have later : ms.getLast? ≠ some .rest := by
      cases ms with
      | nil => simp
      | cons m ms => simpa using hl
    have more : (ps ++ [['*']]).isEmpty = false := by simp
    rw [List.cons_append, segmentNodes?_cons_eq_some, more]
    exact ⟨n, ms ++ [.rest], inner, ih hms later, rfl⟩

/-- A pattern with `/*` behind it has the rest as one more node; the root has no other. -/
theorem parse_concat_star {source : String} {nodes : List Node}
    (hp : Pattern.parse source = .ok nodes) (hl : nodes.getLast? ≠ some .rest) :
    (nodes = rootNodes ∧ Pattern.parse (source ++ "/*") = .ok [.rest]) ∨
    (nodes ≠ [] ∧ WellFormedNodes nodes ∧
      Pattern.parse (source ++ "/*") = .ok (nodes ++ [.rest])) := by
  have star : segments ['*'] = [['*']] := by decide
  have wide : splitSlash (normalizeText (source ++ "/*").toList) =
      segments source.toList ++ [['*']] := by
    have joined : (source ++ "/*").toList = source.toList ++ '/' :: ['*'] := String.toList_append
    rw [splitSlash_normalizeText, joined, segments_append, star, if_neg (by simp)]
  have ne : nodes ≠ [] := by
    rcases root_or_wellFormed_of_parse hp with rfl | ⟨ne, -⟩
    · simp [rootNodes]
    · exact ne
  rw [Pattern.parse_eq_ok, splitSlash_normalizeText] at hp
  rw [Pattern.parse_eq_ok, Pattern.parse_eq_ok, wide]
  by_cases root : segments source.toList = []
  · rw [if_pos root] at hp
    rw [root]
    exact .inl ⟨(Option.some.inj hp).symm, rfl⟩
  · rw [if_neg root] at hp
    have hw := segmentNodes?_wellFormed
      (fun p hp => ⟨ne_nil_of_mem_segments hp, slash_notMem_of_mem_segments hp⟩) hp
    exact .inr ⟨ne, hw, segmentNodes?_concat_star hp hl⟩

/-- Whether a pattern matches a path. -/
def Pattern.Accepts (p : Pattern) (path : String) : Prop :=
  (p.capture? (Path.normalize path)).isSome = true

theorem Pattern.accepts_iff [SizeLimit] {source : String} {p : Pattern}
    (hp : Pattern.compile source = .ok p) {path : String} :
    p.Accepts path ↔ ∃ os, Cuts p.nodes os ∧
      joinSlash (segments path.toList) = joinSlash (os.filterMap id) := by
  have clean : (joinSlash (segments path.toList)).head? ≠ some '/' := by
    rw [← Path.toList_normalize]
    exact Path.head?_ne_slash (Path.normalize_normalize path)
  rw [Accepts, Pattern.capture?_of_compile hp, Option.isSome_map, Path.toList_normalize,
    runNodes_isSome_iff clean]

theorem segments_append_trail {s : List Char} {ss : List (List Char)} (hne : ss ≠ [])
    (h : ∀ s ∈ ss, s ≠ [] ∧ '/' ∉ s) : segments (s ++ trail ss) = segments s ++ ss := by
  obtain ⟨q, qs, rfl⟩ := List.exists_cons_of_ne_nil hne
  have joined : trail (q :: qs) = '/' :: joinSlash (q :: qs) := by
    rw [joinSlash_cons]
    rfl
  rw [joined, segments_append, segments_joinSlash h]

theorem segment_of_takes {n : Node} {last : Bool} (hw : n.WellFormed last) (hn : n ≠ .rest)
    {p : List Char} (h : n.Takes (some p)) : p ≠ [] ∧ '/' ∉ p := by
  cases n with
  | literal text =>
    constructor
    · intro empty
      subst empty
      obtain ⟨c, t, ht⟩ := List.exists_cons_of_ne_nil hw.1
      have same : caselessText text.toList [] = true := h
      rw [ht] at same
      cases same
    · intro slash
      exact hw.2.1 (mark_mem_of_caselessText (by decide) (by decide) (caselessText_symm h) slash)
  | named name optional => exact h
  | rest => exact absurd rfl hn

theorem rest_notMem {ns : List Node} (hl : RestLast ns) (h : ns.getLast? ≠ some .rest) :
    Node.rest ∉ ns := by
  induction ns with
  | nil => simp
  | cons n ns ih =>
    have later : ns.getLast? ≠ some .rest := by
      cases ns with
      | nil => simp
      | cons m ms => simpa using h
    have other : n ≠ .rest := by
      intro same
      obtain rfl := hl.1 same
      exact h (by simp [same])
    simp only [List.mem_cons, not_or]
    exact ⟨Ne.symm other, ih hl.2 later⟩

section

variable {nodes : List Node} {os : List (Option (List Char))}

theorem segments_of_takes (hw : WellFormedNodes nodes) (hr : Node.rest ∉ nodes)
    (h : List.Forall₂ Node.Takes nodes os) : ∀ p ∈ os.filterMap id, p ≠ [] ∧ '/' ∉ p := by
  induction h with
  | nil => simp
  | @cons n o nodes os ho _ ih =>
    simp only [List.mem_cons, not_or] at hr
    intro p hp
    obtain ⟨o', mem, rfl⟩ := List.mem_filterMap.1 hp
    rcases List.mem_cons.1 mem with rfl | mem
    · exact segment_of_takes hw.1 (Ne.symm hr.1) ho
    · exact ih hw.2 hr.2 p (List.mem_filterMap.2 ⟨_, mem, rfl⟩)

theorem takes_singleton {n : Node} (h : List.Forall₂ Node.Takes [n] os) :
    ∃ o, os = [o] ∧ n.Takes o := by
  cases h with
  | @cons _ o _ _ ho none_left =>
    cases none_left
    exact ⟨o, rfl, ho⟩

theorem forall₂_concat {n : Node} (h : List.Forall₂ Node.Takes (nodes ++ [n]) os) :
    ∃ os' o, os = os' ++ [o] ∧ List.Forall₂ Node.Takes nodes os' ∧ n.Takes o := by
  induction nodes generalizing os with
  | nil =>
    obtain ⟨o, rfl, ho⟩ := takes_singleton h
    exact ⟨[], o, rfl, .nil, ho⟩
  | cons m nodes ih =>
    obtain _ | ⟨hm, h⟩ := h
    obtain ⟨os', o, rfl, later, ho⟩ := ih h
    exact ⟨_ :: os', o, rfl, .cons hm later, ho⟩

end

/-- What the rest takes of the segments that are left for it. -/
def restPiece (ss : List (List Char)) : Option (List Char) :=
  if ss = [] then none else some (joinSlash ss)

theorem takes_restPiece {ss : List (List Char)} (h : LineSegments ss) :
    Node.rest.Takes (restPiece ss) := by
  unfold restPiece
  cases ss with
  | nil => rfl
  | cons s ss =>
    rw [if_neg (by simp)]
    exact ⟨joinSlash_cons_ne_nil h, lineFeed_notMem_joinSlash h⟩

theorem cuts_restPiece {ss : List (List Char)} (h : LineSegments ss) :
    Cuts [.rest] [restPiece ss] := by
  refine ⟨.cons (takes_restPiece h) .nil, ?_⟩
  intro absent
  have left_out : restPiece ss = none := Option.some.inj absent
  rw [left_out]
  rfl

theorem joinSlash_restPiece (ps ss : List (List Char)) :
    joinSlash (ps ++ (restPiece ss).toList) = joinSlash (ps ++ ss) := by
  unfold restPiece
  by_cases hs : ss = []
  · rw [if_pos hs, hs]
    rfl
  · rw [if_neg hs, Option.toList_some]
    by_cases hp : ps = []
    · rw [hp]
      rfl
    · rw [joinSlash_append hp (by simp), joinSlash_append hp hs]
      rfl

theorem joinSlash_concat_restPiece (os : List (Option (List Char))) (ss : List (List Char)) :
    joinSlash ((os ++ [restPiece ss]).filterMap id) = joinSlash (os.filterMap id ++ ss) := by
  have single : [restPiece ss].filterMap id = (restPiece ss).toList := by
    cases restPiece ss <;> rfl
  rw [List.filterMap_append, single, joinSlash_restPiece]

/-- The rest takes what stands behind the pieces of the other nodes. Where these took none, the
first of them now takes the first segment. -/
theorem exists_cuts_concat_rest {nodes : List Node} {os : List (Option (List Char))}
    (hr : Node.rest ∉ nodes) (h : Cuts nodes os) {ss : List (List Char)} (hne : ss ≠ [])
    (hss : LineSegments ss) :
    ∃ os', Cuts (nodes ++ [.rest]) os' ∧
      joinSlash (os'.filterMap id) = joinSlash (os.filterMap id ++ ss) := by
  obtain ⟨takes, lone⟩ := h
  cases takes with
  | nil => exact ⟨[restPiece ss], cuts_restPiece hss, joinSlash_concat_restPiece [] ss⟩
  | @cons n o nodes os ho hos =>
    have behind : ∀ {ts : List (List Char)}, LineSegments ts →
        List.Forall₂ Node.Takes (nodes ++ [.rest]) (os ++ [restPiece ts]) := fun hts =>
      List.rel_append hos (.cons (takes_restPiece hts) .nil)
    cases o with
    | some p =>
      exact ⟨some p :: os ++ [restPiece ss], ⟨.cons ho (behind hss), nofun⟩,
        joinSlash_concat_restPiece (some p :: os) ss⟩
    | none =>
      -- The first node was left out, which it can only be where there is no slash behind it.
      obtain ⟨s, ss, rfl⟩ := List.exists_cons_of_ne_nil hne
      obtain ⟨ne, clean, -⟩ := hss s (List.mem_cons_self ..)
      have empty : os.filterMap id = [] := lone rfl
      have first : n.Takes (some s) := by
        cases n with
        | literal text => cases ho
        | named name optional => exact ⟨ne, clean⟩
        | rest => exact absurd (List.mem_cons_self ..) hr
      refine ⟨some s :: os ++ [restPiece ss], ⟨.cons first (behind hss.tail), nofun⟩, ?_⟩
      rw [joinSlash_concat_restPiece (some s :: os) ss]
      change joinSlash (s :: os.filterMap id ++ ss) = joinSlash (os.filterMap id ++ s :: ss)
      rw [empty]
      rfl

theorem segments_joinSlash_concat {ps : List (List Char)} (h : ∀ p ∈ ps, p ≠ [] ∧ '/' ∉ p)
    (o : Option (List Char)) :
    segments (joinSlash (ps ++ o.toList)) = ps ++ segments (o.getD []) := by
  cases o with
  | none =>
    have none_left : segments [] = [] := rfl
    rw [Option.toList_none, List.append_nil, segments_joinSlash h, Option.getD_none, none_left,
      List.append_nil]
  | some r =>
    by_cases hp : ps = []
    · rw [hp]
      rfl
    · rw [Option.toList_some, joinSlash_append hp (by simp), segments_append, segments_joinSlash h]
      rfl

/-- Where the other nodes have no pieces to spare, the rest takes all segments that are added, and
these then are of one line. -/
theorem lineFeed_notMem_of_cuts {nodes : List Node} {os : List (Option (List Char))}
    (hw : WellFormedNodes nodes) (hr : Node.rest ∉ nodes) (h : Cuts (nodes ++ [.rest]) os)
    {ps ss : List (List Char)} (hl : nodes.length ≤ ps.length)
    (hs : ∀ s ∈ ps ++ ss, s ≠ [] ∧ '/' ∉ s)
    (joined : joinSlash (ps ++ ss) = joinSlash (os.filterMap id)) : ∀ s ∈ ss, '\n' ∉ s := by
  obtain ⟨os, o, rfl, takes, ho⟩ := forall₂_concat h.takes
  have clean := segments_of_takes hw hr takes
  have single : [o].filterMap id = o.toList := by cases o <;> rfl
  have same := congrArg segments joined
  rw [List.filterMap_append, single, segments_joinSlash_concat clean, segments_joinSlash hs] at same
  -- The pieces of the other nodes are among the first segments, so all that is behind them is in
  -- the rest.
  have few : (os.filterMap id).length ≤ ps.length := by
    have pieces := List.length_filterMap_le id os
    have nodes_eq := takes.length_eq
    omega
  have line : '\n' ∉ o.getD [] := by
    cases o with
    | none => simp
    | some r => exact ho.2
  intro s mem
  have behind : ss <:+ segments (o.getD []) := by
    apply List.suffix_of_suffix_length_le ⟨ps, same⟩ ⟨os.filterMap id, rfl⟩
    have lengths := congrArg List.length same
    simp only [List.length_append] at lengths
    omega
  exact fun hc => line (mem_of_mem_segments (behind.subset mem) hc)

theorem exists_full_match {nodes : List Node} (hw : WellFormedNodes nodes)
    (hr : Node.rest ∉ nodes) :
    ∃ ps : List (List Char), Cuts nodes (ps.map some) ∧ ps.length = nodes.length := by
  have all : ∃ ps : List (List Char), List.Forall₂ Node.Takes nodes (ps.map some) := by
    induction nodes with
    | nil => exact ⟨[], .nil⟩
    | cons n nodes ih =>
      simp only [List.mem_cons, not_or] at hr
      obtain ⟨ps, hps⟩ := ih hw.2 hr.2
      cases n with
      | literal text => exact ⟨text.toList :: ps, .cons (caselessText_refl _) hps⟩
      | named name optional => exact ⟨['x'] :: ps, .cons (by simp [Node.Takes]) hps⟩
      | rest => exact absurd rfl hr.1
  obtain ⟨ps, takes⟩ := all
  refine ⟨ps, ⟨takes, ?_⟩, ?_⟩
  · cases ps <;> simp
  · simpa using takes.length_eq.symm

theorem filterMap_map_some (ps : List (List Char)) : (ps.map some).filterMap id = ps := by
  simp [List.filterMap_map]

section

variable [SizeLimit] {source : String} {nodes : List Node} {p : Pattern}

theorem accepts_root_iff (compiled : Pattern.compile source = .ok p) (root : p.nodes = rootNodes)
    {path : String} : p.Accepts path ↔ segments path.toList = [] := by
  rw [Pattern.accepts_iff compiled, root]
  constructor
  · intro matched
    obtain ⟨os, ⟨takes, -⟩, joined⟩ := matched
    obtain ⟨o, rfl, ho⟩ := takes_singleton takes
    have empty : joinSlash ([o].filterMap id) = [] := by
      cases o with
      | none => cases ho
      | some p =>
        cases p with
        | nil => rfl
        | cons c p => cases ho
    have split := congrArg segments (joined.trans empty)
    rwa [segments_joinSlash_segments] at split
  · intro split
    refine ⟨[some []], ⟨.cons rfl .nil, nofun⟩, ?_⟩
    rw [split]
    rfl

theorem accepts_iff_segments (hw : WellFormedNodes nodes) (hr : Node.rest ∉ nodes)
    (compiled : Pattern.compile source = .ok p) (same : p.nodes = nodes) {path : String} :
    p.Accepts path ↔ ∃ os, Cuts nodes os ∧ segments path.toList = os.filterMap id := by
  rw [Pattern.accepts_iff compiled, same]
  constructor
  · intro matched
    obtain ⟨os, cuts, joined⟩ := matched
    have split := congrArg segments joined
    rw [segments_joinSlash_segments, segments_joinSlash (segments_of_takes hw hr cuts.takes)]
      at split
    exact ⟨os, cuts, split⟩
  · intro taken
    obtain ⟨os, cuts, split⟩ := taken
    exact ⟨os, cuts, by rw [split]⟩

/-- The nodes in front of the rest where `/*` is put behind a pattern are those of the pattern, and
none for the root. The pattern matches a path just if they can take its segments. -/
theorem exists_nodes_before_rest (hp : Pattern.parse source = .ok nodes)
    (hl : nodes.getLast? ≠ some .rest) :
    ∃ base, WellFormedNodes base ∧ Node.rest ∉ base ∧
      Pattern.parse (source ++ "/*") = .ok (base ++ [.rest]) ∧
      ∀ p, Pattern.compile source = .ok p → ∀ path, p.Accepts path ↔
        ∃ os, Cuts base os ∧ segments path.toList = os.filterMap id := by
  rcases parse_concat_star hp hl with ⟨rfl, more⟩ | ⟨-, hw, more⟩
  · refine ⟨[], trivial, by simp, more, ?_⟩
    intro p compiled path
    rw [accepts_root_iff compiled (Pattern.nodes_of_compile compiled hp)]
    constructor
    · intro split
      exact ⟨[], ⟨.nil, nofun⟩, split⟩
    · intro taken
      obtain ⟨os, ⟨takes, -⟩, split⟩ := taken
      cases takes
      exact split
  · have hr := rest_notMem (.of_parse hp) hl
    refine ⟨nodes, hw, hr, more, ?_⟩
    intro p compiled path
    exact accepts_iff_segments hw hr compiled (Pattern.nodes_of_compile compiled hp)

end

/-- What is put behind the paths of a pattern is taken by a rest behind the pattern just if it is
all on one line. -/
theorem accepts_continuation_iff [SizeLimit] {base : List Node} (hw : WellFormedNodes base)
    (hr : Node.rest ∉ base) {narrow wide : Pattern} {source : String}
    (hn : ∀ path, narrow.Accepts path ↔
      ∃ os, Cuts base os ∧ segments path.toList = os.filterMap id)
    (compiled : Pattern.compile source = .ok wide) (nodes : wide.nodes = base ++ [.rest])
    {ss : List (List Char)} (hne : ss ≠ []) (hss : ∀ s ∈ ss, s ≠ [] ∧ '/' ∉ s) :
    (∀ path, narrow.Accepts path → wide.Accepts (path ++ String.ofList (trail ss))) ↔
      ∀ s ∈ ss, '\n' ∉ s := by
  have wider : ∀ path : String, wide.Accepts (path ++ String.ofList (trail ss)) ↔
      ∃ os, Cuts (base ++ [.rest]) os ∧
        joinSlash (segments path.toList ++ ss) = joinSlash (os.filterMap id) := by
    intro path
    rw [Pattern.accepts_iff compiled, nodes, String.toList_append, String.toList_ofList,
      segments_append_trail hne hss]
  constructor
  · intro kept
    obtain ⟨ps, cuts, full⟩ := exists_full_match hw hr
    have clean : ∀ p ∈ ps, p ≠ [] ∧ '/' ∉ p := by
      have taken := segments_of_takes hw hr cuts.takes
      rwa [filterMap_map_some] at taken
    have split : segments (String.ofList (joinSlash ps)).toList = ps := by
      rw [String.toList_ofList, segments_joinSlash clean]
    have matched : narrow.Accepts (String.ofList (joinSlash ps)) :=
      (hn _).2 ⟨ps.map some, cuts, by rw [split, filterMap_map_some]⟩
    obtain ⟨os, wide_cuts, joined⟩ := (wider _).1 (kept _ matched)
    rw [split] at joined
    have all_clean : ∀ s ∈ ps ++ ss, s ≠ [] ∧ '/' ∉ s := by
      intro s mem
      rcases List.mem_append.1 mem with mem | mem
      · exact clean s mem
      · exact hss s mem
    exact lineFeed_notMem_of_cuts hw hr wide_cuts (Nat.le_of_eq full.symm) all_clean joined
  · intro line path matched
    obtain ⟨os, cuts, split⟩ := (hn path).1 matched
    have lines : LineSegments ss := fun s mem => ⟨(hss s mem).1, (hss s mem).2, line s mem⟩
    obtain ⟨os', wide_cuts, joined⟩ := exists_cuts_concat_rest hr cuts hne lines
    refine (wider path).2 ⟨os', wide_cuts, ?_⟩
    rw [split, joined]

theorem accepts_star_iff [SizeLimit] {p : Pattern} (compiled : Pattern.compile "/*" = .ok p)
    {path : String} :
    p.Accepts path ↔ '\n' ∉ path.toList := by
  have read : Pattern.parse "/*" = .ok [.rest] := rfl
  rw [Pattern.accepts_iff compiled, Pattern.nodes_of_compile compiled read]
  constructor
  · intro matched
    obtain ⟨os, ⟨takes, -⟩, joined⟩ := matched
    obtain ⟨o, rfl, ho⟩ := takes_singleton takes
    intro feed
    have kept := mem_joinSlash_segments (by decide) feed
    rw [joined] at kept
    cases o with
    | none => cases kept
    | some r => exact ho.2 kept
  · intro line
    exact ⟨_, cuts_restPiece (lineSegments_segments line), (joinSlash_concat_restPiece [] _).symm⟩

section

variable [SizeLimit] {α : Type}

/-- Whether a pattern other than `/*` matches a path. -/
def OtherAccepts (rs : List (String × α)) (path : String) : Prop :=
  ∃ t ∈ rs, t.1 ≠ "/*" ∧ ∃ q, Pattern.compile t.1 = .ok q ∧ q.Accepts path

theorem exists_matches_of_mem {rs : List (String × α)} {path source : String} {data : α}
    {p : Pattern} (hp : Pattern.compile source = .ok p) (listed : (source, data) ∈ rs)
    (hit : p.Accepts path) : ∃ h, Matches rs path h ∧ h.source = source := by
  obtain ⟨i, route⟩ := List.mem_iff_getElem?.1 listed
  obtain ⟨params, captured⟩ := Option.isSome_iff_exists.1 hit
  exact ⟨⟨i, source, data, params⟩, ⟨route, p, hp, captured⟩, rfl⟩

theorem exists_matches_iff {rs : List (String × α)} {path : String} :
    (∃ h, Matches rs path h) ↔ ∃ t ∈ rs, ∃ q, Pattern.compile t.1 = .ok q ∧ q.Accepts path := by
  constructor
  · intro matched
    obtain ⟨h, route, q, compiled, captured⟩ := matched
    refine ⟨_, List.mem_of_getElem? route, q, compiled, ?_⟩
    rw [Pattern.Accepts, captured]
    rfl
  · intro accepted_by
    obtain ⟨t, listed, q, compiled, accepted⟩ := accepted_by
    obtain ⟨h, matched, -⟩ := exists_matches_of_mem compiled listed accepted
    exact ⟨h, matched⟩

theorem IsFound.exists_iff {rs : List (String × α)} {path : String} {found : Option (RouteHit α)}
    (hf : IsFound rs path found) : (∃ h, found = some h) ↔ ∃ h, Matches rs path h := by
  cases found with
  | none =>
    refine ⟨nofun, ?_⟩
    intro matched
    obtain ⟨h, hm⟩ := matched
    exact absurd hm (hf h)
  | some h => exact ⟨fun _ => ⟨h, hf.holds⟩, fun _ => ⟨h, rfl⟩⟩

theorem exists_matches_iff_of_star {rs : List (String × α)} {data : α}
    (h : ("/*", data) ∈ rs) {p : Pattern} (star : Pattern.compile "/*" = .ok p) {path : String} :
    (∃ hit, Matches rs path hit) ↔ '\n' ∉ path.toList ∨ OtherAccepts rs path := by
  rw [exists_matches_iff]
  constructor
  · intro accepted_by
    obtain ⟨t, mem, q, compiled, accepted⟩ := accepted_by
    by_cases same : t.1 = "/*"
    · rw [same] at compiled
      exact .inl ((accepts_star_iff compiled).1 accepted)
    · exact .inr ⟨t, mem, same, q, compiled, accepted⟩
  · intro accepted_by
    rcases accepted_by with line | ⟨t, mem, -, accepted⟩
    · exact ⟨_, h, p, star, (accepts_star_iff star).2 line⟩
    · exact ⟨t, mem, accepted⟩

/-- A pattern with `/*` behind it matches what the pattern matches with any segments behind it, as
long as these are all on one line; that the pattern alone is small enough is up to the limit. A
router with `/*` finds a route for a path just if the path is all on one line or another pattern
matches it. -/
theorem rest_captures_lines_iff [Describe α] :
    (∀ source nodes, Pattern.parse source = .ok nodes → nodes.getLast? ≠ some .rest →
      (∃ more, Pattern.parse (source ++ "/*") = .ok more) ∧
      ∀ wide, Pattern.compile (source ++ "/*") = .ok wide →
        SizeLimit.admits (Expression.textOf nodes) = true →
          ∃ narrow, Pattern.compile source = .ok narrow ∧
            ∀ ss : List (List Char), ss ≠ [] → (∀ s ∈ ss, s ≠ [] ∧ '/' ∉ s) →
              ((∀ path, narrow.Accepts path → wide.Accepts (path ++ String.ofList (trail ss))) ↔
                ∀ s ∈ ss, '\n' ∉ s)) ∧
    (∀ (as : List (RouterStep α)) (name path : String) (data : α),
      let s := ((RouterSession.empty : RouterSession α).run as).2
      let rs := (s.router name).toList
      ("/*", data) ∈ rs →
        ((∃ h, (s.step (.find name path)).1 = .found (some h)) ↔
          '\n' ∉ path.toList ∨ OtherAccepts rs path)) ∧
    ∀ (s : HttpSession α) (endpoint : Endpoint α) (m : Method) (path : String) (headers : Headers),
      let rs := s.router.routes.toList
      s.Reachable → ("/*", endpoint) ∈ rs →
        ((s.router.resolve m path headers s.workspace).1 ≠ .notFound ↔
          '\n' ∉ path.toList ∨ OtherAccepts rs path) := by
  refine ⟨?_, ?_, ?_⟩
  · intro source nodes hp hl
    obtain ⟨base, hw, hr, more, accepts⟩ := exists_nodes_before_rest hp hl
    refine ⟨⟨_, more⟩, ?_⟩
    intro wide compiled small
    have narrow := Pattern.compile_eq_ok.2 ⟨nodes, hp, small, rfl⟩
    refine ⟨_, narrow, ?_⟩
    intro ss hne hss
    have wide_nodes := Pattern.nodes_of_compile compiled more
    exact accepts_continuation_iff hw hr (accepts _ narrow) compiled wide_nodes hne hss
  · intro as name path data s rs mem
    have kept := RouterSession.keeps_run (RouterSession.keeps_empty (α := α)) as
    have routes : rs = _ := kept.routes name
    obtain ⟨found, reply, hf⟩ := RouterSession.answers_step kept (.find name path)
    rw [← routes] at hf
    obtain ⟨p, star⟩ := Router.exists_compile_of_mem (kept.valid name) mem
    rw [reply, ← exists_matches_iff_of_star mem star, ← hf.exists_iff]
    simp only [RouterReply.found.injEq]
  · intro s endpoint m path headers rs hs mem
    have d := HttpRouter.isResolution_resolve hs.valid.routes m path headers s.workspace
    obtain ⟨p, star⟩ := Router.exists_compile_of_mem hs.valid.routes mem
    rw [Ne, d.notFound_iff, not_forall_not, exists_matches_iff_of_star mem star]

end

open Unlimited

theorem compile_star : Pattern.compile "/*" =
    .ok ⟨"/*", [.rest], .build [.rest], [Node.kind .rest]⟩ :=
  Pattern.compile_eq_ok.2 ⟨[.rest], rfl, rfl, rfl⟩

/-- The paths below `/:a?` with a segment more are matched by `/:a?/*`, unless the segment has a
line feed; and a router with `/*` finds its route for any line. -/
theorem rest_captures_lines_iff_optional :
    (∃ narrow wide, Pattern.compile "/:a?" = .ok narrow ∧ Pattern.compile "/:a?/*" = .ok wide ∧
      (∀ path, narrow.Accepts path → wide.Accepts (path ++ "/x")) ∧
      ¬∀ path, narrow.Accepts path → wide.Accepts (path ++ "/x\ny")) ∧
    ∃ h, (((RouterSession.empty : RouterSession Nat).run [.insert "r" "/*" 1 false]).2.step
      (.find "r" "/x/y")).1 = .found (some h) := by
  obtain ⟨patterns, routers, -⟩ := rest_captures_lines_iff (α := Nat)
  constructor
  · have read : Pattern.parse "/:a?" = .ok [.named "a" true] := rfl
    have more : Pattern.parse ("/:a?" ++ "/*") = .ok [.named "a" true, .rest] := rfl
    obtain ⟨-, compiled⟩ := patterns "/:a?" _ read (by decide)
    have wide := Pattern.compile_eq_ok.2 ⟨_, more, rfl, rfl⟩
    obtain ⟨narrow, hn, accepts⟩ := compiled _ wide rfl
    refine ⟨narrow, _, hn, wide, ?_, ?_⟩
    · exact (accepts [['x']] (by decide) (by decide)).2 (by decide)
    · intro kept
      have line := (accepts [['x', '\n', 'y']] (by decide) (by decide)).1 kept
      exact absurd line (by decide)
  · have registered : ("/*", 1) ∈ (((RouterSession.empty : RouterSession Nat).run
        [.insert "r" "/*" 1 false]).2.router "r").toList := by
      rw [(RouterSession.keeps_run RouterSession.keeps_empty _).routes]
      simp [Registry.run, Registry.step, compile_star, Registry.set]
    exact (routers _ "r" "/x/y" 1 registered).2 (.inl (by decide))

/-- A continuation with a line feed is not captured: `/*` does not match it, though the root matches
the path that it continues. -/
theorem line_feed_not_captured :
    ¬∀ (source path : String) (nodes : List Node) (narrow wide : Pattern) (ss : List (List Char)),
      Pattern.parse source = .ok nodes → nodes.getLast? ≠ some .rest →
      Pattern.compile source = .ok narrow → Pattern.compile (source ++ "/*") = .ok wide →
      ss ≠ [] → (∀ s ∈ ss, s ≠ [] ∧ '/' ∉ s) →
      narrow.Accepts path → wide.Accepts (path ++ String.ofList (trail ss)) := by
  intro always
  have read : Pattern.parse "" = .ok rootNodes := rfl
  have root := Pattern.compile_eq_ok.2 ⟨_, read, rfl, rfl⟩
  have matched : Pattern.Accepts ⟨"", rootNodes, .build rootNodes, _⟩ "" :=
    (Pattern.accepts_iff root).2 ⟨[some []], ⟨.cons rfl .nil, nofun⟩, rfl⟩
  have captured := always "" "" rootNodes _ _ [['a', '\n', 'b']] read (by decide) root compile_star
    (by decide) (by decide) matched
  exact (accepts_star_iff compile_star).1 captured (by decide)

end PatternRouter
