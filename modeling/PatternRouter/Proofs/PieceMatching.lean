import Mathlib.Data.List.Forall2
import PatternRouter.Proofs.Omission

namespace PatternRouter

/-- Whether a node can take a piece of a text, or be left out where there is no piece for it. -/
def Node.Takes : Node → Option (List Char) → Prop
  | literal text, some p => caselessText text.toList p = true
  | named _ _, some p => p ≠ [] ∧ '/' ∉ p
  | rest, some p => p ≠ [] ∧ '\n' ∉ p
  | n, none => n.isMandatory = false

theorem Node.takes_none_iff {n : Node} : n.Takes none ↔ n.isMandatory = false := by
  cases n <;> exact Iff.rfl

/-- A piece as it stands in a text, with a slash before it unless it is the first. -/
def placed (first : Bool) : Option (List Char) → List Char
  | none => []
  | some p => if first then p else '/' :: p

def Node.addGroup (n : Node) (o : Option (List Char)) (gs : Groups) : Groups :=
  if n.isCapture then o :: gs else gs

/-- What nodes bind when they take these pieces. -/
def bindPieces (ns : List Node) (os : List (Option (List Char))) : Bindings :=
  (ns.zip os).filterMap fun x => x.1.parameter?.map (·, x.2)

theorem bindPieces_cons_none {n : Node} (h : n.parameter? = none) (ns : List Node)
    (o : Option (List Char)) (os : List (Option (List Char))) :
    bindPieces (n :: ns) (o :: os) = bindPieces ns os := by
  simp [bindPieces, h]

theorem bindPieces_cons_some {n : Node} {name : String} (h : n.parameter? = some name)
    (ns : List Node) (o : Option (List Char)) (os : List (Option (List Char))) :
    bindPieces (n :: ns) (o :: os) = (name, o) :: bindPieces ns os := by
  simp [bindPieces, h]

theorem map_fst_bindPieces {R : Node → Option (List Char) → Prop} {ns : List Node}
    {os : List (Option (List Char))} (h : List.Forall₂ R ns os) :
    (bindPieces ns os).map Prod.fst = ns.filterMap Node.parameter? := by
  induction h with
  | nil => rfl
  | @cons n o ns os _ _ ih =>
    cases hn : n.parameter? with
    | none => rw [bindPieces_cons_none hn, ih, List.filterMap_cons_none hn]
    | some name => rw [bindPieces_cons_some hn, List.map_cons, ih, List.filterMap_cons_some hn]

theorem length_bindPieces {R : Node → Option (List Char) → Prop} {ns : List Node}
    {os : List (Option (List Char))} (h : List.Forall₂ R ns os) :
    (bindPieces ns os).length = ns.countP Node.isCapture := by
  have names := congrArg List.length (map_fst_bindPieces h)
  rw [List.length_map, List.length_filterMap_eq_countP] at names
  exact names

theorem values_bindPieces_cons (n : Node) (ns : List Node) (o : Option (List Char))
    (os : List (Option (List Char))) :
    (bindPieces (n :: ns) (o :: os)).values = n.addGroup o (bindPieces ns os).values := by
  cases n <;> rfl

theorem placed_trail (o : Option (List Char)) (os : List (Option (List Char))) :
    placed false o ++ trail (os.filterMap id) = trail ((o :: os).filterMap id) := by
  cases o <;> rfl

/-- Without a piece of the first node there may be none of the others. -/
theorem placed_joinSlash {o : Option (List Char)} {os : List (Option (List Char))}
    (h : o = none → os.filterMap id = []) :
    placed true o ++ trail (os.filterMap id) = joinSlash ((o :: os).filterMap id) := by
  cases o with
  | none =>
    change trail (os.filterMap id) = joinSlash (os.filterMap id)
    rw [h rfl]
    rfl
  | some p =>
    change p ++ trail (os.filterMap id) = joinSlash (p :: os.filterMap id)
    rw [joinSlash_cons]

theorem shortest_eq_some {avoid : Char} {k : Continuation} {s : List Char}
    {r : List Char × Groups} (h : shortest avoid k s = some r) :
    ∃ t, s = r.1 ++ t ∧ r.1 ≠ [] ∧ avoid ∉ r.1 ∧ k t = some r.2 := by
  induction s generalizing r with
  | nil => cases h
  | cons c s ih =>
    by_cases hc : c = avoid
    · simp [shortest, hc] at h
    have clean : avoid ∉ [c] := by simpa using Ne.symm hc
    rw [shortest, if_neg hc] at h
    cases hk : k s with
    | some g =>
      rw [hk] at h
      obtain rfl := Option.some.inj h
      exact ⟨s, rfl, by simp, clean, hk⟩
    | none =>
      rw [hk] at h
      obtain ⟨q, hq, rfl⟩ := Option.map_eq_some_iff.1 h
      obtain ⟨t, rfl, -, ha, ht⟩ := ih hq
      exact ⟨t, rfl, by simp, by simp [ha, Ne.symm hc], ht⟩

theorem longest_eq_some {avoid : Char} {k : Continuation} {s : List Char}
    {r : List Char × Groups} (h : longest avoid k s = some r) :
    ∃ t, s = r.1 ++ t ∧ r.1 ≠ [] ∧ avoid ∉ r.1 ∧ k t = some r.2 := by
  induction s generalizing r with
  | nil => cases h
  | cons c s ih =>
    by_cases hc : c = avoid
    · simp [longest, hc] at h
    have clean : avoid ∉ [c] := by simpa using Ne.symm hc
    rw [longest, if_neg hc] at h
    cases hl : longest avoid k s with
    | some q =>
      rw [hl] at h
      obtain rfl := Option.some.inj h
      obtain ⟨t, rfl, -, ha, ht⟩ := ih hl
      exact ⟨t, rfl, by simp, by simp [ha, Ne.symm hc], ht⟩
    | none =>
      rw [hl] at h
      obtain ⟨g, hg, rfl⟩ := Option.map_eq_some_iff.1 h
      exact ⟨s, rfl, by simp, clean, hg⟩

theorem char_eq_some {c : Char} {k : Continuation} {s : List Char} {gs : Groups}
    (h : (Expr.char c).eval k s = some gs) :
    ∃ d t, s = d :: t ∧ caseless c d = true ∧ k t = some gs := by
  cases s with
  | nil => cases h
  | cons d t =>
    change (if caseless c d = true then k t else none) = some gs at h
    by_cases hd : caseless c d = true
    · rw [if_pos hd] at h
      exact ⟨d, t, rfl, hd, h⟩
    · rw [if_neg hd] at h
      cases h

theorem textThen_eq_some {u : List Char} {k : Continuation} {s : List Char} {gs : Groups}
    (h : textThen u k s = some gs) :
    ∃ p t, s = p ++ t ∧ caselessText u p = true ∧ k t = some gs := by
  induction u generalizing s with
  | nil => exact ⟨[], s, rfl, rfl, h⟩
  | cons c u ih =>
    obtain ⟨d, s, rfl, hd, h⟩ := char_eq_some h
    obtain ⟨p, t, rfl, hp, ht⟩ := ih h
    refine ⟨d :: p, t, rfl, ?_, ht⟩
    simp [caselessText, hd, hp]

theorem slashThen_eq_some {first : Bool} {k : Continuation} {s : List Char} {gs : Groups}
    (h : slashThen first k s = some gs) : ∃ t, k t = some gs ∧
      ∀ p u, t = p ++ u → s = placed first (some p) ++ u := by
  cases first
  · obtain ⟨d, t, rfl, hd, ht⟩ := char_eq_some h
    obtain rfl := (slash_caseless d).1 hd
    refine ⟨t, ht, ?_⟩
    rintro p u rfl
    rfl
  · exact ⟨s, h, fun p u same => same⟩

theorem takes_of_eval {first : Bool} {n : Node} {k : Continuation} {s : List Char} {gs : Groups}
    (h : n.eval first k s = some gs) :
    ∃ o t hs, n.Takes o ∧ s = placed first o ++ t ∧ k t = some hs ∧ gs = n.addGroup o hs := by
  have segment : ∀ name optional, slashThen first (segmentThen k) s = some gs →
      ∃ o t hs, (Node.named name optional).Takes o ∧ s = placed first o ++ t ∧ k t = some hs ∧
        gs = o :: hs := by
    intro name optional h
    obtain ⟨t, ht, whole⟩ := slashThen_eq_some h
    obtain ⟨r, hr, rfl⟩ := Option.map_eq_some_iff.1 ht
    obtain ⟨u, hu, ne, clean, hk⟩ := shortest_eq_some hr
    exact ⟨some r.1, u, r.2, ⟨ne, clean⟩, whole r.1 u hu, hk, rfl⟩
  cases n with
  | literal text =>
    obtain ⟨t, ht, whole⟩ := slashThen_eq_some h
    obtain ⟨p, u, hu, hp, hk⟩ := textThen_eq_some ht
    exact ⟨some p, u, gs, hp, whole p u hu, hk, rfl⟩
  | named name optional =>
    cases optional
    · exact segment name false h
    · rcases Option.or_eq_some_iff.1 h with h | ⟨-, h⟩
      · exact segment name true h
      · obtain ⟨hs, hk, rfl⟩ := Option.map_eq_some_iff.1 h
        exact ⟨none, s, hs, rfl, rfl, hk, rfl⟩
  | rest =>
    rcases Option.or_eq_some_iff.1 h with h | ⟨-, h⟩
    · obtain ⟨t, ht, whole⟩ := slashThen_eq_some h
      obtain ⟨r, hr, rfl⟩ := Option.map_eq_some_iff.1 ht
      obtain ⟨u, hu, ne, clean, hk⟩ := longest_eq_some hr
      exact ⟨some r.1, u, r.2, ⟨ne, clean⟩, whole r.1 u hu, hk, rfl⟩
    · obtain ⟨hs, hk, rfl⟩ := Option.map_eq_some_iff.1 h
      exact ⟨none, s, hs, rfl, rfl, hk, rfl⟩

theorem takes_of_evalNodes {ns : List Node} {s : List Char} {gs : Groups}
    (h : evalNodes ns s = some gs) :
    ∃ os, List.Forall₂ Node.Takes ns os ∧ s = trail (os.filterMap id) ∧
      gs = (bindPieces ns os).values := by
  induction ns generalizing s gs with
  | nil =>
    cases s with
    | nil =>
      obtain rfl := Option.some.inj h
      exact ⟨[], .nil, rfl, rfl⟩
    | cons c s => cases h
  | cons n ns ih =>
    -- Each node takes a piece off the front, or none, and the rest of the text is left to the
    -- others.
    obtain ⟨o, t, hs, ho, rfl, hk, rfl⟩ := takes_of_eval h
    obtain ⟨os, hos, rfl, rfl⟩ := ih hk
    exact ⟨o :: os, .cons ho hos, placed_trail o os, (values_bindPieces_cons n ns o os).symm⟩

/-- The text that pieces make up, with a slash before each but that of the first node. -/
def wholeOf : List (Option (List Char)) → List Char
  | [] => []
  | o :: os => placed true o ++ trail (os.filterMap id)

theorem takes_of_runNodes {nodes : List Node} {s : List Char} {gs : Groups}
    (h : runNodes nodes s = some gs) :
    ∃ os, List.Forall₂ Node.Takes nodes os ∧ s = wholeOf os ∧
      gs = (bindPieces nodes os).values := by
  cases nodes with
  | nil =>
    have whole : evalNodes [] s = some gs := h
    obtain ⟨os, hos, rfl, rfl⟩ := takes_of_evalNodes whole
    cases hos
    exact ⟨[], .nil, rfl, rfl⟩
  | cons n ns =>
    obtain ⟨o, t, hs, ho, rfl, hk, rfl⟩ := takes_of_eval h
    obtain ⟨os, hos, rfl, rfl⟩ := takes_of_evalNodes hk
    exact ⟨o :: os, .cons ho hos, rfl, (values_bindPieces_cons n ns o os).symm⟩

/-- Whether the nodes of a pattern can take these pieces of a normal path. The first node has no
slash to take along, so it can be left out only where all nodes are. -/
structure Cuts (nodes : List Node) (os : List (Option (List Char))) : Prop where
  takes : List.Forall₂ Node.Takes nodes os
  lone : os.head? = some none → os.filterMap id = []

theorem Cuts.wholeOf_eq {nodes : List Node} {os : List (Option (List Char))}
    (h : Cuts nodes os) : wholeOf os = joinSlash (os.filterMap id) := by
  cases os with
  | nil => rfl
  | cons o os =>
    apply placed_joinSlash
    rintro rfl
    exact h.lone rfl

theorem cuts_of_runNodes {nodes : List Node} {s : List Char} {gs : Groups}
    (hs : s.head? ≠ some '/') (h : runNodes nodes s = some gs) :
    ∃ os, Cuts nodes os ∧ s = joinSlash (os.filterMap id) ∧
      gs = (bindPieces nodes os).values := by
  obtain ⟨os, takes, rfl, rfl⟩ := takes_of_runNodes h
  cases os with
  | nil => exact ⟨[], ⟨takes, nofun⟩, rfl, rfl⟩
  | cons o os =>
    have lone : o = none → os.filterMap id = [] := by
      -- With the first node left out, what follows would start with a slash.
      intro absent
      subst absent
      cases hp : os.filterMap id with
      | nil => rfl
      | cons p ps =>
        rw [wholeOf, hp] at hs
        exact absurd rfl hs
    refine ⟨o :: os, ⟨takes, ?_⟩, placed_joinSlash lone, rfl⟩
    intro absent
    obtain rfl := Option.some.inj absent
    exact lone rfl

theorem slashThen_placed (first : Bool) (k : Continuation) (p t : List Char) :
    slashThen first k (placed first (some p) ++ t) = k (p ++ t) := by
  cases first
  · exact slashThen_slash k (p ++ t)
  · rfl

theorem textThen_of_caselessText {u p : List Char} (h : caselessText u p = true)
    (k : Continuation) (t : List Char) : textThen u k (p ++ t) = k t := by
  induction u generalizing p with
  | nil =>
    cases p with
    | nil => rfl
    | cons d p => cases h
  | cons c u ih =>
    cases p with
    | nil => cases h
    | cons d p =>
      simp only [caselessText, Bool.and_eq_true] at h
      change (if caseless c d = true then textThen u k (p ++ t) else none) = k t
      rw [if_pos h.1, ih h.2]

theorem eval_isSome_of_takes {first : Bool} {n : Node} {k : Continuation}
    {o : Option (List Char)} {t : List Char} (ho : n.Takes o) (hk : (k t).isSome = true) :
    (n.eval first k (placed first o ++ t)).isSome = true := by
  have segment : ∀ p : List Char, p ≠ [] → '/' ∉ p →
      (slashThen first (segmentThen k) (placed first (some p) ++ t)).isSome = true := by
    intro p ne clean
    rw [slashThen_placed, segmentThen, Option.isSome_map]
    exact (shortest_isSome_iff ..).2 ⟨p, t, rfl, ne, clean, hk⟩
  cases n with
  | literal text =>
    cases o with
    | none => cases ho
    | some p =>
      change (slashThen first (textThen text.toList k) (placed first (some p) ++ t)).isSome = true
      rw [slashThen_placed, textThen_of_caselessText ho]
      exact hk
  | named name optional =>
    cases o with
    | none =>
      cases optional
      · cases ho
      · exact within_orAbsent _ k t hk
    | some p =>
      have taken := segment p ho.1 ho.2
      cases optional
      · exact taken
      · rw [Node.eval, orAbsent, Option.isSome_or, taken, Bool.true_or]
  | rest =>
    cases o with
    | none => exact within_orAbsent _ k t hk
    | some p =>
      have taken : (remainderThen k (p ++ t)).isSome = true := by
        rw [remainderThen, Option.isSome_map, longest_isSome_iff]
        exact (shortest_isSome_iff ..).2 ⟨p, t, rfl, ho.1, ho.2, hk⟩
      rw [Node.eval, orAbsent, slashThen_placed, Option.isSome_or, taken, Bool.true_or]

/-- Pieces that nodes can take make a match. -/
theorem evalNodes_isSome_of_takes {ns : List Node} {os : List (Option (List Char))}
    (h : List.Forall₂ Node.Takes ns os) :
    (evalNodes ns (trail (os.filterMap id))).isSome = true := by
  induction h with
  | nil => rfl
  | @cons n o ns os ho _ ih =>
    rw [← placed_trail]
    exact eval_isSome_of_takes ho ih

theorem runNodes_isSome_of_takes {nodes : List Node} {os : List (Option (List Char))}
    (h : List.Forall₂ Node.Takes nodes os) : (runNodes nodes (wholeOf os)).isSome = true := by
  cases h with
  | nil => rfl
  | cons ho hos => exact eval_isSome_of_takes ho (evalNodes_isSome_of_takes hos)

theorem runNodes_isSome_of_cuts {nodes : List Node} {os : List (Option (List Char))}
    (h : Cuts nodes os) : (runNodes nodes (joinSlash (os.filterMap id))).isSome = true := by
  rw [← h.wholeOf_eq]
  exact runNodes_isSome_of_takes h.takes

/-- A normal path matches just if it is made of pieces that the nodes can take. -/
theorem runNodes_isSome_iff {nodes : List Node} {s : List Char} (hs : s.head? ≠ some '/') :
    (runNodes nodes s).isSome = true ↔
      ∃ os, Cuts nodes os ∧ s = joinSlash (os.filterMap id) := by
  constructor
  · intro h
    obtain ⟨gs, run⟩ := Option.isSome_iff_exists.1 h
    obtain ⟨os, cuts, whole, -⟩ := cuts_of_runNodes hs run
    exact ⟨os, cuts, whole⟩
  · intro made
    obtain ⟨os, cuts, rfl⟩ := made
    exact runNodes_isSome_of_cuts cuts

/-- Whether only the last node can capture the rest. -/
def RestLast : List Node → Prop
  | [] => True
  | n :: ns => (n = .rest → ns = []) ∧ RestLast ns

theorem RestLast.of_wellFormed {ns : List Node} (h : WellFormedNodes ns) : RestLast ns := by
  induction ns with
  | nil => trivial
  | cons n ns ih =>
    refine ⟨?_, ih h.2⟩
    intro same
    subst same
    exact h.tail_nil

theorem RestLast.of_parse {source : String} {ns : List Node}
    (h : Pattern.parse source = .ok ns) : RestLast ns := by
  rcases root_or_wellFormed_of_parse h with rfl | ⟨-, hw⟩
  · simp [rootNodes, RestLast]
  · exact .of_wellFormed hw

/-- Whether a node takes a piece, where only the rest can be left out. -/
def Node.TakesAll (n : Node) (o : Option (List Char)) : Prop := n.Takes o ∧ (o = none → n = .rest)

theorem eval_eq_of_takesAll {first : Bool} {n : Node} {ns : List Node} {o : Option (List Char)}
    {ps : List (List Char)} {gs : Groups} (hl : n = .rest → ns = []) (ho : n.TakesAll o)
    (hp : ns = [] → ps = []) (hk : evalNodes ns (trail ps) = some gs) :
    n.eval first (evalNodes ns) (placed first o ++ trail ps) = some (n.addGroup o gs) := by
  have blocked := blocked_evalNodes ns
  cases n with
  | literal text =>
    cases o with
    | none => cases ho.1
    | some p =>
      rw [Node.eval, slashThen_placed, textThen_of_caselessText ho.1, hk]
      rfl
  | named name optional =>
    cases o with
    | none => cases ho.2 rfl
    | some p =>
      have taken : slashThen first (segmentThen (evalNodes ns))
          (placed first (some p) ++ trail ps) = some (some p :: gs) := by
        rw [slashThen_placed, segmentThen_append blocked ho.1.1 ho.1.2, hk]
        rfl
      cases optional
      · exact taken
      · rw [Node.eval, orAbsent, taken]
        rfl
  | rest =>
    obtain rfl := hl rfl
    obtain rfl := hp rfl
    obtain rfl := Option.some.inj hk
    cases o with
    | none => cases first <;> rfl
    | some p =>
      rw [trail_nil, List.append_nil]
      have taken := remainderThen_atEnd ho.1.1 ho.1.2
      have placed := slashThen_placed first (remainderThen atEnd) p []
      rw [List.append_nil, List.append_nil] at placed
      change (slashThen first (remainderThen atEnd) _).or _ = _
      rw [placed, taken]
      rfl

/-- Where every node but the rest takes a piece, the match binds just these pieces. -/
theorem evalNodes_eq_of_takesAll {ns : List Node} {os : List (Option (List Char))}
    (hl : RestLast ns) (h : List.Forall₂ Node.TakesAll ns os) :
    evalNodes ns (trail (os.filterMap id)) = some (bindPieces ns os).values := by
  induction h with
  | nil => rfl
  | @cons n o ns os ho h ih =>
    rw [← placed_trail, values_bindPieces_cons]
    apply eval_eq_of_takesAll hl.1 ho ?_ (ih hl.2)
    rintro rfl
    cases h
    rfl

theorem runNodes_eq_of_takesAll {nodes : List Node} {os : List (Option (List Char))}
    (hl : RestLast nodes) (h : List.Forall₂ Node.TakesAll nodes os) :
    runNodes nodes (joinSlash (os.filterMap id)) = some (bindPieces nodes os).values := by
  cases h with
  | nil => rfl
  | @cons n o ns os ho h =>
    have lone : o = none → os.filterMap id = [] := by
      intro absent
      obtain rfl := hl.1 (ho.2 absent)
      cases h
      rfl
    rw [← placed_joinSlash lone, values_bindPieces_cons]
    apply eval_eq_of_takesAll hl.1 ho ?_ (evalNodes_eq_of_takesAll hl.2 h)
    rintro rfl
    cases h
    rfl

end PatternRouter
