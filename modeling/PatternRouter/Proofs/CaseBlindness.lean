import Mathlib.Data.List.Forall2
import PatternRouter.Proofs.LetterCase
import PatternRouter.Proofs.NodeMatching
import PatternRouter.Proofs.Normalization

namespace PatternRouter

/-- A stretch of a text: where it starts, and how many characters it has. -/
structure Span where
  start : Nat
  length : Nat

namespace Span

def of (p : Span) (s : List Char) : List Char := (s.drop p.start).take p.length

def Inside (p : Span) (s : List Char) : Prop := 0 < p.length ∧ p.start + p.length ≤ s.length

/-- The same stretch with one more character in front of the text. -/
def next (p : Span) : Span := { p with start := p.start + 1 }

theorem Inside.next {p : Span} {s : List Char} (h : p.Inside s) (c : Char) :
    p.next.Inside (c :: s) := by
  obtain ⟨some, bound⟩ := h
  refine ⟨some, ?_⟩
  change p.start + 1 + p.length ≤ s.length + 1
  omega

end Span

/-- The groups that stand at these places of a text. -/
def groupsAt (s : List Char) (ps : List (Option Span)) : Groups := ps.map (·.map (·.of s))

def nextSpans (ps : List (Option Span)) : List (Option Span) := ps.map (·.map Span.next)

def AllInside (s : List Char) (ps : List (Option Span)) : Prop := ∀ p, some p ∈ ps → p.Inside s

theorem groupsAt_nextSpans (c : Char) (s : List Char) (ps : List (Option Span)) :
    groupsAt (c :: s) (nextSpans ps) = groupsAt s ps := by
  rw [groupsAt, nextSpans, List.map_map, groupsAt]
  apply List.map_congr_left
  intro o _
  cases o <;> rfl

theorem AllInside.next {s : List Char} {ps : List (Option Span)} (h : AllInside s ps) (c : Char) :
    AllInside (c :: s) (nextSpans ps) := by
  intro p hp
  obtain ⟨o, ho, same⟩ := List.mem_map.1 hp
  obtain ⟨q, rfl, rfl⟩ := Option.map_eq_some_iff.1 same
  exact (h q ho).next c

theorem AllInside.cons {s : List Char} {ps : List (Option Span)} (h : AllInside s ps)
    {o : Option Span} (ho : ∀ p ∈ o, p.Inside s) : AllInside s (o :: ps) := by
  intro p hp
  rcases List.mem_cons.1 hp with same | hp
  · exact ho p same.symm
  · exact h p hp

/-- Whether `k` captures at the same places from all texts that differ in letter case alone. -/
def CaseBlind (k : Continuation) : Prop := ∀ s, ∃ r : Option (List (Option Span)),
  (∀ ps ∈ r, AllInside s ps) ∧ ∀ t, caselessText s t = true → k t = r.map (groupsAt t)

/-- Whether `f` takes as many characters from all texts that differ in letter case alone, and then
captures at the same places. -/
def TakesBlind (f : List Char → Option (List Char × Groups)) (s : List Char) : Prop :=
  ∃ r : Option (Nat × List (Option Span)),
    (∀ x ∈ r, 0 < x.1 ∧ x.1 ≤ s.length ∧ AllInside s x.2) ∧
    ∀ t, caselessText s t = true → f t = r.map fun x => (t.take x.1, groupsAt t x.2)

/-- Whether a character differs from no other in letter case alone. -/
def IsMark (c : Char) : Prop := ∀ d, caseless d c = true ↔ d = c

theorem isMark_slash : IsMark '/' := caseless_slash

theorem isMark_lineFeed : IsMark '\n' := fun _ => caseless_mark (by decide) (by decide)

theorem caselessText_nil {t : List Char} (h : caselessText [] t = true) : t = [] := by
  cases t with
  | nil => rfl
  | cons d t => cases h

theorem caselessText_cons {c : Char} {s t : List Char} (h : caselessText (c :: s) t = true) :
    ∃ d u, t = d :: u ∧ caseless c d = true ∧ caselessText s u = true := by
  cases t with
  | nil => cases h
  | cons d u =>
    obtain ⟨hd, hu⟩ := Bool.and_eq_true_iff.1 h
    exact ⟨d, u, rfl, hd, hu⟩

theorem IsMark.eq_iff {a c d : Char} (ha : IsMark a) (h : caseless c d = true) :
    d = a ↔ c = a := by
  rw [← ha d, ← ha c]
  exact ⟨caseless_trans h, caseless_trans (caseless_symm h)⟩

theorem caseless_congr {a c d : Char} (h : caseless c d = true) :
    caseless a d = true ↔ caseless a c = true :=
  ⟨fun k => caseless_trans k (caseless_symm h), fun k => caseless_trans k h⟩

theorem caseBlind_atEnd : CaseBlind atEnd := by
  intro s
  cases s with
  | nil =>
    refine ⟨some [], ?_, ?_⟩
    · intro ps hps
      obtain rfl := Option.some.inj hps
      intro p hp
      cases hp
    · intro t h
      obtain rfl := caselessText_nil h
      rfl
  | cons c s =>
    refine ⟨none, nofun, ?_⟩
    intro t h
    obtain ⟨d, u, rfl, -, -⟩ := caselessText_cons h
    rfl

theorem caseBlind_char (c : Char) {k : Continuation} (hk : CaseBlind k) :
    CaseBlind ((Expr.char c).eval k) := by
  intro s
  cases s with
  | nil =>
    refine ⟨none, nofun, ?_⟩
    intro t h
    obtain rfl := caselessText_nil h
    rfl
  | cons x s =>
    obtain ⟨r, inside, same⟩ := hk s
    -- Caseless characters are caseless to the same ones, so the first letter does not matter.
    by_cases hx : caseless c x = true
    · refine ⟨r.map nextSpans, ?_, ?_⟩
      · intro ps hps
        obtain ⟨qs, hqs, rfl⟩ := Option.map_eq_some_iff.1 hps
        exact (inside qs hqs).next x
      · intro t h
        obtain ⟨y, u, rfl, hy, hu⟩ := caselessText_cons h
        change (if caseless c y = true then k u else none) = _
        rw [if_pos ((caseless_congr hy).2 hx), same u hu, Option.map_map]
        congr 1
        funext ps
        exact (groupsAt_nextSpans y u ps).symm
    · refine ⟨none, nofun, ?_⟩
      intro t h
      obtain ⟨y, u, rfl, hy, -⟩ := caselessText_cons h
      change (if caseless c y = true then k u else none) = _
      rw [if_neg (mt (caseless_congr hy).1 hx)]
      rfl

theorem takesBlind_nil {f : List Char → Option (List Char × Groups)} (hf : f [] = none) :
    TakesBlind f [] := by
  refine ⟨none, nofun, ?_⟩
  intro t h
  obtain rfl := caselessText_nil h
  exact hf

theorem TakesBlind.or {f g h : List Char → Option (List Char × Groups)} {s : List Char}
    (hf : TakesBlind f s) (hg : TakesBlind g s)
    (hh : ∀ t, caselessText s t = true → h t = (f t).or (g t)) : TakesBlind h s := by
  obtain ⟨r, inside, same⟩ := hf
  obtain ⟨q, inside', same'⟩ := hg
  refine ⟨r.or q, ?_, ?_⟩
  · intro x hx
    rcases Option.or_eq_some_iff.1 hx with hx | ⟨-, hx⟩
    · exact inside x hx
    · exact inside' x hx
  · intro t ht
    rw [hh t ht, same t ht, same' t ht, Option.map_or]

def oneThen (k : Continuation) : List Char → Option (List Char × Groups)
  | [] => none
  | c :: s => (k s).map fun g => ([c], g)

def oneMore (f : List Char → Option (List Char × Groups)) :
    List Char → Option (List Char × Groups)
  | [] => none
  | c :: s => (f s).map fun r => (c :: r.1, r.2)

theorem shortest_cons_of_ne {avoid c : Char} (h : c ≠ avoid) (k : Continuation) (s : List Char) :
    shortest avoid k (c :: s) =
      (oneThen k (c :: s)).or (oneMore (shortest avoid k) (c :: s)) := by
  rw [shortest, if_neg h, oneThen]
  cases k s <;> rfl

theorem longest_cons_of_ne {avoid c : Char} (h : c ≠ avoid) (k : Continuation) (s : List Char) :
    longest avoid k (c :: s) =
      (oneMore (longest avoid k) (c :: s)).or (oneThen k (c :: s)) := by
  rw [longest, if_neg h, oneMore]
  cases longest avoid k s <;> rfl

theorem takesBlind_oneThen {k : Continuation} (hk : CaseBlind k) (c : Char) (s : List Char) :
    TakesBlind (oneThen k) (c :: s) := by
  obtain ⟨r, inside, same⟩ := hk s
  refine ⟨r.map fun ps => (1, nextSpans ps), ?_, ?_⟩
  · intro x hx
    obtain ⟨ps, hps, rfl⟩ := Option.map_eq_some_iff.1 hx
    exact ⟨Nat.one_pos, Nat.succ_pos _, (inside ps hps).next c⟩
  · intro t h
    obtain ⟨d, u, rfl, -, hu⟩ := caselessText_cons h
    rw [oneThen, same u hu, Option.map_map, Option.map_map]
    congr 1
    funext ps
    simp [groupsAt_nextSpans]

theorem takesBlind_oneMore {f : List Char → Option (List Char × Groups)} {s : List Char}
    (hf : TakesBlind f s) (c : Char) : TakesBlind (oneMore f) (c :: s) := by
  obtain ⟨r, inside, same⟩ := hf
  refine ⟨r.map fun x => (x.1 + 1, nextSpans x.2), ?_, ?_⟩
  · intro x hx
    obtain ⟨y, hy, rfl⟩ := Option.map_eq_some_iff.1 hx
    obtain ⟨-, bound, all⟩ := inside y hy
    exact ⟨Nat.succ_pos _, Nat.succ_le_succ bound, all.next c⟩
  · intro t h
    obtain ⟨d, u, rfl, -, hu⟩ := caselessText_cons h
    rw [oneMore, same u hu, Option.map_map, Option.map_map]
    congr 1
    funext x
    simp [groupsAt_nextSpans]

theorem takesBlind_avoid {avoid c : Char} (ha : IsMark avoid) (hc : c = avoid)
    {f : List Char → Option (List Char × Groups)} (hf : ∀ s, f (avoid :: s) = none)
    (s : List Char) : TakesBlind f (c :: s) := by
  refine ⟨none, nofun, ?_⟩
  intro t h
  obtain ⟨d, u, rfl, hd, -⟩ := caselessText_cons h
  obtain rfl := (ha.eq_iff hd).2 hc
  exact hf u

theorem takesBlind_shortest {avoid : Char} (ha : IsMark avoid) {k : Continuation}
    (hk : CaseBlind k) (s : List Char) : TakesBlind (shortest avoid k) s := by
  induction s with
  | nil => exact takesBlind_nil rfl
  | cons c s ih =>
    -- A mark is a mark in every spelling, so that all spellings take the same branch.
    by_cases hc : c = avoid
    · exact takesBlind_avoid ha hc (fun u => by rw [shortest, if_pos rfl]) s
    · apply (takesBlind_oneThen hk c s).or (takesBlind_oneMore ih c)
      intro t h
      obtain ⟨d, u, rfl, hd, -⟩ := caselessText_cons h
      exact shortest_cons_of_ne (mt (ha.eq_iff hd).1 hc) k u

theorem takesBlind_longest {avoid : Char} (ha : IsMark avoid) {k : Continuation}
    (hk : CaseBlind k) (s : List Char) : TakesBlind (longest avoid k) s := by
  induction s with
  | nil => exact takesBlind_nil rfl
  | cons c s ih =>
    by_cases hc : c = avoid
    · exact takesBlind_avoid ha hc (fun u => by rw [longest, if_pos rfl]) s
    · apply (takesBlind_oneMore ih c).or (takesBlind_oneThen hk c s)
      intro t h
      obtain ⟨d, u, rfl, hd, -⟩ := caselessText_cons h
      exact longest_cons_of_ne (mt (ha.eq_iff hd).1 hc) k u

theorem caseBlind_captured {f : List Char → Option (List Char × Groups)}
    (hf : ∀ s, TakesBlind f s) : CaseBlind fun s => (f s).map captured := by
  intro s
  obtain ⟨r, inside, same⟩ := hf s
  refine ⟨r.map fun x => some ⟨0, x.1⟩ :: x.2, ?_, ?_⟩
  · intro ps hps
    obtain ⟨x, hx, rfl⟩ := Option.map_eq_some_iff.1 hps
    obtain ⟨some, bound, all⟩ := inside x hx
    apply all.cons
    intro p hp
    obtain rfl := Option.some.inj hp
    refine ⟨some, ?_⟩
    change 0 + x.1 ≤ s.length
    omega
  · intro t h
    change (f t).map captured = _
    rw [same t h, Option.map_map, Option.map_map]
    rfl

theorem caseBlind_textThen (u : List Char) {k : Continuation} (hk : CaseBlind k) :
    CaseBlind (textThen u k) := by
  induction u with
  | nil => exact hk
  | cons c u ih => exact caseBlind_char c ih

theorem caseBlind_slashThen (first : Bool) {k : Continuation} (hk : CaseBlind k) :
    CaseBlind (slashThen first k) := by
  cases first
  · exact caseBlind_char '/' hk
  · exact hk

theorem caseBlind_orAbsent {j k : Continuation} (hj : CaseBlind j) (hk : CaseBlind k) :
    CaseBlind (orAbsent j k) := by
  intro s
  obtain ⟨r, inside, same⟩ := hj s
  obtain ⟨q, inside', same'⟩ := hk s
  refine ⟨r.or (q.map (none :: ·)), ?_, ?_⟩
  · intro ps hps
    rcases Option.or_eq_some_iff.1 hps with hps | ⟨-, hps⟩
    · exact inside ps hps
    · obtain ⟨qs, hqs, rfl⟩ := Option.map_eq_some_iff.1 hps
      exact (inside' qs hqs).cons nofun
  · intro t h
    rw [orAbsent, same t h, same' t h, Option.map_or, Option.map_map, Option.map_map]
    rfl

theorem caseBlind_eval (first : Bool) (n : Node) {k : Continuation} (hk : CaseBlind k) :
    CaseBlind (n.eval first k) := by
  have segment : CaseBlind (slashThen first (segmentThen k)) :=
    caseBlind_slashThen first (caseBlind_captured (takesBlind_shortest isMark_slash hk))
  cases n with
  | literal text => exact caseBlind_slashThen first (caseBlind_textThen text.toList hk)
  | named name optional =>
    cases optional
    · exact segment
    · exact caseBlind_orAbsent segment hk
  | rest =>
    have remainder := caseBlind_captured (takesBlind_longest isMark_lineFeed hk)
    exact caseBlind_orAbsent (caseBlind_slashThen first remainder) hk

theorem caseBlind_evalNodes (ns : List Node) : CaseBlind (evalNodes ns) := by
  induction ns with
  | nil => exact caseBlind_atEnd
  | cons n ns ih => exact caseBlind_eval false n ih

/-- A list of nodes captures at the same places from texts that differ in letter case alone. -/
theorem caseBlind_runNodes (nodes : List Node) : CaseBlind (runNodes nodes) := by
  cases nodes with
  | nil => exact caseBlind_atEnd
  | cons n ns => exact caseBlind_eval true n (caseBlind_evalNodes ns)

/-- The parameters whose values stand at these places of a text. -/
def paramsAt (text : String) (es : List (String × Span)) : Params :=
  ⟨es.map fun e => (e.1, String.ofList (e.2.of text.toList))⟩

/-- To write a value over a parameter changes the places in a way that does not depend on the text.
-/
theorem exists_overwrite_paramsAt (name : String) (p : Span) (es : List (String × Span)) :
    ∃ fs : List (String × Span), (∀ f ∈ fs, f ∈ es ∨ f.2 = p) ∧ ∀ text : String,
      overwrite name (String.ofList (p.of text.toList)) (paramsAt text es).entries =
        (paramsAt text fs).entries := by
  induction es with
  | nil =>
    refine ⟨[(name, p)], ?_, fun text => rfl⟩
    intro f hf
    obtain rfl := List.mem_singleton.1 hf
    exact .inr rfl
  | cons e es ih =>
    by_cases he : e.1 = name
    · refine ⟨(name, p) :: es, ?_, ?_⟩
      · intro f hf
        rcases List.mem_cons.1 hf with rfl | hf
        · exact .inr rfl
        · exact .inl (List.mem_cons_of_mem _ hf)
      · intro text
        change overwrite name _ ((e.1, _) :: _) = _
        rw [overwrite, if_pos he]
        rfl
    · obtain ⟨fs, old, same⟩ := ih
      refine ⟨e :: fs, ?_, ?_⟩
      · intro f hf
        rcases List.mem_cons.1 hf with rfl | hf
        · exact .inl (List.mem_cons_self ..)
        · exact (old f hf).imp_left (List.mem_cons_of_mem _)
      · intro text
        change overwrite name _ ((e.1, _) :: (paramsAt text es).entries) = _
        rw [overwrite, if_neg he, same text]
        rfl

theorem exists_set_paramsAt (name : String) (o : Option Span) (es : List (String × Span)) :
    ∃ fs : List (String × Span), (∀ f ∈ fs, f ∈ es ∨ o = some f.2) ∧ ∀ text : String,
      (paramsAt text es).set name (o.map fun p => String.ofList (p.of text.toList)) =
        paramsAt text fs := by
  cases o with
  | none =>
    refine ⟨es.eraseP (·.1 == name), fun f hf => .inl (List.mem_of_mem_eraseP hf), ?_⟩
    intro text
    change Params.mk ((es.map _).eraseP (·.1 == name)) = _
    rw [List.eraseP_map]
    rfl
  | some p =>
    obtain ⟨fs, old, same⟩ := exists_overwrite_paramsAt name p es
    refine ⟨fs, ?_, fun text => congrArg Params.mk (same text)⟩
    intro f hf
    exact (old f hf).imp_right fun at_p => congrArg some at_p.symm

theorem head?_groupsAt (s : List Char) (ps : List (Option Span)) :
    (((groupsAt s ps).map (·.map String.ofList)).head?).join =
      ps.head?.join.map fun p => String.ofList (p.of s) := by
  cases ps with
  | nil => rfl
  | cons o ps => cases o <;> rfl

theorem tail_groupsAt (s : List Char) (ps : List (Option Span)) :
    ((groupsAt s ps).map (·.map String.ofList)).tail =
      (groupsAt s ps.tail).map (·.map String.ofList) := by
  cases ps <;> rfl

theorem mem_of_join_head? {ps : List (Option Span)} {p : Span} (h : ps.head?.join = some p) :
    some p ∈ ps := by
  cases ps with
  | nil => cases h
  | cons o ps =>
    obtain rfl : o = some p := h
    exact List.mem_cons_self ..

theorem exists_bindGroups_paramsAt (nodes : List Node) (ps : List (Option Span))
    (es : List (String × Span)) :
    ∃ fs : List (String × Span), (∀ f ∈ fs, f ∈ es ∨ some f.2 ∈ ps) ∧ ∀ text : String,
      bindGroups nodes ((groupsAt text.toList ps).map (·.map String.ofList)) (paramsAt text es) =
        paramsAt text fs := by
  induction nodes generalizing ps es with
  | nil => exact ⟨es, fun f hf => .inl hf, fun text => rfl⟩
  | cons n ns ih =>
    cases hn : n.parameter? with
    | none =>
      obtain ⟨fs, old, same⟩ := ih ps es
      refine ⟨fs, old, ?_⟩
      intro text
      rw [bindGroups, hn]
      exact same text
    | some name =>
      obtain ⟨es', old, set⟩ := exists_set_paramsAt name ps.head?.join es
      obtain ⟨fs, old', same⟩ := ih ps.tail es'
      refine ⟨fs, ?_, ?_⟩
      · intro f hf
        rcases old' f hf with hf | hf
        · exact (old f hf).imp_right mem_of_join_head?
        · exact .inr (List.mem_of_mem_tail hf)
      · intro text
        rw [bindGroups, hn]
        change bindGroups ns _ ((paramsAt text es).set name _) = _
        rw [head?_groupsAt, set text, tail_groupsAt]
        exact same text

/-- A pattern captures the same parameters at the same places of all paths that differ in letter
case alone. -/
theorem Pattern.exists_spans [SizeLimit] {source : String} {p : Pattern}
    (hp : Pattern.compile source = .ok p) (path : String) :
    ∃ r : Option (List (String × Span)),
      (∀ es ∈ r, ∀ e ∈ es, e.2.Inside path.toList) ∧ ∀ other : String,
        caselessText path.toList other.toList = true →
          p.capture? other = r.map (paramsAt other) := by
  obtain ⟨r, inside, same⟩ := caseBlind_runNodes p.nodes path.toList
  have bound : ∀ ps, ∃ fs : List (String × Span), (∀ f ∈ fs, some f.2 ∈ ps) ∧ ∀ text : String,
      bindGroups p.nodes ((groupsAt text.toList ps).map (·.map String.ofList)) Params.empty =
        paramsAt text fs := by
    intro ps
    obtain ⟨fs, old, all⟩ := exists_bindGroups_paramsAt p.nodes ps []
    refine ⟨fs, ?_, all⟩
    intro f hf
    exact (old f hf).resolve_left List.not_mem_nil
  choose spans from_group all using bound
  refine ⟨r.map spans, ?_, ?_⟩
  · intro es hes e he
    obtain ⟨ps, hps, rfl⟩ := Option.map_eq_some_iff.1 hes
    exact inside ps hps e.2 (from_group ps e he)
  · intro other h
    rw [Pattern.capture?_of_compile hp, same other.toList h, Option.map_map, Option.map_map]
    congr 1
    funext ps
    exact all ps other

theorem caselessText_append {s t u v : List Char} (h : caselessText s t = true)
    (k : caselessText u v = true) : caselessText (s ++ u) (t ++ v) = true := by
  induction s generalizing t with
  | nil =>
    obtain rfl := caselessText_nil h
    exact k
  | cons c s ih =>
    obtain ⟨d, t, rfl, hd, ht⟩ := caselessText_cons h
    simp [caselessText, hd, ih ht]

theorem forall₂_splitSlash {s t : List Char} (h : caselessText s t = true) :
    List.Forall₂ (fun p q => caselessText p q = true) (splitSlash s) (splitSlash t) := by
  induction s generalizing t with
  | nil =>
    obtain rfl := caselessText_nil h
    exact .cons rfl .nil
  | cons c s ih =>
    obtain ⟨d, t, rfl, hd, ht⟩ := caselessText_cons h
    have rest := ih ht
    by_cases hc : c = '/'
    · obtain rfl := (isMark_slash.eq_iff hd).2 hc
      subst hc
      exact .cons rfl rest
    · rw [splitSlash_cons hc, splitSlash_cons (mt (isMark_slash.eq_iff hd).1 hc)]
      generalize splitSlash s = ps at rest
      generalize splitSlash t = qs at rest
      cases rest with
      | nil => exact .nil
      | cons first later =>
        refine .cons ?_ later
        simp [caselessText, hd, first]

theorem isEmpty_of_caselessText {p q : List Char} (h : caselessText p q = true) :
    p.isEmpty = q.isEmpty := by
  cases p with
  | nil => rw [caselessText_nil h]
  | cons c p =>
    obtain ⟨d, q, rfl, -, -⟩ := caselessText_cons h
    rfl

theorem forall₂_segments {s t : List Char} (h : caselessText s t = true) :
    List.Forall₂ (fun p q => caselessText p q = true) (segments s) (segments t) := by
  apply List.rel_filter ?_ (forall₂_splitSlash h)
  intro p q hpq
  simp [isEmpty_of_caselessText hpq]

theorem caselessText_joinSlash {ps qs : List (List Char)}
    (h : List.Forall₂ (fun p q => caselessText p q = true) ps qs) :
    caselessText (joinSlash ps) (joinSlash qs) = true := by
  induction h with
  | nil => rfl
  | cons hpq later ih =>
    cases later with
    | nil => exact hpq
    | cons hpq' later =>
      apply caselessText_append hpq
      exact Bool.and_eq_true_iff.2 ⟨caseless_refl '/', ih⟩

/-- Paths that differ in letter case alone are normalized to such paths. -/
theorem caselessText_normalize {path other : String}
    (h : caselessText path.toList other.toList = true) :
    caselessText (Path.normalize path).toList (Path.normalize other).toList = true := by
  rw [Path.toList_normalize, Path.toList_normalize]
  exact caselessText_joinSlash (forall₂_segments h)

end PatternRouter
