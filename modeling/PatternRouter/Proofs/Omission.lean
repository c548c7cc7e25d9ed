import PatternRouter.Proofs.SegmentMatching

namespace PatternRouter

/-- Whether `k` can go on wherever `j` can. -/
def Within (j k : Continuation) : Prop := ∀ s, (j s).isSome = true → (k s).isSome = true

theorem shortest_isSome_iff (avoid : Char) (k : Continuation) (s : List Char) :
    (shortest avoid k s).isSome = true ↔
      ∃ p t, s = p ++ t ∧ p ≠ [] ∧ avoid ∉ p ∧ (k t).isSome = true := by
  induction s with
  | nil =>
    constructor
    · intro h; cases h
    · rintro ⟨p, t, hs, hp, -⟩
      exact absurd (List.append_eq_nil_iff.1 hs.symm).1 hp
  | cons c s ih =>
    by_cases hc : c = avoid
    · rw [shortest, if_pos hc]
      constructor
      · intro h; cases h
      · rintro ⟨p, t, hs, hp, ha, -⟩
        obtain ⟨d, q, rfl⟩ := List.exists_cons_of_ne_nil hp
        have head : c = d := (List.cons.inj hs).1
        exact absurd (by simp [← head, hc]) ha
    rw [shortest, if_neg hc]
    constructor
    · intro h
      split at h
      · next g hk => exact ⟨[c], s, rfl, by simp, by simpa using Ne.symm hc, by rw [hk]; rfl⟩
      · rw [Option.isSome_map] at h
        obtain ⟨p, t, rfl, -, ha, ht⟩ := ih.1 h
        refine ⟨c :: p, t, rfl, by simp, ?_, ht⟩
        simp [ha, Ne.symm hc]
    · rintro ⟨p, t, hs, hp, ha, ht⟩
      split
      · rfl
      · next hk =>
        rw [Option.isSome_map]
        obtain ⟨d, q, rfl⟩ := List.exists_cons_of_ne_nil hp
        have tail : s = q ++ t := (List.cons.inj hs).2
        refine ih.2 ⟨q, t, tail, ?_, fun hq => ha (List.mem_cons_of_mem _ hq), ht⟩
        rintro rfl
        rw [tail, List.nil_append] at hk
        rw [hk] at ht
        cases ht

theorem longest_isSome_iff (avoid : Char) (k : Continuation) (s : List Char) :
    (longest avoid k s).isSome = (shortest avoid k s).isSome := by
  induction s with
  | nil => rfl
  | cons c s ih =>
    rw [longest, shortest]
    split
    · rfl
    · cases hl : longest avoid k s <;> cases hk : k s <;> simp_all

theorem shortest_within {j k : Continuation} (h : Within j k) (avoid : Char) {s : List Char}
    (hs : (shortest avoid j s).isSome = true) : (shortest avoid k s).isSome = true := by
  obtain ⟨p, t, rfl, hp, ha, ht⟩ := (shortest_isSome_iff ..).1 hs
  exact (shortest_isSome_iff ..).2 ⟨p, t, rfl, hp, ha, h t ht⟩

theorem segmentThen_within {j k : Continuation} (h : Within j k) :
    Within (segmentThen j) (segmentThen k) := by
  intro s hs
  rw [segmentThen, Option.isSome_map] at hs ⊢
  exact shortest_within h '/' hs

theorem remainderThen_within {j k : Continuation} (h : Within j k) :
    Within (remainderThen j) (remainderThen k) := by
  intro s hs
  rw [remainderThen, Option.isSome_map, longest_isSome_iff] at hs ⊢
  exact shortest_within h '\n' hs

theorem char_within {j k : Continuation} (h : Within j k) (c : Char) :
    Within ((Expr.char c).eval j) ((Expr.char c).eval k) := by
  intro s hs
  cases s with
  | nil => cases hs
  | cons x s =>
    change (if caseless c x = true then j s else none).isSome = true at hs
    change (if caseless c x = true then k s else none).isSome = true
    split at hs
    · next hx =>
      rw [if_pos hx]
      exact h s hs
    · cases hs

theorem textThen_within {j k : Continuation} (h : Within j k) (t : List Char) :
    Within (textThen t j) (textThen t k) := by
  induction t with
  | nil => exact h
  | cons c t ih => exact char_within ih c

theorem slashThen_within {j k : Continuation} (h : Within j k) (first : Bool) :
    Within (slashThen first j) (slashThen first k) := by
  cases first
  · exact char_within h '/'
  · exact h

theorem orAbsent_within {j j' k k' : Continuation} (hj : Within j j') (hk : Within k k') :
    Within (orAbsent j k) (orAbsent j' k') := by
  intro s hs
  rw [orAbsent, Option.isSome_or, Option.isSome_map, Bool.or_eq_true] at hs ⊢
  exact hs.imp (hj s) (hk s)

theorem within_orAbsent (j k : Continuation) : Within k (orAbsent j k) := by
  intro s hs
  rw [orAbsent, Option.isSome_or, Option.isSome_map, hs, Bool.or_true]

theorem eval_within (first : Bool) (n : Node) {j k : Continuation} (h : Within j k) :
    Within (n.eval first j) (n.eval first k) := by
  cases n with
  | literal text => exact slashThen_within (textThen_within h _) first
  | named name optional =>
    cases optional
    · exact slashThen_within (segmentThen_within h) first
    · exact orAbsent_within (slashThen_within (segmentThen_within h) first) h
  | rest => exact orAbsent_within (slashThen_within (remainderThen_within h) first) h

/-- An optional parameter behind another node can be left out, its slash included. -/
theorem evalNodes_eraseIdx_within {ns : List Node} {i : Nat} {name : String}
    (hi : ns[i]? = some (.named name true)) :
    Within (evalNodes (ns.eraseIdx i)) (evalNodes ns) := by
  induction ns generalizing i with
  | nil => cases hi
  | cons n ns ih =>
    cases i with
    | zero =>
      obtain rfl := Option.some.inj hi
      exact within_orAbsent _ _
    | succ i => exact eval_within false n (ih hi)

/-- On a path with segments a first parameter that can be left out is not left out. -/
theorem runNodes_optional {name : String} (ns : List Node) {ss : List (List Char)}
    (hss : LineSegments ss) :
    (runNodes (.named name true :: ns) (joinSlash ss)).isSome =
      (evalNodes ns (trail ss.tail)).isSome := by
  have blocked := blocked_evalNodes ns
  cases ss with
  | nil =>
    change ((segmentThen (evalNodes ns) []).or ((evalNodes ns []).map _)).isSome = _
    rw [Option.isSome_or, Option.isSome_map]
    rfl
  | cons s ss =>
    obtain ⟨hs, hn, -⟩ := hss s (List.mem_cons_self ..)
    obtain ⟨c, t, rfl⟩ := List.exists_cons_of_ne_nil hs
    have inside : evalNodes ns (c :: t ++ trail ss) = none :=
      blocked c _ fun h => hn (by simp [h])
    change ((segmentThen (evalNodes ns) (joinSlash ((c :: t) :: ss))).or
      ((evalNodes ns (joinSlash ((c :: t) :: ss))).map _)).isSome = _
    rw [joinSlash_cons, segmentThen_append blocked hs hn, inside, Option.isSome_or,
      Option.isSome_map, Option.map_none, Option.isSome_none, Bool.or_false]
    rfl

theorem countP_isMandatory_le {ns : List Node} {ss : List (List Char)}
    (h : (bindSegments ns ss).isSome = true) : ns.countP Node.isMandatory ≤ ss.length := by
  induction ns generalizing ss with
  | nil => exact Nat.zero_le _
  | cons n ns ih =>
    cases n with
    | literal text =>
      cases ss with
      | nil => cases h
      | cons s ss =>
        rw [bindSegments] at h
        split at h
        · have bound := ih h
          rw [List.countP_cons_of_pos rfl, List.length_cons]
          omega
        · cases h
    | named name optional =>
      cases optional
      · cases ss with
        | nil => cases h
        | cons s ss =>
          rw [bindSegments, Option.isSome_map] at h
          have bound := ih h
          rw [List.countP_cons_of_pos rfl, List.length_cons]
          omega
      · rw [bindSegments_optional_isSome, Bool.or_eq_true] at h
        rw [List.countP_cons_of_neg Bool.false_ne_true]
        rcases h with h | h
        · have bound := ih h
          rw [List.length_tail] at bound
          omega
        · exact ih h
    | rest =>
      rw [List.countP_cons_of_neg Bool.false_ne_true]
      cases ss with
      | nil =>
        rw [bindSegments, Option.isSome_map] at h
        exact ih h
      | cons s ss =>
        rw [bindSegments, Option.isSome_map] at h
        exact Nat.le_trans (ih h) (Nat.zero_le _)

theorem exists_shortest_match {ns : List Node} (hw : WellFormedNodes ns)
    (hf : ∀ text, Node.literal text ∈ ns → '\n' ∉ text.toList) :
    ∃ ss, LineSegments ss ∧ ss.length = ns.countP Node.isMandatory ∧
      (bindSegments ns ss).isSome = true := by
  induction ns with
  | nil => exact ⟨[], by simp [LineSegments], rfl, rfl⟩
  | cons n ns ih =>
    obtain ⟨ss, hss, hl, hb⟩ := ih hw.2 fun text ht => hf text (List.mem_cons_of_mem _ ht)
    have longer : ∀ {s : List Char}, s ≠ [] ∧ '/' ∉ s ∧ '\n' ∉ s → LineSegments (s :: ss) := by
      intro s hs p hp
      rcases List.mem_cons.1 hp with rfl | hp
      · exact hs
      · exact hss p hp
    cases n with
    | literal text =>
      refine ⟨text.toList :: ss, longer ⟨hw.1.1, hw.1.2.1, hf text (List.mem_cons_self ..)⟩, ?_, ?_⟩
      · rw [List.length_cons, hl, List.countP_cons_of_pos rfl]
      · rw [bindSegments, if_pos (caselessText_refl _)]
        exact hb
    | named name optional =>
      cases optional
      · refine ⟨['x'] :: ss, longer (by decide), ?_, ?_⟩
        · rw [List.length_cons, hl, List.countP_cons_of_pos rfl]
        · rw [bindSegments, Option.isSome_map]
          exact hb
      · refine ⟨ss, hss, ?_, ?_⟩
        · rw [hl, List.countP_cons_of_neg Bool.false_ne_true]
        · rw [bindSegments_optional_isSome, hb, Bool.or_true]
    | rest =>
      obtain rfl := hw.tail_nil
      exact ⟨[], by simp [LineSegments], rfl, rfl⟩

theorem lineFeed_notMem_of_match {ns : List Node} {ss : List (List Char)} (hss : LineSegments ss)
    (h : (bindSegments ns ss).isSome = true) {text : String} (ht : Node.literal text ∈ ns) :
    '\n' ∉ text.toList := by
  induction ns generalizing ss with
  | nil => cases ht
  | cons n ns ih =>
    have later : ∀ ts : List (List Char), LineSegments ts →
        (bindSegments ns ts).isSome = true → n ≠ .literal text → '\n' ∉ text.toList := by
      intro ts hts hb hne
      refine ih hts hb ?_
      rcases List.mem_cons.1 ht with rfl | ht
      · exact absurd rfl hne
      · exact ht
    cases n with
    | literal t =>
      cases ss with
      | nil => cases h
      | cons s ss =>
        rw [bindSegments] at h
        split at h
        · next hs =>
          rcases List.mem_cons.1 ht with same | ht
          · obtain rfl := Node.literal.inj same
            intro hm
            have line := (hss s (List.mem_cons_self ..)).2.2
            exact line (mark_mem_of_caselessText (by decide) (by decide) hs hm)
          · exact ih hss.tail h ht
        · cases h
    | named name optional =>
      cases optional
      · cases ss with
        | nil => cases h
        | cons s ss =>
          rw [bindSegments, Option.isSome_map] at h
          exact later ss hss.tail h (by simp)
      · rw [bindSegments_optional_isSome, Bool.or_eq_true] at h
        rcases h with h | h
        · exact later ss.tail (fun p hp => hss p (List.mem_of_mem_tail hp)) h (by simp)
        · exact later _ hss h (by simp)
    | rest =>
      cases ss with
      | nil =>
        rw [bindSegments, Option.isSome_map] at h
        exact later _ hss h (by simp)
      | cons s ss =>
        rw [bindSegments, Option.isSome_map] at h
        exact later [] (by simp [LineSegments]) h (by simp)

theorem runNodes_optional_isSome {name : String} {ns : List Node} (hw : WellFormedNodes ns)
    {ss : List (List Char)} (hss : LineSegments ss) :
    (runNodes (.named name true :: ns) (joinSlash ss)).isSome =
      (bindSegments ns ss.tail).isSome := by
  have tail : LineSegments ss.tail := fun p hp => hss p (List.mem_of_mem_tail hp)
  rw [runNodes_optional ns hss, evalNodes_trail hw tail, Option.isSome_map]

theorem runNodes_mandatory_isSome {n : Node} {ns : List Node} (hw : WellFormedNodes (n :: ns))
    (hn : n.isMandatory = true) {ss : List (List Char)} (hss : LineSegments ss) :
    (runNodes (n :: ns) (joinSlash ss)).isSome = (bindSegments (n :: ns) ss).isSome := by
  have plain : leadsOptional (n :: ns) = false := by
    cases n with
    | literal text => rfl
    | named name optional =>
      cases optional
      · rfl
      · cases hn
    | rest => rfl
  rw [runNodes_joinSlash hw plain hss, Option.isSome_map]

/-- In front of a node that can itself be left out, the first parameter can be left out. -/
theorem runNodes_isSome_of_omission {name : String} {ns : List Node} (hw : WellFormedNodes ns)
    (hn : ∀ n, ns.head? = some n → n.isMandatory = false) {ss : List (List Char)}
    (hss : LineSegments ss) (h : (runNodes ns (joinSlash ss)).isSome = true) :
    (runNodes (.named name true :: ns) (joinSlash ss)).isSome = true := by
  rw [runNodes_optional_isSome hw hss]
  cases ns with
  | nil =>
    cases ss with
    | nil => rfl
    | cons s ss =>
      obtain ⟨c, t, ht⟩ := List.exists_cons_of_ne_nil (joinSlash_cons_ne_nil hss)
      rw [ht] at h
      cases h
  | cons n ns =>
    have skippable := hn n rfl
    cases n with
    | literal text => cases skippable
    | named other optional =>
      cases optional
      · cases skippable
      · rw [runNodes_optional_isSome hw.2 hss] at h
        rw [bindSegments_optional_isSome, h, Bool.or_true]
    | rest =>
      obtain rfl := hw.tail_nil
      cases ss.tail <;> rfl

/-- In front of a node that cannot be left out, leaving out the first parameter loses the shortest
paths. -/
theorem exists_match_of_omission (name : String) {n : Node} {ns : List Node}
    (hw : WellFormedNodes (n :: ns)) (hn : n.isMandatory = true)
    (hf : ∀ text, Node.literal text ∈ n :: ns → '\n' ∉ text.toList) :
    ∃ ss, LineSegments ss ∧ (runNodes (n :: ns) (joinSlash ss)).isSome = true ∧
      ¬(runNodes (.named name true :: n :: ns) (joinSlash ss)).isSome = true := by
  obtain ⟨ss, hss, hl, hb⟩ := exists_shortest_match hw hf
  refine ⟨ss, hss, ?_, ?_⟩
  · rw [runNodes_mandatory_isSome hw hn hss]
    exact hb
  · intro h
    rw [runNodes_optional_isSome hw hss] at h
    -- With the parameter in front, one segment less is left for the same nodes.
    have bound := countP_isMandatory_le h
    rw [List.length_tail, hl, List.countP_cons_of_pos hn] at bound
    omega

/-- Leaving out an optional parameter keeps every match, unless it is the first node, the next node
cannot be left out, and the pattern can match a line at all. That what is left is small enough is
up to the limit. -/
theorem omission_keeps_matches_iff [SizeLimit] {source name : String} {nodes : List Node}
    {x : Expression} {i : Nat} (hp : Pattern.parse source = .ok nodes)
    (hx : Expression.ofNodes nodes = .ok x) (hi : nodes[i]? = some (.named name true))
    (small : SizeLimit.admits (Expression.textOf (nodes.eraseIdx i)) = true) :
    ∃ y, Expression.ofNodes (nodes.eraseIdx i) = .ok y ∧
      ((∀ path, Path.normalize path = path → '\n' ∉ path.toList →
          (y.capture? path).isSome = true → (x.capture? path).isSome = true) ↔
        ¬(i = 0 ∧ (∃ n, nodes[1]? = some n ∧ n.isMandatory = true) ∧
          ∀ text, Node.literal text ∈ nodes → '\n' ∉ text.toList)) := by
  obtain ⟨-, rfl⟩ := Expression.ofNodes_eq_ok.1 hx
  refine ⟨.build (nodes.eraseIdx i), Expression.ofNodes_eq_ok.2 ⟨small, rfl⟩, ?_⟩
  simp only [Expression.capture?_build, Option.isSome_map]
  have hw : WellFormedNodes nodes := by
    rcases root_or_wellFormed_of_parse hp with rfl | ⟨-, hw⟩
    · cases i <;> cases hi
    · exact hw
  cases nodes with
  | nil => cases hi
  | cons first ns =>
    cases i with
    | succ i =>
      -- Behind another node the parameter takes its slash along.
      have later : ns[i]? = some (.named name true) := hi
      have kept := eval_within true first (evalNodes_eraseIdx_within later)
      constructor
      · rintro - ⟨h, -⟩
        cases h
      · intro _ path _ _
        exact kept path.toList
    | zero =>
      obtain rfl := Option.some.inj hi
      rw [List.eraseIdx_zero, List.tail_cons]
      constructor
      · rintro h ⟨-, ⟨n, hn, hm⟩, hf⟩
        obtain ⟨ms, rfl⟩ := List.head?_eq_some_iff.1 (List.head?_eq_getElem? (l := ns) ▸ hn)
        -- A shortest path of the shorter pattern is lost.
        obtain ⟨ss, hss, hy, hx⟩ := exists_match_of_omission name hw.2 hm
          fun text ht => hf text (List.mem_cons_of_mem _ ht)
        have normal := Path.normalize_ofList_joinSlash fun p hp => ⟨(hss p hp).1, (hss p hp).2.1⟩
        have lost := h (String.ofList (joinSlash ss)) normal
        rw [String.toList_ofList] at lost
        exact hx (lost (lineFeed_notMem_joinSlash hss) hy)
      · intro h path hnormal hline hy
        have hss := lineSegments_segments hline
        rw [Path.toList_eq_joinSlash hnormal] at hy ⊢
        refine runNodes_isSome_of_omission hw.2 ?_ hss hy
        intro n hn
        cases hm : n.isMandatory with
        | false => rfl
        | true =>
          obtain ⟨ms, rfl⟩ := List.head?_eq_some_iff.1 hn
          rw [runNodes_mandatory_isSome hw.2 hm hss] at hy
          refine absurd ⟨rfl, ⟨n, rfl, hm⟩, ?_⟩ h
          intro text ht
          rcases List.mem_cons.1 ht with h | ht
          · cases h
          · exact lineFeed_notMem_of_match hss hy ht

open Unlimited

theorem omission_keeps_matches_iff_wiki :
    ∃ x y, Pattern.parse "/:lang?/wiki" = .ok [.named "lang" true, .literal "wiki"] ∧
      Expression.ofNodes [.named "lang" true, .literal "wiki"] = .ok x ∧
      Expression.ofNodes [.literal "wiki"] = .ok y ∧
      ¬∀ path, Path.normalize path = path → '\n' ∉ path.toList →
        (y.capture? path).isSome = true → (x.capture? path).isSome = true := by
  have read : Pattern.parse "/:lang?/wiki" = .ok [.named "lang" true, .literal "wiki"] := rfl
  have accepted : Expression.ofNodes [.named "lang" true, .literal "wiki"] = .ok _ :=
    Expression.ofNodes_eq_ok.2 ⟨rfl, rfl⟩
  obtain ⟨y, hy, condition⟩ := omission_keeps_matches_iff (i := 0) read accepted rfl rfl
  refine ⟨_, y, read, accepted, hy, ?_⟩
  intro kept
  refine condition.1 kept ⟨rfl, ⟨_, rfl, rfl⟩, ?_⟩
  intro text ht
  obtain rfl : text = "wiki" := by simpa using ht
  decide

/-- A first parameter cannot always be left out: `/:a?/b` does not match `b`, which `/b` matches. -/
theorem first_parameter_not_omissible :
    ¬∀ (source name path : String) (nodes : List Node) (i : Nat) (x y : Expression),
      Pattern.parse source = .ok nodes → nodes[i]? = some (.named name true) →
      Expression.ofNodes nodes = .ok x → Expression.ofNodes (nodes.eraseIdx i) = .ok y →
      Path.normalize path = path → '\n' ∉ path.toList →
      (y.capture? path).isSome = true → (x.capture? path).isSome = true := by
  intro claim
  have short : ((Expression.build [.literal "b"]).capture? "b").isSome = true := by
    rw [Expression.capture?_build]
    decide
  have long : ¬((Expression.build [.named "a" true, .literal "b"]).capture? "b").isSome = true := by
    rw [Expression.capture?_build]
    decide
  refine long (claim "/:a?/b" "a" "b" [.named "a" true, .literal "b"] 0 _ (.build [.literal "b"])
    rfl rfl ?_ ?_ (by decide) (by decide) short)
  · exact Expression.ofNodes_eq_ok.2 ⟨rfl, rfl⟩
  · exact Expression.ofNodes_eq_ok.2 ⟨rfl, rfl⟩

end PatternRouter
