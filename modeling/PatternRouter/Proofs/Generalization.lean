import PatternRouter.Proofs.Registry
import PatternRouter.Proofs.TrailingRest

namespace PatternRouter

/-- Whether a node is generalized by a second one: by its equal in any letter case or under any
name, or by a node of a less specific kind. -/
inductive Node.Widened : Node → Node → Prop
  | literal {text other : String} : caselessText text.toList other.toList = true →
      Widened (literal text) (literal other)
  | named (name other : String) (optional : Bool) :
      Widened (named name optional) (named other optional)
  | rest : Widened rest rest
  | kind {n m : Node} : n.kind.rank < m.kind.rank → Widened n m

namespace Node.Widened

variable {n m : Node}

theorem rank_le (h : n.Widened m) : n.kind.rank ≤ m.kind.rank := by
  cases h with
  | literal | rest => exact Nat.le_refl _
  | named name other optional => cases optional <;> exact Nat.le_refl _
  | kind lt => exact Nat.le_of_lt lt

theorem isMandatory_eq_false (h : n.Widened m) (hn : n.isMandatory = false) :
    m.isMandatory = false := by
  have le := h.rank_le
  rw [← Bool.not_eq_true, isMandatory_iff_rank_le] at hn ⊢
  omega

/-- What a node takes of a line is taken by each node that generalizes it. -/
theorem takes (h : n.Widened m) {last : Bool} (hw : n.WellFormed last) {o : Option (List Char)}
    (line : ∀ p ∈ o, '\n' ∉ p) (ho : n.Takes o) : m.Takes o := by
  cases o with
  | none => exact takes_none_iff.2 (h.isMandatory_eq_false (takes_none_iff.1 ho))
  | some p =>
    cases h with
    | literal same => exact caselessText_trans (caselessText_symm same) ho
    | named => exact ho
    | rest => exact ho
    | kind lt =>
      have other : n ≠ .rest := by
        rintro rfl
        have bound := rank_lt_endMark m.kind
        have above : 3 < m.kind.rank := lt
        omega
      have segment := segment_of_takes hw other ho
      cases m with
      | literal => exact absurd lt (Nat.not_lt_zero _)
      | named => exact segment
      | rest => exact ⟨segment.1, line p rfl⟩

end Node.Widened

section

variable {source wider : String} {p q : Pattern}

theorem takes_of_widened {ns ms : List Node} {os : List (Option (List Char))}
    (h : List.Forall₂ Node.Widened ns ms) (hw : WellFormedNodes ns)
    (line : ∀ o ∈ os, ∀ s ∈ o, '\n' ∉ s) (ho : List.Forall₂ Node.Takes ns os) :
    List.Forall₂ Node.Takes ms os := by
  induction h generalizing os with
  | nil => exact ho
  | cons widened _ ih =>
    cases ho with
    | @cons _ o _ os first later =>
      have taken := widened.takes hw.1 (line o (List.mem_cons_self ..)) first
      exact .cons taken (ih hw.2 (fun o' mem => line o' (List.mem_cons_of_mem _ mem)) later)

/-- A generalization of a pattern matches all lines that the pattern matches. -/
theorem Pattern.accepts_of_widened [SizeLimit] (hp : Pattern.compile source = .ok p)
    (hq : Pattern.compile wider = .ok q) (root : p.nodes ≠ rootNodes)
    (h : List.Forall₂ Node.Widened p.nodes q.nodes) {path : String} (line : '\n' ∉ path.toList)
    (hit : p.Accepts path) : q.Accepts path := by
  obtain ⟨-, hw⟩ := (root_or_wellFormed_of_parse (Pattern.parse_of_compile hp)).resolve_left root
  obtain ⟨os, cuts, joined⟩ := (Pattern.accepts_iff hp).1 hit
  have whole := lineFeed_notMem_joinSlash (lineSegments_segments line)
  rw [joined] at whole
  have pieces : ∀ o ∈ os, ∀ s ∈ o, '\n' ∉ s := by
    intro o mem s hs feed
    exact whole (mem_joinSlash (List.mem_filterMap.2 ⟨o, mem, hs⟩) feed)
  have takes := takes_of_widened h hw pieces cuts.takes
  exact (Pattern.accepts_iff hq).2 ⟨os, ⟨takes, cuts.lone⟩, joined⟩

theorem Pattern.shape_eq_map_kind [SizeLimit] (hp : Pattern.compile source = .ok p) :
    p.shape = p.nodes.map Node.kind := by
  obtain ⟨nodes, -, -, rfl⟩ := Pattern.compile_eq_ok.1 hp
  rfl

theorem Pattern.compareShapes_of_widened [SizeLimit] (hp : Pattern.compile source = .ok p)
    (hq : Pattern.compile wider = .ok q) (h : List.Forall₂ Node.Widened p.nodes q.nodes)
    (other : p.nodes.map Node.kind ≠ q.nodes.map Node.kind) :
    compareShapes p.shape q.shape = .lt := by
  rw [shape_eq_map_kind hp, shape_eq_map_kind hq]
  apply compareShapes_eq_lt ?_ other
  rw [List.forall₂_map_left_iff, List.forall₂_map_right_iff]
  exact h.imp fun _ _ => Node.Widened.rank_le

end

/-- No pattern is shadowed by a generalization of it. All lines that a pattern matches are matched
by its generalizations; but those of another shape stand behind it in every table, so that a lookup
of a path that it matches does not come to them. -/
theorem generalization_never_shadows [SizeLimit] {α : Type} [Describe α] {source wider : String}
    {p q : Pattern} (hp : Pattern.compile source = .ok p) (hq : Pattern.compile wider = .ok q)
    (root : p.nodes ≠ rootNodes) (h : List.Forall₂ Node.Widened p.nodes q.nodes) :
    (∀ path : String, '\n' ∉ path.toList → p.Accepts path → q.Accepts path) ∧
    (p.nodes.map Node.kind ≠ q.nodes.map Node.kind →
      (∀ (version : Nat) (ps : List Pattern) (i j : Nat) (e f : Ranked),
        (RouteTable.ofPatterns version ps).entries[i]? = some e → e.pattern = p →
        (RouteTable.ofPatterns version ps).entries[j]? = some f → f.pattern = q → i < j) ∧
      ∀ (as : List (RouterStep α)) (name path : String) (data : α),
        let s := ((RouterSession.empty : RouterSession α).run as).2
        (source, data) ∈ (s.router name).toList → p.Accepts path →
        ∃ hit, (s.step (.find name path)).1 = .found (some hit) ∧ hit.source ≠ wider) := by
  refine ⟨fun path => Pattern.accepts_of_widened hp hq root h, ?_⟩
  intro other
  have less := Pattern.compareShapes_of_widened hp hq h other
  constructor
  · intro version ps i j e f hi he hj hf
    apply RouteTable.lt_of_before hi hj
    apply comparePlaces_eq_lt_iff.2
    left
    rwa [Ranked.place, he, Ranked.place, hf]
  · intro as name path data s listed hit
    have kept := RouterSession.keeps_run RouterSession.keeps_empty as
    rw [kept.routes] at listed
    obtain ⟨found, reply, first⟩ := RouterSession.answers_step kept (.find name path)
    obtain ⟨k, hk, source_eq⟩ := exists_matches_of_mem hp listed hit
    -- A route of the wider source in the first place would come before the one that matches, which
    -- is of a more specific shape.
    cases found with
    | none => exact absurd hk (first k)
    | some h =>
      refine ⟨h, reply, ?_⟩
      intro wide
      apply first.not_before hk
      apply comparePlaces_eq_lt_iff.2
      left
      rwa [RouteHit.place, RouteHit.place, source_eq, wide, ← Pattern.shape_of_compile hp,
        ← Pattern.shape_of_compile hq]

open Unlimited

/-- A pattern is tried before one with an optional parameter and the rest in place of two
parameters, though the latter is registered last. -/
theorem generalization_never_shadows_users :
    ∃ p q : Pattern, Pattern.compile "/Users/:id/:tab" = .ok p ∧
      Pattern.compile "/users/:x?/*" = .ok q ∧ p.Accepts "/users/7/posts" ∧
      q.Accepts "/users/7/posts" ∧
      (∀ (i j : Nat) (e f : Ranked), (RouteTable.ofPatterns 0 [p, q]).entries[i]? = some e →
        e.pattern = p → (RouteTable.ofPatterns 0 [p, q]).entries[j]? = some f → f.pattern = q →
        i < j) ∧
      ∃ hit, (((RouterSession.empty : RouterSession Nat).run
        [.insert "r" "/Users/:id/:tab" 1 false, .insert "r" "/users/:x?/*" 2 false]).2.step
          (.find "r" "/users/7/posts")).1 = .found (some hit) ∧ hit.source ≠ "/users/:x?/*" := by
  have narrow := Pattern.compile_eq_ok.2 ⟨[.literal "Users", .named "id" false, .named "tab" false],
    (rfl : Pattern.parse "/Users/:id/:tab" = _), by decide, rfl⟩
  have wide := Pattern.compile_eq_ok.2 ⟨[.literal "users", .named "x" true, .rest],
    (rfl : Pattern.parse "/users/:x?/*" = _), by decide, rfl⟩
  have widened : List.Forall₂ Node.Widened
      [.literal "Users", .named "id" false, .named "tab" false]
      [.literal "users", .named "x" true, .rest] :=
    .cons (.literal (by decide)) (.cons (.kind (by decide)) (.cons (.kind (by decide)) .nil))
  obtain ⟨matched, other⟩ :=
    generalization_never_shadows (α := Nat) narrow wide (by decide) widened
  obtain ⟨before, found⟩ := other (by decide)
  have pieces : List.Forall₂ Node.Takes [.literal "Users", .named "id" false, .named "tab" false]
      [some "users".toList, some "7".toList, some "posts".toList] :=
    .cons (by simp only [Node.Takes]; decide) (.cons (by simp [Node.Takes])
      (.cons (by simp [Node.Takes]) .nil))
  have hit : Pattern.Accepts _ "/users/7/posts" :=
    (Pattern.accepts_iff narrow).2 ⟨_, ⟨pieces, by simp⟩, by decide⟩
  have listed : ("/Users/:id/:tab", 1) ∈ (((RouterSession.empty : RouterSession Nat).run
      [.insert "r" "/Users/:id/:tab" 1 false,
        .insert "r" "/users/:x?/*" 2 false]).2.router "r").toList := by
    rw [(RouterSession.keeps_run RouterSession.keeps_empty _).routes]
    simp [Registry.run, Registry.step, narrow, wide, Registry.set]
  exact ⟨_, _, narrow, wide, hit, matched _ (by decide) hit, before 0 _, found _ _ _ _ listed hit⟩

end PatternRouter
