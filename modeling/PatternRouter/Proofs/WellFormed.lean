import PatternRouter.Pattern.Parser
import PatternRouter.Proofs.Normalization

namespace PatternRouter

/-- Whether a node can be read from a segment; `last` tells that no segment follows. -/
def Node.WellFormed (last : Bool) : Node → Prop
  | .literal text => text.toList ≠ [] ∧ '/' ∉ text.toList ∧ (last = true → text ≠ restName) ∧
      (text.toList.head? = some ':' → text = ":" ∨ text = ":?")
  | .named name optional => name.toList ≠ [] ∧ '/' ∉ name.toList ∧ name ≠ restName ∧
      (optional = false → name.toList.getLast? ≠ some '?')
  | .rest => last = true

/-- Whether each node of a list is well formed at its place. -/
def WellFormedNodes : List Node → Prop
  | [] => True
  | n :: ns => n.WellFormed ns.isEmpty ∧ WellFormedNodes ns

/-- The nodes of the root. -/
def rootNodes : List Node := [.literal ""]

theorem parameterNode?_wellFormed {s : List Char} {n : Node} {last : Bool} (hs : s ≠ [])
    (hq : s ≠ ['?']) (hp : '/' ∉ s) (h : parameterNode? s = some n) : n.WellFormed last := by
  unfold parameterNode? at h
  by_cases ho : s.getLast? = some '?'
  · obtain ⟨t, rfl⟩ := List.getLast?_eq_some_iff.1 ho
    have hne : t ≠ [] := by
      rintro rfl
      exact hq rfl
    have hslash : '/' ∉ t := fun hm => hp (List.mem_append_left _ hm)
    simp only [List.getLast?_concat, beq_self_eq_true, if_true, List.dropLast_concat,
      Option.ite_none_left_eq_some, Option.some.injEq] at h
    obtain ⟨hr, rfl⟩ := h
    exact ⟨by simpa using hne, by simpa using hslash, hr, by simp⟩
  · have hb : (s.getLast? == some '?') = false := by simpa using ho
    simp only [hb, Bool.false_eq_true, if_false, Option.ite_none_left_eq_some,
      Option.some.injEq] at h
    obtain ⟨hr, rfl⟩ := h
    exact ⟨by simpa using hs, by simpa using hp, hr, by simpa using ho⟩

theorem segmentNode?_wellFormed {p : List Char} {n : Node} {last : Bool} (hne : p ≠ [])
    (hp : '/' ∉ p) (h : segmentNode? last p = some n) : n.WellFormed last := by
  unfold segmentNode? at h
  split at h
  · obtain rfl := Option.some.inj h
    simp [Node.WellFormed, restName]
  · obtain rfl := Option.some.inj h
    simp [Node.WellFormed, restName]
  · next s h1 h2 =>
    have hs : s ≠ [] := fun hs => h1 (by rw [hs])
    have hq : s ≠ ['?'] := fun hs => h2 (by rw [hs])
    have hslash : '/' ∉ s := fun hm => hp (List.mem_cons_of_mem _ hm)
    exact parameterNode?_wellFormed hs hq hslash h
  · next h1 h2 h3 =>
    split at h
    · next hl =>
      obtain rfl := Option.some.inj h
      exact hl.2
    · next hl =>
      obtain rfl := Option.some.inj h
      refine ⟨by simpa using hne, by simpa using hp, ?_, ?_⟩
      · intro last star
        apply hl
        refine ⟨?_, last⟩
        simpa [restName] using congrArg String.toList star
      · intro hh
        rw [String.toList_ofList] at hh
        obtain ⟨t, ht⟩ := List.head?_eq_some_iff.1 hh
        exact absurd ht (h3 t)

theorem segmentNodes?_cons_eq_some {p : List Char} {ps : List (List Char)} {ns : List Node} :
    segmentNodes? (p :: ps) = some ns ↔ ∃ n ms, segmentNode? ps.isEmpty p = some n ∧
      segmentNodes? ps = some ms ∧ ns = n :: ms := by
  simp only [segmentNodes?, Option.bind_eq_bind, Option.bind_eq_some_iff, exists_and_left]
  constructor
  · rintro ⟨n, hn, ms, hms, same⟩
    exact ⟨n, hn, ms, hms, (Option.some.inj same).symm⟩
  · rintro ⟨n, hn, ms, hms, rfl⟩
    exact ⟨n, hn, ms, hms, rfl⟩

theorem segmentNodes?_wellFormed {ps : List (List Char)} {ns : List Node}
    (hps : ∀ p ∈ ps, p ≠ [] ∧ '/' ∉ p) (h : segmentNodes? ps = some ns) : WellFormedNodes ns := by
  induction ps generalizing ns with
  | nil =>
    obtain rfl := Option.some.inj h
    trivial
  | cons p ps ih =>
    obtain ⟨n, ms, hn, hms, rfl⟩ := segmentNodes?_cons_eq_some.1 h
    have first := hps p (List.mem_cons_self ..)
    have tail : WellFormedNodes ms := ih (fun q hq => hps q (List.mem_cons_of_mem _ hq)) hms
    have ends : ms.isEmpty = ps.isEmpty := by
      cases ps with
      | nil =>
        obtain rfl := Option.some.inj hms
        rfl
      | cons q qs =>
        obtain ⟨m, ks, -, -, rfl⟩ := segmentNodes?_cons_eq_some.1 hms
        rfl
    refine ⟨?_, tail⟩
    rw [ends]
    exact segmentNode?_wellFormed first.1 first.2 hn

/-- The pieces that a pattern is read from are its segments, and one empty piece for the root. -/
theorem splitSlash_normalizeText (s : List Char) :
    splitSlash (normalizeText s) = if segments s = [] then [[]] else segments s := by
  rw [normalizeText_eq]
  split
  · next h => rw [h]; rfl
  · next h => exact splitSlash_joinSlash h fun p hp => slash_notMem_of_mem_segments hp

theorem Pattern.parse_eq_ok {source : String} {ns : List Node} :
    Pattern.parse source = .ok ns ↔
      segmentNodes? (splitSlash (normalizeText source.toList)) = some ns := by
  unfold Pattern.parse
  split
  · next ms h => simp [h]
  · next h => simp [h]

/-- A pattern is read to the root, or to nodes that are well formed at their places. -/
theorem root_or_wellFormed_of_parse {source : String} {ns : List Node}
    (h : Pattern.parse source = .ok ns) : ns = rootNodes ∨ ns ≠ [] ∧ WellFormedNodes ns := by
  rw [Pattern.parse_eq_ok, splitSlash_normalizeText] at h
  split at h
  · left
    exact (Option.some.inj h).symm
  · next hne =>
    right
    refine ⟨?_, ?_⟩
    · rintro rfl
      obtain ⟨p, ps, hp⟩ := List.exists_cons_of_ne_nil hne
      rw [hp] at h
      obtain ⟨m, ks, -, -, same⟩ := segmentNodes?_cons_eq_some.1 h
      cases same
    · exact segmentNodes?_wellFormed
        (fun p hp => ⟨ne_nil_of_mem_segments hp, slash_notMem_of_mem_segments hp⟩) h

namespace WellFormedNodes

theorem tail_nil {ns : List Node} (h : WellFormedNodes (.rest :: ns)) : ns = [] :=
  List.isEmpty_iff.1 h.1

theorem wellFormed_of_mem {ns : List Node} (h : WellFormedNodes ns) {n : Node} (hn : n ∈ ns) :
    ∃ last, n.WellFormed last := by
  induction ns with
  | nil => cases hn
  | cons m ns ih =>
    rcases List.mem_cons.1 hn with rfl | hn
    · exact ⟨_, h.1⟩
    · exact ih h.2 hn

end WellFormedNodes

theorem eq_rest_of_parameter? {source : String} {ns : List Node}
    (h : Pattern.parse source = .ok ns) {n : Node} (hn : n ∈ ns)
    (hp : n.parameter? = some restName) : n = .rest := by
  have shape : n = .literal "" ∨ ∃ last, n.WellFormed last := by
    rcases root_or_wellFormed_of_parse h with rfl | ⟨-, hw⟩
    · exact .inl (List.mem_singleton.1 hn)
    · exact .inr (hw.wellFormed_of_mem hn)
  rcases shape with rfl | ⟨last, hw⟩
  · cases hp
  · cases n with
    | literal text => cases hp
    | named name optional => exact absurd (Option.some.inj hp) hw.2.2.1
    | rest => rfl

end PatternRouter
