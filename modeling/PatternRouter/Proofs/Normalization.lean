import PatternRouter.Path

namespace PatternRouter

/-- Segments with a slash before each. -/
def trail (ps : List (List Char)) : List Char := ps.flatMap ('/' :: ·)

@[simp] theorem trail_nil : trail [] = [] := rfl

@[simp] theorem trail_cons (p : List Char) (ps : List (List Char)) :
    trail (p :: ps) = '/' :: p ++ trail ps := rfl

theorem joinSlash_cons (p : List Char) (ps : List (List Char)) :
    joinSlash (p :: ps) = p ++ trail ps := by
  induction ps generalizing p with
  | nil => simp [joinSlash]
  | cons q ps ih => rw [joinSlash, ih q, trail_cons, List.cons_append]

theorem trail_append (ps qs : List (List Char)) : trail (ps ++ qs) = trail ps ++ trail qs :=
  List.flatMap_append

theorem joinSlash_append {ps qs : List (List Char)} (hp : ps ≠ []) (hq : qs ≠ []) :
    joinSlash (ps ++ qs) = joinSlash ps ++ '/' :: joinSlash qs := by
  obtain ⟨p, ps, rfl⟩ := List.exists_cons_of_ne_nil hp
  obtain ⟨q, qs, rfl⟩ := List.exists_cons_of_ne_nil hq
  rw [List.cons_append, joinSlash_cons, joinSlash_cons, joinSlash_cons, trail_append, trail_cons]
  simp

theorem splitSlash_append (s t : List Char) :
    splitSlash (s ++ '/' :: t) = splitSlash s ++ splitSlash t := by
  have hs := splitSlash_ne_nil s
  have joined := joinSlash_append hs (splitSlash_ne_nil t)
  rw [joinSlash_splitSlash, joinSlash_splitSlash] at joined
  rw [← joined]
  apply splitSlash_joinSlash
  · simp [hs]
  · intro p hp
    rcases List.mem_append.1 hp with hp | hp <;> exact slash_notMem_of_mem_splitSlash hp

theorem splitSlash_joinSlash_eq_flatMap {ps : List (List Char)} (h : ps ≠ []) :
    splitSlash (joinSlash ps) = ps.flatMap splitSlash := by
  induction ps with
  | nil => exact absurd rfl h
  | cons p ps ih =>
    cases ps with
    | nil => rw [joinSlash, List.flatMap_singleton]
    | cons q ps =>
      have later := ih (by simp)
      rw [joinSlash, splitSlash_append, later, List.flatMap_cons (x := p)]

theorem segments_append (s t : List Char) :
    segments (s ++ '/' :: t) = segments s ++ segments t := by
  rw [segments, splitSlash_append, List.filter_append, segments, segments]

theorem mem_segments {s p : List Char} : p ∈ segments s ↔ p ∈ splitSlash s ∧ p ≠ [] := by
  simp [segments]

theorem ne_nil_of_mem_segments {s p : List Char} (h : p ∈ segments s) : p ≠ [] :=
  (mem_segments.1 h).2

theorem slash_notMem_of_mem_segments {s p : List Char} (h : p ∈ segments s) : '/' ∉ p :=
  slash_notMem_of_mem_splitSlash (mem_segments.1 h).1

theorem segments_joinSlash {ps : List (List Char)} (h : ∀ p ∈ ps, p ≠ [] ∧ '/' ∉ p) :
    segments (joinSlash ps) = ps := by
  by_cases hne : ps = []
  · subst hne; rfl
  · rw [segments, splitSlash_joinSlash hne fun p hp => (h p hp).2]
    apply List.filter_eq_self.2
    intro p hp
    simp [(h p hp).1]

theorem mem_joinSlash {ps : List (List Char)} {p : List Char} {c : Char} (hp : p ∈ ps)
    (hc : c ∈ p) : c ∈ joinSlash ps := by
  cases ps with
  | nil => cases hp
  | cons q qs =>
    rw [joinSlash_cons]
    rcases List.mem_cons.1 hp with rfl | hq
    · exact List.mem_append_left _ hc
    · apply List.mem_append_right
      exact List.mem_flatMap.2 ⟨p, hq, List.mem_cons_of_mem _ hc⟩

theorem segments_joinSlash_segments (s : List Char) :
    segments (joinSlash (segments s)) = segments s :=
  segments_joinSlash fun _ hp => ⟨ne_nil_of_mem_segments hp, slash_notMem_of_mem_segments hp⟩

theorem eq_slash_or_mem_of_mem_joinSlash {ps : List (List Char)} {c : Char}
    (h : c ∈ joinSlash ps) : c = '/' ∨ ∃ p ∈ ps, c ∈ p := by
  cases ps with
  | nil => cases h
  | cons p ps =>
    rw [joinSlash_cons, List.mem_append] at h
    rcases h with h | h
    · exact .inr ⟨p, List.mem_cons_self .., h⟩
    · obtain ⟨q, hq, hc⟩ := List.mem_flatMap.1 h
      rcases List.mem_cons.1 hc with hc | hc
      · exact .inl hc
      · exact .inr ⟨q, List.mem_cons_of_mem _ hq, hc⟩

/-- Normalization drops nothing but slashes. -/
theorem mem_joinSlash_segments {s : List Char} {c : Char} (hne : c ≠ '/') (h : c ∈ s) :
    c ∈ joinSlash (segments s) := by
  rw [← joinSlash_splitSlash s] at h
  obtain ⟨p, hp, hc⟩ := (eq_slash_or_mem_of_mem_joinSlash h).resolve_left hne
  exact mem_joinSlash (mem_segments.2 ⟨hp, List.ne_nil_of_mem hc⟩) hc

theorem mem_of_mem_segments {s p : List Char} {c : Char} (hp : p ∈ segments s) (hc : c ∈ p) :
    c ∈ s := by
  rw [← joinSlash_splitSlash s]
  exact mem_joinSlash (mem_segments.1 hp).1 hc

theorem head_splitSlash_ne_nil {s p : List Char} {ps : List (List Char)} (hs : s ≠ [])
    (hh : s.head? ≠ some '/') (h : splitSlash s = p :: ps) : p ≠ [] := by
  cases s with
  | nil => exact absurd rfl hs
  | cons c s =>
    have hc : c ≠ '/' := by simpa using hh
    obtain ⟨q, qs, hq⟩ := List.exists_cons_of_ne_nil (splitSlash_ne_nil s)
    rw [splitSlash_cons hc, hq] at h
    simp only [List.modifyHead_cons, List.cons.injEq] at h
    simp [← h.1]

theorem hasDoubleSlash_cons {c : Char} (h : c ≠ '/') (s : List Char) :
    hasDoubleSlash (c :: s) = hasDoubleSlash s := by
  rw [hasDoubleSlash]
  rintro t rfl
  simp at h

/-- Only the first piece can be empty where no slash ends the text or follows another. -/
theorem tail_splitSlash_ne_nil {s : List Char} (hl : s.getLast? ≠ some '/')
    (hd : hasDoubleSlash s = false) : ∀ p ∈ (splitSlash s).tail, p ≠ [] := by
  induction s with
  | nil => simp
  | cons c s ih =>
    by_cases hs : s = []
    · subst hs
      have hc : c ≠ '/' := by simpa using hl
      simp [splitSlash_cons hc]
    have last : s.getLast? ≠ some '/' := by
      rwa [List.getLast?_cons_of_ne_nil hs] at hl
    obtain ⟨q, qs, hq⟩ := List.exists_cons_of_ne_nil (splitSlash_ne_nil s)
    -- A slash at the front makes the first piece empty and the piece of the rest, which has no
    -- slash at its front, not the first any more.
    by_cases hc : c = '/'
    · subst hc
      have head : s.head? ≠ some '/' := by
        intro hh
        obtain ⟨t, rfl⟩ := List.head?_eq_some_iff.1 hh
        simp [hasDoubleSlash] at hd
      have plain : hasDoubleSlash s = false := by
        cases s with
        | nil => rfl
        | cons d t =>
          have hne : d ≠ '/' := by simpa using head
          rw [hasDoubleSlash] at hd
          · exact hd
          · intro t' _ ht
            exact hne (List.cons.inj ht).1
      have rest := ih last plain
      rw [splitSlash_slash, List.tail_cons, hq]
      rw [hq, List.tail_cons] at rest
      intro p hp
      rcases List.mem_cons.1 hp with rfl | hp
      · exact head_splitSlash_ne_nil hs head hq
      · exact rest p hp
    · rw [hasDoubleSlash_cons hc] at hd
      have rest := ih last hd
      rw [splitSlash_cons hc, hq, List.modifyHead_cons, List.tail_cons]
      rwa [hq, List.tail_cons] at rest

theorem joinSlash_segments_of_isCleanText {s : List Char} (h : isCleanText s = true) :
    joinSlash (segments s) = s := by
  by_cases hs : s = []
  · subst hs; rfl
  simp only [isCleanText, Bool.and_eq_true, bne_iff_ne, Bool.not_eq_true'] at h
  obtain ⟨⟨hh, hl⟩, hd⟩ := h
  have pieces : segments s = splitSlash s := by
    apply List.filter_eq_self.2
    intro p hp
    obtain ⟨q, qs, hq⟩ := List.exists_cons_of_ne_nil (splitSlash_ne_nil s)
    have tail := tail_splitSlash_ne_nil hl hd
    rw [hq, List.tail_cons] at tail
    rw [hq] at hp
    have hne : p ≠ [] := by
      rcases List.mem_cons.1 hp with rfl | hp
      · exact head_splitSlash_ne_nil hs hh hq
      · exact tail p hp
    simp [hne]
  rw [pieces, joinSlash_splitSlash]

theorem hasDoubleSlash_of_notMem {p : List Char} (hp : '/' ∉ p) : hasDoubleSlash p = false := by
  induction p with
  | nil => rfl
  | cons c p ih =>
    simp only [List.mem_cons, not_or] at hp
    rw [hasDoubleSlash_cons (Ne.symm hp.1), ih hp.2]

theorem hasDoubleSlash_append {p s : List Char} (hp : '/' ∉ p) (hs : s.head? ≠ some '/') :
    hasDoubleSlash (p ++ '/' :: s) = hasDoubleSlash s := by
  induction p with
  | nil =>
    rw [List.nil_append, hasDoubleSlash]
    rintro t - rfl
    exact hs rfl
  | cons c p ih =>
    simp only [List.mem_cons, not_or] at hp
    rw [List.cons_append, hasDoubleSlash_cons (Ne.symm hp.1), ih hp.2]

theorem isCleanText_joinSlash {ps : List (List Char)} (h : ∀ p ∈ ps, p ≠ [] ∧ '/' ∉ p) :
    isCleanText (joinSlash ps) = true := by
  have parts : (joinSlash ps).head? ≠ some '/' ∧ (joinSlash ps).getLast? ≠ some '/' ∧
      hasDoubleSlash (joinSlash ps) = false := by
    induction ps with
    | nil => simp [joinSlash, hasDoubleSlash]
    | cons p ps ih =>
      obtain ⟨ne, clean⟩ := h p (List.mem_cons_self ..)
      have head : p.head? ≠ some '/' := fun hh => clean (List.mem_of_head? hh)
      cases ps with
      | nil =>
        have last : p.getLast? ≠ some '/' := fun hl => clean (List.mem_of_getLast? hl)
        exact ⟨head, last, hasDoubleSlash_of_notMem clean⟩
      | cons q ps =>
        obtain ⟨hh, hl, hd⟩ := ih fun r hr => h r (List.mem_cons_of_mem _ hr)
        have full : joinSlash (q :: ps) ≠ [] := by
          rw [joinSlash_cons]
          exact List.append_ne_nil_of_left_ne_nil (h q (by simp)).1 _
        rw [joinSlash]
        refine ⟨?_, ?_, ?_⟩
        · have some_head : p.head?.isSome = true := by simpa using ne
          rwa [List.head?_append, Option.or_of_isSome some_head]
        · have some_last := List.getLast?_isSome.2 full
          rwa [List.getLast?_append, List.getLast?_cons_of_ne_nil full,
            Option.or_of_isSome some_last]
        · rw [hasDoubleSlash_append clean hh, hd]
  simp [isCleanText, parts]

/-- Normalization joins the segments of a text, the clean ones included. -/
theorem normalizeText_eq (s : List Char) : normalizeText s = joinSlash (segments s) := by
  unfold normalizeText
  split
  · next h => exact (joinSlash_segments_of_isCleanText h).symm
  · rfl

theorem segments_normalizeText (s : List Char) : segments (normalizeText s) = segments s := by
  rw [normalizeText_eq, segments_joinSlash_segments]

namespace Path

theorem toList_normalize (path : String) :
    (normalize path).toList = joinSlash (segments path.toList) := by
  rw [normalize, String.toList_ofList, normalizeText_eq]

theorem normalize_normalize (path : String) : normalize (normalize path) = normalize path := by
  apply String.toList_injective
  rw [toList_normalize, toList_normalize, segments_joinSlash_segments]

theorem toList_eq_joinSlash {path : String} (h : normalize path = path) :
    path.toList = joinSlash (segments path.toList) :=
  (congrArg String.toList h).symm.trans (toList_normalize path)

theorem isCleanText_of_normalize {path : String} (h : normalize path = path) :
    isCleanText path.toList = true := by
  rw [toList_eq_joinSlash h]
  exact isCleanText_joinSlash fun p hp =>
    ⟨ne_nil_of_mem_segments hp, slash_notMem_of_mem_segments hp⟩

theorem head?_ne_slash {path : String} (h : normalize path = path) :
    path.toList.head? ≠ some '/' := by
  have clean := isCleanText_of_normalize h
  simp only [isCleanText, Bool.and_eq_true, bne_iff_ne] at clean
  exact clean.1.1

theorem splitSlash_eq_segments {path : String} (h : normalize path = path)
    (hne : path.toList ≠ []) : splitSlash path.toList = segments path.toList := by
  have joined := toList_eq_joinSlash h
  have some_segment : segments path.toList ≠ [] := by
    intro none
    rw [none] at joined
    exact hne joined
  have pieces := splitSlash_joinSlash some_segment fun p hp => slash_notMem_of_mem_segments hp
  rwa [← joined] at pieces

theorem normalize_ofList_joinSlash {ps : List (List Char)} (h : ∀ p ∈ ps, p ≠ [] ∧ '/' ∉ p) :
    normalize (String.ofList (joinSlash ps)) = String.ofList (joinSlash ps) := by
  apply String.toList_injective
  rw [toList_normalize, String.toList_ofList, segments_joinSlash h]

end Path

end PatternRouter
