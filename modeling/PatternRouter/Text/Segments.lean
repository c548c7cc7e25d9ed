namespace PatternRouter

/-- Puts one more character in front of the pieces of the rest. -/
private def cutStep (c : Char) (ps : List (List Char)) : List (List Char) :=
  if c = '/' then [] :: ps else ps.modifyHead (c :: ·)

/-- The pieces of a text between its slashes, empty ones kept. -/
def splitSlash (s : List Char) : List (List Char) := s.foldr cutStep [[]]

def joinSlash : List (List Char) → List Char
  | [] => []
  | [p] => p
  | p :: q :: ps => p ++ '/' :: joinSlash (q :: ps)

/-- The pieces of a text that are not empty. -/
def segments (s : List Char) : List (List Char) := (splitSlash s).filter (!·.isEmpty)

@[simp] theorem splitSlash_nil : splitSlash [] = [[]] := rfl

@[simp] theorem splitSlash_slash (s : List Char) : splitSlash ('/' :: s) = [] :: splitSlash s :=
  rfl

theorem splitSlash_cons {c : Char} (h : c ≠ '/') (s : List Char) :
    splitSlash (c :: s) = (splitSlash s).modifyHead (c :: ·) := by
  simp [splitSlash, cutStep, h]

theorem splitSlash_ne_nil (s : List Char) : splitSlash s ≠ [] := by
  induction s with
  | nil => simp
  | cons c s ih =>
    by_cases h : c = '/'
    · subst h; simp
    · cases hs : splitSlash s with
      | nil => exact absurd hs ih
      | cons p ps => simp [splitSlash_cons h, hs]

theorem joinSlash_splitSlash (s : List Char) : joinSlash (splitSlash s) = s := by
  induction s with
  | nil => rfl
  | cons c s ih =>
    cases hs : splitSlash s with
    | nil => exact absurd hs (splitSlash_ne_nil s)
    | cons p ps =>
      rw [hs] at ih
      by_cases h : c = '/'
      · subst h; simp [hs, joinSlash, ih]
      · cases ps <;> simp_all [splitSlash_cons h, joinSlash]

theorem slash_notMem_of_mem_splitSlash {s p : List Char} (hp : p ∈ splitSlash s) : '/' ∉ p := by
  induction s generalizing p with
  | nil => simp_all
  | cons c s ih =>
    cases hs : splitSlash s with
    | nil => exact absurd hs (splitSlash_ne_nil s)
    | cons q qs =>
      rw [hs] at ih
      by_cases h : c = '/'
      · subst h
        rw [splitSlash_slash, hs] at hp
        rcases List.mem_cons.1 hp with rfl | hp
        · simp
        · exact ih hp
      · rw [splitSlash_cons h, hs] at hp
        rcases List.mem_cons.1 hp with rfl | hp
        · simpa [Ne.symm h] using ih (List.mem_cons_self ..)
        · exact ih (List.mem_cons_of_mem _ hp)

theorem splitSlash_of_notMem {p : List Char} (h : '/' ∉ p) : splitSlash p = [p] := by
  induction p with
  | nil => rfl
  | cons c p ih =>
    simp only [List.mem_cons, not_or] at h
    rw [splitSlash_cons (Ne.symm h.1), ih h.2]
    rfl

theorem splitSlash_append_slash {p : List Char} (h : '/' ∉ p) (s : List Char) :
    splitSlash (p ++ '/' :: s) = p :: splitSlash s := by
  induction p with
  | nil => rfl
  | cons c p ih =>
    simp only [List.mem_cons, not_or] at h
    rw [List.cons_append, splitSlash_cons (Ne.symm h.1), ih h.2]
    rfl

theorem splitSlash_joinSlash {ps : List (List Char)} (hne : ps ≠ []) (h : ∀ p ∈ ps, '/' ∉ p) :
    splitSlash (joinSlash ps) = ps := by
  induction ps with
  | nil => exact absurd rfl hne
  | cons p ps ih =>
    have hp : '/' ∉ p := h p (by simp)
    cases ps with
    | nil => exact splitSlash_of_notMem hp
    | cons q qs =>
      rw [joinSlash, splitSlash_append_slash hp, ih (by simp) fun r hr => h r (by simp [hr])]

end PatternRouter
