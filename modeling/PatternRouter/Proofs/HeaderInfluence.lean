import Mathlib.Data.List.TakeWhile
import PatternRouter.Proofs.Announcement

namespace PatternRouter

variable {α : Type}

def isPadding (c : Char) : Bool := c == ' ' || c == '\t'

/-- Whether two values are one text but for spaces and tabs around it and for the case of ASCII
letters. -/
def SpelledAlike (v v' : String) : Prop :=
  ∃ l a r l' a' r' : List Char, v.toList = l ++ a ++ r ∧ v'.toList = l' ++ a' ++ r' ∧
    (∀ c ∈ l ++ r ++ (l' ++ r'), isPadding c = true) ∧ a.map Char.toLower = a'.map Char.toLower

theorem isBlank_of_isPadding {c : Char} (h : isPadding c = true) : isBlank c = true := by
  rw [isPadding, Bool.or_eq_true, beq_iff_eq, beq_iff_eq] at h
  rcases h with rfl | rfl <;> rfl

theorem isPlainValue_of_isPadding {s : List Char} (h : ∀ c ∈ s, isPadding c = true) :
    isPlainValue s = true := by
  apply List.all_eq_true.2
  intro c hc
  have padding := h c hc
  rw [isPadding, Bool.or_eq_true, beq_iff_eq, beq_iff_eq] at padding
  rcases padding with rfl | rfl <;> rfl

theorem isMethodChar_of_isAlpha {c : Char} (h : c.isAlpha = true) : isMethodChar c = true := by
  rw [isMethodChar, Bool.or_eq_true]
  exact .inl (Bool.or_eq_true_iff.2 (.inl h))

theorem isUpper_toUpper {c : Char} (lower : c.isLower = true) : c.toUpper.isUpper = true := by
  unfold Char.isLower at lower
  unfold Char.isUpper Char.toUpper
  grind [UInt32.toNat_add]

theorem toUpper_toLower (c : Char) : c.toLower.toUpper = c.toUpper := by
  unfold Char.toLower Char.toUpper
  simp only [Char.ext_iff]
  split <;> split <;> grind

/-- What holds of all letters alike does not change with their case. -/
theorem toUpper_congr {p : Char → Bool} {b : Bool} (letters : ∀ c, c.isAlpha = true → p c = b)
    (c : Char) : p c.toUpper = p c := by
  by_cases lower : c.isLower = true
  · have alpha : c.isAlpha = true := Bool.or_eq_true_iff.2 (.inr lower)
    have upper : c.toUpper.isAlpha = true := Bool.or_eq_true_iff.2 (.inl (isUpper_toUpper lower))
    rw [letters _ upper, letters _ alpha]
  · rw [toUpper_eq_self_iff.2 (Bool.eq_false_iff.2 lower)]

theorem isBlank_toUpper (c : Char) : isBlank c.toUpper = isBlank c :=
  toUpper_congr (fun _ h => isBlank_eq_false_of_isMethodChar (isMethodChar_of_isAlpha h)) c

theorem dropWhile_isBlank_map_toUpper (s : List Char) :
    (s.map Char.toUpper).dropWhile isBlank = (s.dropWhile isBlank).map Char.toUpper := by
  have same : isBlank ∘ Char.toUpper = isBlank := funext isBlank_toUpper
  rw [List.dropWhile_map, same]

theorem trimBlank_map_toUpper (s : List Char) :
    trimBlank (s.map Char.toUpper) = (trimBlank s).map Char.toUpper := by
  rw [trimBlank, dropWhile_isBlank_map_toUpper, ← List.map_reverse, dropWhile_isBlank_map_toUpper,
    ← List.map_reverse, trimBlank]

theorem isPlainValue_map_toUpper (s : List Char) :
    isPlainValue (s.map Char.toUpper) = isPlainValue s := by
  have letters : ∀ c : Char, c.isAlpha = true →
      (c == '\t' || (32 ≤ c.toNat && c.toNat < 127)) = true := by
    intro c h
    have bounds := isMethodChar_bounds (isMethodChar_of_isAlpha h)
    have low : 32 ≤ c.toNat := by omega
    simp [low, bounds.2]
  rw [isPlainValue, isPlainValue, List.all_map]
  exact congrArg s.all (funext fun c => toUpper_congr letters c)

theorem trimBlank_append {l r : List Char} (hl : ∀ c ∈ l, isBlank c = true)
    (hr : ∀ c ∈ r, isBlank c = true) (s : List Char) : trimBlank (l ++ s ++ r) = trimBlank s := by
  have back : ∀ c ∈ r.reverse, isBlank c = true := by simpa using hr
  rw [List.append_assoc, trimBlank, List.dropWhile_append_of_pos hl, List.dropWhile_append]
  split
  · next blank =>
    have all : r.dropWhile isBlank = [] := List.dropWhile_eq_nil_iff.2 hr
    rw [all, trimBlank, List.isEmpty_iff.1 blank]
  · rw [List.reverse_append, List.dropWhile_append_of_pos back, trimBlank]

namespace SpelledAlike

variable {v v' : String}

theorem symm (h : SpelledAlike v v') : SpelledAlike v' v := by
  obtain ⟨l, a, r, l', a', r', hv, hv', padding, same⟩ := h
  refine ⟨l', a', r', l, a, r, hv', hv, ?_, same.symm⟩
  intro c hc
  exact padding c (List.perm_append_comm.mem_iff.1 hc)

/-- Values that are spelled alike are readable alike, and are the same trimmed and in upper case. -/
theorem eq_of_trimmed (h : SpelledAlike v v') :
    isPlainValue v.toList = isPlainValue v'.toList ∧
      (trimBlank v.toList).map Char.toUpper = (trimBlank v'.toList).map Char.toUpper := by
  obtain ⟨l, a, r, l', a', r', hv, hv', padding, same⟩ := h
  have upper : a.map Char.toUpper = a'.map Char.toUpper := by
    have raised := congrArg (List.map Char.toUpper) same
    simpa [Function.comp_def, toUpper_toLower] using raised
  have around : ∀ s, (∀ c ∈ s, c ∈ l ++ r ++ (l' ++ r')) → (∀ c ∈ s, isBlank c = true) ∧
      isPlainValue s = true := by
    intro s hs
    exact ⟨fun c hc => isBlank_of_isPadding (padding c (hs c hc)),
      isPlainValue_of_isPadding fun c hc => padding c (hs c hc)⟩
  have hl := around l (by simp +contextual)
  have hr := around r (by simp +contextual)
  have hl' := around l' (by simp +contextual)
  have hr' := around r' (by simp +contextual)
  have plain : isPlainValue a = isPlainValue a' := by
    rw [← isPlainValue_map_toUpper a, upper, isPlainValue_map_toUpper]
  have append : ∀ x y, isPlainValue (x ++ y) = (isPlainValue x && isPlainValue y) :=
    fun _ _ => List.all_append
  constructor
  · rw [hv, hv', append, append, append, append, hl.2, hr.2, hl'.2, hr'.2, plain]
  · rw [hv, hv', trimBlank_append hl.1 hr.1, trimBlank_append hl'.1 hr'.1,
      ← trimBlank_map_toUpper, upper, trimBlank_map_toUpper]

end SpelledAlike

/-- How an announcement is spelled does not bear on what it announces. -/
theorem announces_of_spelledAlike {headers others : Headers} {m t : Method}
    (same : Option.Rel SpelledAlike (headers.first? requestMethodHeader)
      (others.first? requestMethodHeader))
    (h : Announces m headers t) : Announces m others t := by
  obtain ⟨preflight, v, first, plain, name⟩ := h
  rw [first] at same
  generalize others_first : others.first? requestMethodHeader = first' at same
  cases same with
  | @some _ v' alike =>
    obtain ⟨readable, trimmed⟩ := alike.eq_of_trimmed
    exact ⟨preflight, v', others_first, readable ▸ plain, trimmed ▸ name⟩

theorem announces_iff_of_spelledAlike {headers others : Headers}
    (same : Option.Rel SpelledAlike (headers.first? requestMethodHeader)
      (others.first? requestMethodHeader)) (m t : Method) :
    Announces m headers t ↔ Announces m others t := by
  have back : Option.Rel SpelledAlike (others.first? requestMethodHeader)
      (headers.first? requestMethodHeader) := by
    generalize headers.first? requestMethodHeader = first at same ⊢
    generalize others.first? requestMethodHeader = first' at same ⊢
    cases same with
    | some alike => exact .some alike.symm
    | none => exact .none
  exact ⟨announces_of_spelledAlike same, announces_of_spelledAlike back⟩

/-- Where a route takes the request's own method no header field has a say. -/
theorem IsResolution.hit_eq_of_matchesAs [SizeLimit] {rs : List (String × Endpoint α)} {m : Method}
    {path : String} {headers others : Headers} {d d' : Resolution α}
    (hd : IsResolution rs m path headers d) (hd' : IsResolution rs m path others d')
    (taken : ∃ h, MatchesAs rs path m h) :
    ∃ c k, d = .matched c ∧ d' = .matched k ∧ k.hit = c.hit := by
  obtain ⟨c, rfl⟩ := hd.matched_iff.2 taken
  obtain ⟨h, first, of_hit⟩ := hd.isFirst_of_matched
  obtain ⟨k, rfl, of_hit'⟩ := hd'.matched_of_isFirst first
  exact ⟨c, k, rfl, rfl, of_hit'.hit_eq of_hit⟩

theorem HttpRouter.find_eq_some_iff {r : HttpRouter α} {m : Method} {path : String}
    {w : Workspace} {c : Selection α} :
    (r.find m path w).1 = some c ↔ (r.resolve m path [] w).1 = .matched c := by
  unfold find
  generalize r.resolve m path [] w = x
  obtain ⟨d, r', w'⟩ := x
  cases d <;> simp

namespace HttpSession

/-- The header fields of two requests for a path lead to different routes only where both are
preflights that no route takes itself and that do not announce the same. The route that is found for
a method is that of every request with the method, whatever its header fields. -/
theorem headers_bear_by_announcement [SizeLimit] [Describe α] {s : HttpSession α} (hs : s.Reachable)
    (m : Method) (path : String) :
    let resolve (headers : Headers) := (s.router.resolve m path headers s.workspace).1
    let found := (s.router.find m path s.workspace).1
    (∀ headers others : Headers,
      (m ≠ Method.options ∨
        (∃ h, MatchesAs s.router.routes.toList path Method.options h) ∨
        Option.Rel SpelledAlike (headers.first? requestMethodHeader)
          (others.first? requestMethodHeader)) →
      (resolve others).target = (resolve headers).target) ∧
    ((∃ c, found = some c) ↔ ∀ headers, ∃ c, resolve headers = .matched c) ∧
    ∀ c, found = some c → ∀ headers, ∃ k, resolve headers = .matched k ∧ k.hit = c.hit := by
  intro resolve found
  have resolves : ∀ headers, IsResolution s.router.routes.toList m path headers (resolve headers) :=
    fun headers => HttpRouter.isResolution_resolve hs.valid.routes m path headers s.workspace
  have everywhere : ∀ c, found = some c →
      ∀ headers, ∃ k, resolve headers = .matched k ∧ k.hit = c.hit := by
    intro c hc headers
    have plain : resolve [] = .matched c := HttpRouter.find_eq_some_iff.1 hc
    have taken := (resolves []).matched_iff.1 ⟨c, plain⟩
    obtain ⟨c', k, hc', hk, same⟩ := (resolves []).hit_eq_of_matchesAs (resolves headers) taken
    obtain rfl := Resolution.matched.inj (plain.symm.trans hc')
    exact ⟨k, hk, same⟩
  refine ⟨?_, ?_, everywhere⟩
  · intro headers others why
    -- Any other method announces nothing, whatever the fields are.
    by_cases preflight : m = Method.options
    · rcases why with other | taken | same
      · exact absurd preflight other
      · rw [← preflight] at taken
        obtain ⟨c, k, hc, hk, same⟩ :=
          (resolves headers).hit_eq_of_matchesAs (resolves others) taken
        simp [Resolution.target, Resolution.outcome, Resolution.selection?, hc, hk, same]
      · exact (resolves headers).target_eq (resolves others) (announces_iff_of_spelledAlike same m)
    · have silent : ∀ hd t, ¬Announces m hd t := fun _ _ announced => preflight announced.1
      exact (resolves headers).target_eq (resolves others) fun t =>
        iff_of_false (silent headers t) (silent others t)
  · constructor
    · intro some_found headers
      obtain ⟨c, hc⟩ := some_found
      obtain ⟨k, hk, -⟩ := everywhere c hc headers
      exact ⟨k, hk⟩
    · intro all
      obtain ⟨c, hc⟩ := all []
      exact ⟨c, HttpRouter.find_eq_some_iff.2 hc⟩

open Unlimited

theorem headers_bear_by_announcement_post :
    ∃ (s : HttpSession Nat) (c : Selection Nat), s.Reachable ∧
      (s.router.find Method.post "/a" s.workspace).1 = some c ∧ c.index = 1 ∧
      (∀ headers, ∃ k,
        (s.router.resolve Method.post "/a" headers s.workspace).1 = .matched k ∧ k.hit = c.hit) ∧
      (s.router.resolve Method.options "/a" [⟨requestMethodHeader, "\tpOSt "⟩,
          ⟨originHeader, "here"⟩, ⟨requestMethodHeader, "get"⟩] s.workspace).1.target =
        (s.router.resolve Method.options "/a" [⟨requestMethodHeader, "Post"⟩]
          s.workspace).1.target ∧
      ∃ k, (s.router.resolve Method.options "/a" [⟨requestMethodHeader, "Post"⟩]
        s.workspace).1 = .preflight k := by
  have first : Reachable (empty.step (.insert "GET" "/a" 1 none true)).2 := .step _ .empty
  have both := Reachable.step (.insert "POST" "/:x" 2 none true) first
  have ⟨_, _, everywhere⟩ := headers_bear_by_announcement both Method.post "/a"
  have ⟨blind, _⟩ := headers_bear_by_announcement both Method.options "/a"
  have alike : SpelledAlike "Post" "\tpOSt " :=
    ⟨[], "Post".toList, [], ['\t'], "pOSt".toList, [' '], rfl, rfl, by simp [isPadding], by decide⟩
  exact ⟨_, _, both, rfl, rfl, everywhere _ rfl, blind _ _ (.inr (.inr (.some alike))), _, rfl⟩

end HttpSession

end PatternRouter
