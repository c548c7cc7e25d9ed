import PatternRouter.Proofs.CacheValidity
import PatternRouter.Proofs.Normalization
import PatternRouter.Router.Table

namespace PatternRouter

theorem splitSlash_eq_splitOn (s : List Char) : splitSlash s = s.splitOn '/' := by
  induction s with
  | nil => rfl
  | cons c s ih =>
    rw [List.splitOn, List.splitOnP_cons_eq_if_modifyHead, ← List.splitOn, ← ih]
    by_cases h : c = '/'
    · rw [h]
      rfl
    · rw [splitSlash_cons h, if_neg (by simpa using h)]

theorem joinSlash_eq_intercalate (ps : List (List Char)) : joinSlash ps = ['/'].intercalate ps := by
  induction ps with
  | nil => rfl
  | cons p ps ih =>
    cases ps with
    | nil => rw [joinSlash, List.intercalate_singleton]
    | cons q qs =>
      rw [joinSlash, ih, List.intercalate_cons_cons, List.append_assoc, List.singleton_append]

namespace Path

/-- What lies between the slashes of a path, empty pieces left out. -/
def parts (path : String) : List (List Char) := (path.toList.splitOn '/').filter (!·.isEmpty)

/-- The parts of a path with one slash between neighbours. -/
def joined (path : String) : String := String.ofList (['/'].intercalate (parts path))

theorem segments_eq_parts (path : String) : segments path.toList = parts path := by
  rw [segments, splitSlash_eq_splitOn, parts]

theorem normalize_eq_joined (path : String) : normalize path = joined path := by
  apply String.toList_injective
  rw [toList_normalize, joined, String.toList_ofList, joinSlash_eq_intercalate, segments_eq_parts]

theorem isClean_iff {path : String} : isClean path = true ↔ normalize path = path := by
  constructor
  · intro clean
    apply String.toList_injective
    rw [toList_normalize]
    exact joinSlash_segments_of_isCleanText clean
  · exact isCleanText_of_normalize

theorem normalize_eq_iff {a b : String} :
    normalize a = normalize b ↔ segments a.toList = segments b.toList := by
  constructor
  · intro same
    have texts := congrArg (fun path : String => segments path.toList) same
    simpa only [toList_normalize, segments_joinSlash_segments] using texts
  · intro same
    apply String.toList_injective
    rw [toList_normalize, toList_normalize, same]

end Path

/-- The same error about another pattern. -/
def RouteError.about (source : String) : RouteError → RouteError
  | reservedName _ => reservedName source
  | e => e

theorem Expression.eq_expressionRefused_of_ofNodes [SizeLimit] {nodes : List Node} {e : RouteError}
    (h : ofNodes nodes = .error e) : e = .expressionRefused := by
  unfold ofNodes at h
  split at h
  · cases h
  · exact (Except.error.inj h).symm

namespace Pattern

variable {source other : String}

theorem parse_of_segments (same : segments source.toList = segments other.toList) :
    parse other = (parse source).mapError (·.about other) := by
  unfold parse
  rw [normalizeText_eq, normalizeText_eq, same]
  split <;> rfl

/-- Patterns with the same segments are accepted or refused alike, and differ in nothing but their
sources. -/
theorem compile_of_segments [SizeLimit] (same : segments source.toList = segments other.toList) :
    compile other =
      ((compile source).mapError (·.about other)).map fun p => { p with source := other } := by
  have read' := parse_of_segments same
  cases read : parse source with
  | error e =>
    rw [read] at read'
    have refused : compile other = .error (e.about other) := compile_of_parse_error read'
    rw [compile_of_parse_error read, refused]
    rfl
  | ok nodes =>
    rw [read] at read'
    have both : parse other = .ok nodes := read'
    rw [compile_of_parse read, compile_of_parse both]
    cases made : Expression.ofNodes nodes with
    | error e =>
      obtain rfl := Expression.eq_expressionRefused_of_ofNodes made
      rfl
    | ok x => rfl

end Pattern

theorem RouteTable.hits_of_segments {a b : String} (same : segments a.toList = segments b.toList)
    (t : RouteTable) : t.hits a = t.hits b := by
  rw [hits, hits, Path.normalize_eq_iff.2 same]

namespace Cache

variable [SizeLimit] {c : Cache}

theorem request_new {source : String} {p : Pattern} (new : c.get? source = none)
    (compiled : Pattern.compile source = .ok p) (log : Journal) :
    c.request source log =
      (.ok ⟨log.size, p⟩, ⟨c.entries ++ [(source, ⟨log.size, p⟩)]⟩, log.push p.event) := by
  simp only [request, new, compiled]

theorem get?_request_of_ne {source other : String} (ne : other ≠ source) (log : Journal) :
    (c.request source log).2.1.get? other = c.get? other := by
  unfold request
  split
  · rfl
  · split
    · rfl
    · have miss : (other == source) = false := beq_eq_false_iff_ne.2 ne
      simp only [get?, List.lookup_append, List.lookup_cons, List.lookup_nil, miss, Option.or_none]

/-- Patterns that differ in their slashes are cached apart, each with what it compiles to. -/
theorem requestAll_pair {a b : String} {p : Pattern} (ne : b ≠ a)
    (same : segments a.toList = segments b.toList) (compiled : Pattern.compile a = .ok p)
    (newA : c.get? a = none) (newB : c.get? b = none) (log : Journal) :
    let q : Pattern := { p with source := b }
    let made := [(a, ⟨log.size, p⟩), (b, ⟨log.size + 1, q⟩)]
    c.requestAll [a, b] log =
      (.ok (made.map Prod.snd), ⟨c.entries ++ made⟩, (log.push p.event).push q.event) := by
  intro q made
  have compiledB : Pattern.compile b = .ok q := by
    rw [Pattern.compile_of_segments same, compiled]
    rfl
  have first := request_new newA compiled log
  have still := get?_request_of_ne (c := c) ne log
  rw [first, newB] at still
  have second := request_new still compiledB (log.push p.event)
  simp only [requestAll, first, second, Array.size_push, List.append_assoc, List.singleton_append]
  rfl

end Cache

/-- Slashes mean nothing but where one segment ends and the next begins. A path is normalized to its
parts that are not empty with one slash between neighbours; just the paths that are so already are
left alone, and nothing is left to do the second time. What has the same parts is found in every
table alike. As patterns, both are refused for the same reason, or both are accepted with the
same nodes, expression and shape; they differ in the source, under which each has its own entry in
a cache. -/
theorem slashes_insignificant [SizeLimit] :
    (∀ path, Path.normalize path = Path.joined path ∧
      (Path.isClean path = true ↔ path = Path.joined path) ∧
      Path.normalize (Path.normalize path) = Path.normalize path) ∧
    ∀ a b, Path.parts a = Path.parts b →
      (∀ t : RouteTable, t.hits a = t.hits b) ∧
      (∀ p, Pattern.compile a = .ok p → Pattern.compile b = .ok { p with source := b }) ∧
      (∀ e, Pattern.compile a = .error e → Pattern.compile b = .error (e.about b)) ∧
      ∀ (c : Cache) (log : Journal), b ≠ a →
        (c.request a log).2.1.get? b = c.get? b ∧
        ∀ p, Pattern.compile a = .ok p → c.get? a = none → c.get? b = none →
          let q : Pattern := { p with source := b }
          let made := [(a, ⟨log.size, p⟩), (b, ⟨log.size + 1, q⟩)]
          c.requestAll [a, b] log =
            (.ok (made.map Prod.snd), ⟨c.entries ++ made⟩, (log.push p.event).push q.event) := by
  constructor
  · intro path
    refine ⟨Path.normalize_eq_joined path, ?_, Path.normalize_normalize path⟩
    rw [Path.isClean_iff, Path.normalize_eq_joined, eq_comm]
  · intro a b sameParts
    have same : segments a.toList = segments b.toList := by
      rw [Path.segments_eq_parts, Path.segments_eq_parts, sameParts]
    refine ⟨RouteTable.hits_of_segments same, ?_, ?_, ?_⟩
    · intro p compiled
      rw [Pattern.compile_of_segments same, compiled]
      rfl
    · intro e refused
      rw [Pattern.compile_of_segments same, refused]
      rfl
    · intro c log ne
      refine ⟨Cache.get?_request_of_ne ne log, ?_⟩
      intro p compiled newA newB
      exact Cache.requestAll_pair ne same compiled newA newB log

open Unlimited

theorem slashes_insignificant_users :
    Path.normalize "//users//:id/" = "users/:id" ∧ Path.isClean "users/:id" = true ∧
    (∀ t : RouteTable, t.hits "//users//42/" = t.hits "users/42") ∧
    (∃ p, Pattern.compile "//users//:id/" = .ok p ∧
      Pattern.compile "users/:id" = .ok { p with source := "users/:id" }) ∧
    Pattern.compile "///:*" = .error (.reservedName "///:*") ∧
    Pattern.compile ":*" = .error (.reservedName ":*") := by
  obtain ⟨paths, patterns⟩ := slashes_insignificant
  obtain ⟨p, compiled⟩ : ∃ p, Pattern.compile "//users//:id/" = .ok p := ⟨_, rfl⟩
  have refused : Pattern.compile "///:*" = .error (.reservedName "///:*") := rfl
  refine ⟨(paths _).1, (paths _).2.1.2 (by decide), ?_, ⟨p, compiled, ?_⟩, refused, ?_⟩
  · exact (patterns "//users//42/" "users/42" (by decide)).1
  · exact (patterns "//users//:id/" "users/:id" (by decide)).2.1 p compiled
  · exact (patterns "///:*" ":*" (by decide)).2.2.1 _ refused

end PatternRouter
