import PatternRouter.Pattern.Printer
import PatternRouter.Proofs.WellFormed

namespace PatternRouter

/-- Whether a list of nodes is that of a pattern. -/
def IsPattern (nodes : List Node) : Prop := nodes = rootNodes ∨ nodes ≠ [] ∧ WellFormedNodes nodes

/-- The segments of parameters that bear the reserved name. -/
def IsReserved (p : List Char) : Prop := p = ":*".toList ∨ p = ":*?".toList

def byteCount : List Char → Nat
  | [] => 0
  | c :: s => c.utf8Size + byteCount s

/-- A text cut at a byte, or `none` if there are fewer bytes or the cut goes through a character. -/
def cutAtByte? : Nat → List Char → Option (List Char × List Char)
  | 0, s => some ([], s)
  | _ + 1, [] => none
  | n + 1, c :: s =>
    if c.utf8Size ≤ n + 1 then
      (cutAtByte? (n + 1 - c.utf8Size) s).map fun r => (c :: r.1, r.2)
    else none

/-- The text from byte `i` up to byte `j`, where both are in order and cut no character. -/
def byteSlice? (i j : Nat) (s : List Char) : Option (List Char) :=
  if i ≤ j then
    (cutAtByte? j s).bind fun r => (cutAtByte? i r.1).map Prod.snd
  else none

/-- The name in the segment of a parameter: what lies between its colon and the question mark at its
end, if it has one, each of which is one byte. -/
def nameSlice? (p : List Char) : Option (List Char) :=
  byteSlice? 1 (if p.getLast? = some '?' then byteCount p - 1 else byteCount p) p

def bareName (s : List Char) : List Char := if s.getLast? = some '?' then s.dropLast else s

theorem byteCount_append (s t : List Char) : byteCount (s ++ t) = byteCount s + byteCount t := by
  induction s with
  | nil => exact (Nat.zero_add _).symm
  | cons c s ih => rw [List.cons_append, byteCount, byteCount, ih, Nat.add_assoc]

theorem cutAtByte?_byteCount (s t : List Char) :
    cutAtByte? (byteCount s) (s ++ t) = some (s, t) := by
  induction s with
  | nil => cases t <;> rfl
  | cons c s ih =>
    obtain ⟨n, hn⟩ := Nat.exists_eq_succ_of_ne_zero (Nat.ne_of_gt c.utf8Size_pos)
    have count : byteCount (c :: s) = n + byteCount s + 1 := by
      rw [byteCount, hn]
      omega
    have behind : n + byteCount s + 1 - c.utf8Size = byteCount s := by omega
    rw [count, List.cons_append, cutAtByte?, if_pos (by omega), behind, ih]
    rfl

theorem byteSlice?_append (s t u : List Char) :
    byteSlice? (byteCount s) (byteCount s + byteCount t) (s ++ t ++ u) = some t := by
  have front := cutAtByte?_byteCount (s ++ t) u
  rw [byteCount_append] at front
  rw [byteSlice?, if_pos (Nat.le_add_right ..), front, Option.bind_some, cutAtByte?_byteCount]
  rfl

/-- The bytes around the name of a parameter can always be cut off. -/
theorem nameSlice?_eq {s : List Char} (hs : s ≠ []) (hq : s ≠ ['?']) :
    nameSlice? (':' :: s) = some (bareName s) := by
  rw [nameSlice?, bareName, List.getLast?_cons_of_ne_nil hs]
  by_cases ends : s.getLast? = some '?'
  · obtain ⟨t, rfl⟩ := List.getLast?_eq_some_iff.1 ends
    have mark : byteCount ['?'] = 1 := rfl
    have count : byteCount (':' :: (t ++ ['?'])) - 1 = byteCount [':'] + byteCount t := by
      rw [← List.singleton_append, byteCount_append, byteCount_append, mark]
      rfl
    rw [if_pos ends, if_pos ends, count, List.dropLast_concat]
    exact byteSlice?_append [':'] t ['?']
  · have whole := byteSlice?_append [':'] s []
    rw [List.append_nil] at whole
    rw [if_neg ends, if_neg ends]
    exact whole

theorem parameterNode?_eq (s : List Char) :
    parameterNode? s =
      if String.ofList (bareName s) = restName then none
      else some (.named (String.ofList (bareName s)) (s.getLast? == some '?')) := by
  unfold bareName
  simp only [parameterNode?, beq_iff_eq]

theorem segmentNode?_colon {s : List Char} (hs : s ≠ []) (hq : s ≠ ['?']) (last : Bool) :
    segmentNode? last (':' :: s) = parameterNode? s := by
  rw [segmentNode?]
  · rintro rfl
    exact hs rfl
  · rintro rfl
    exact hq rfl

theorem segment_of_parameterNode? {s : List Char} {n : Node} (h : parameterNode? s = some n) :
    n.segment = ':' :: s := by
  rw [parameterNode?_eq, Option.ite_none_left_eq_some, Option.some.injEq] at h
  obtain ⟨-, rfl⟩ := h
  by_cases ends : s.getLast? = some '?'
  · obtain ⟨t, rfl⟩ := List.getLast?_eq_some_iff.1 ends
    simp [Node.segment, bareName]
  · have required : (s.getLast? == some '?') = false := by simpa using ends
    simp [Node.segment, bareName, ends, required]

theorem segment_of_segmentNode? {last : Bool} {p : List Char} {n : Node}
    (h : segmentNode? last p = some n) : n.segment = p := by
  unfold segmentNode? at h
  split at h
  · obtain rfl := Option.some.inj h
    rfl
  · obtain rfl := Option.some.inj h
    rfl
  · exact segment_of_parameterNode? h
  · split at h
    · next star =>
      obtain rfl := Option.some.inj h
      exact star.1.symm
    · obtain rfl := Option.some.inj h
      exact String.toList_ofList

theorem segmentNode?_segment {last : Bool} {n : Node} (h : n.WellFormed last) :
    segmentNode? last n.segment = some n := by
  cases n with
  | literal text =>
    obtain ⟨-, -, star, colon⟩ := h
    by_cases head : text.toList.head? = some ':'
    · rcases colon head with rfl | rfl <;> rfl
    · have other : ∀ s, text.toList ≠ ':' :: s := by
        intro s same
        rw [same] at head
        exact head rfl
      have plain : ¬(text.toList = ['*'] ∧ last = true) := by
        intro ⟨same, ends⟩
        exact star ends (String.toList_injective same)
      rw [Node.segment, segmentNode?, if_neg plain, String.ofList_toList]
      · exact other _
      · exact other _
      · exact other
  | named name optional =>
    obtain ⟨ne, -, unreserved, required⟩ := h
    cases optional with
    | false =>
      have ends := required rfl
      have mark : name.toList ≠ ['?'] := by
        intro same
        rw [same] at ends
        exact ends rfl
      rw [Node.segment, segmentNode?_colon ne mark, parameterNode?_eq, bareName, if_neg ends,
        String.ofList_toList, if_neg unreserved, beq_eq_false_iff_ne.2 ends]
    | true =>
      have mark : name.toList ++ ['?'] ≠ ['?'] := by simpa using ne
      rw [Node.segment, List.cons_append, segmentNode?_colon (by simp) mark, parameterNode?_eq]
      simp [bareName, unreserved]
  | rest =>
    obtain rfl : last = true := h
    rfl

theorem segmentNode?_eq_none_iff {last : Bool} {p : List Char} :
    segmentNode? last p = none ↔ IsReserved p := by
  constructor
  · intro h
    unfold segmentNode? at h
    split at h
    · cases h
    · cases h
    · next s _ _ =>
      rw [parameterNode?_eq, ite_eq_left_iff] at h
      by_cases same : String.ofList (bareName s) = restName
      · have name := congrArg String.toList same
        rw [String.toList_ofList, bareName] at name
        split at name
        · next ends =>
          obtain ⟨t, rfl⟩ := List.getLast?_eq_some_iff.1 ends
          rw [List.dropLast_concat] at name
          subst name
          exact .inr rfl
        · subst name
          exact .inl rfl
      · cases h same
    · split at h <;> cases h
  · rintro (rfl | rfl) <;> rfl

theorem map_segment_of_segmentNodes? {ps : List (List Char)} {ns : List Node}
    (h : segmentNodes? ps = some ns) : ns.map Node.segment = ps := by
  induction ps generalizing ns with
  | nil =>
    obtain rfl := Option.some.inj h
    rfl
  | cons p ps ih =>
    obtain ⟨n, ms, hn, hms, rfl⟩ := segmentNodes?_cons_eq_some.1 h
    rw [List.map_cons, segment_of_segmentNode? hn, ih hms]

theorem segmentNodes?_map_segment {ns : List Node} (h : WellFormedNodes ns) :
    segmentNodes? (ns.map Node.segment) = some ns := by
  induction ns with
  | nil => rfl
  | cons n ns ih =>
    apply segmentNodes?_cons_eq_some.2
    rw [List.isEmpty_map]
    exact ⟨n, ns, segmentNode?_segment h.1, ih h.2, rfl⟩

theorem segmentNodes?_eq_none_iff {ps : List (List Char)} :
    segmentNodes? ps = none ↔ ∃ p ∈ ps, IsReserved p := by
  induction ps with
  | nil => simp [segmentNodes?]
  | cons p ps ih =>
    have first := @segmentNode?_eq_none_iff ps.isEmpty p
    simp only [List.mem_cons, exists_eq_or_imp, ← ih, ← first]
    cases hn : segmentNode? ps.isEmpty p with
    | none => simp [segmentNodes?, hn]
    | some n => cases hns : segmentNodes? ps <;> simp [segmentNodes?, hn, hns]

theorem Pattern.parse_eq_error_iff {source : String} {e : RouteError} :
    Pattern.parse source = .error e ↔
      e = .reservedName source ∧
        segmentNodes? (splitSlash (normalizeText source.toList)) = none := by
  unfold Pattern.parse
  split
  · next ns h => simp [h]
  · next h => simp [h, eq_comm]

theorem segment_ne_nil_and_notMem {last : Bool} {n : Node} (h : n.WellFormed last) :
    n.segment ≠ [] ∧ '/' ∉ n.segment := by
  cases n with
  | literal text => exact ⟨h.1, h.2.1⟩
  | named name optional => cases optional <;> simp [Node.segment, h.2.1]
  | rest => simp [Node.segment, restName]

theorem print_of_parse {source : String} {nodes : List Node}
    (h : Pattern.parse source = .ok nodes) : Pattern.print nodes = Path.normalize source := by
  have pieces := map_segment_of_segmentNodes? (Pattern.parse_eq_ok.1 h)
  rw [Pattern.print, pieces, joinSlash_splitSlash, Path.normalize]

theorem parse_print {nodes : List Node} (h : IsPattern nodes) :
    Pattern.parse (Pattern.print nodes) = .ok nodes := by
  rcases h with rfl | ⟨ne, hw⟩
  · rfl
  have clean : ∀ p ∈ nodes.map Node.segment, p ≠ [] ∧ '/' ∉ p := by
    intro p hp
    obtain ⟨n, hn, rfl⟩ := List.mem_map.1 hp
    obtain ⟨last, hl⟩ := hw.wellFormed_of_mem hn
    exact segment_ne_nil_and_notMem hl
  rw [Pattern.parse_eq_ok, splitSlash_normalizeText, Pattern.print, String.toList_ofList,
    segments_joinSlash clean, if_neg (by simpa using ne)]
  exact segmentNodes?_map_segment hw

/-- A pattern is refused for a segment with the reserved name, and for nothing else. -/
theorem segmentNodes?_splitSlash_eq_none_iff (s : List Char) :
    segmentNodes? (splitSlash (normalizeText s)) = none ↔ ∃ p ∈ segments s, IsReserved p := by
  rw [splitSlash_normalizeText]
  split
  · next none =>
    rw [none]
    simp [segmentNodes?, segmentNode?]
  · exact segmentNodes?_eq_none_iff

/-- Reading and printing are inverse to each other. A pattern is printed as its normal path, and its
nodes are well formed; nodes that are well formed are read back from what is printed for them. Only
a reserved name is refused, and no name is cut out of its segment anywhere but between characters.
-/
theorem parse_inverts_print :
    (∀ source nodes, Pattern.parse source = .ok nodes →
      Pattern.print nodes = Path.normalize source ∧ IsPattern nodes) ∧
    (∀ nodes, IsPattern nodes → Pattern.parse (Pattern.print nodes) = .ok nodes) ∧
    (∀ source e, Pattern.parse source = .error e ↔
      e = .reservedName source ∧ ∃ p ∈ segments source.toList, IsReserved p) ∧
    ∀ (source : String), ∀ p ∈ splitSlash (normalizeText source.toList),
      p.head? = some ':' → p ≠ ":".toList → p ≠ ":?".toList →
        ∃ name, nameSlice? p = some name ∧ ∀ last, segmentNode? last p =
          if String.ofList name = restName then none
          else some (.named (String.ofList name) (p.getLast? == some '?')) := by
  refine ⟨?_, fun nodes => parse_print, ?_, ?_⟩
  · intro source nodes h
    exact ⟨print_of_parse h, root_or_wellFormed_of_parse h⟩
  · intro source e
    rw [Pattern.parse_eq_error_iff, segmentNodes?_splitSlash_eq_none_iff]
  · intro source p _ head colon mark
    obtain ⟨s, rfl⟩ := List.head?_eq_some_iff.1 head
    have ne : s ≠ [] := by
      rintro rfl
      exact colon rfl
    have other : s ≠ ['?'] := by
      rintro rfl
      exact mark rfl
    refine ⟨_, nameSlice?_eq ne other, ?_⟩
    intro last
    rw [segmentNode?_colon ne other, parameterNode?_eq, List.getLast?_cons_of_ne_nil ne]

theorem parse_inverts_print_optional :
    ∃ nodes, Pattern.parse "//a/:é?/*/" = .ok nodes ∧ IsPattern nodes ∧
      Pattern.print nodes = "a/:é?/*" ∧ Pattern.parse (Pattern.print nodes) = .ok nodes ∧
      Pattern.parse "/:*?/b" = .error (.reservedName "/:*?/b") ∧
      nameSlice? ":é?".toList = some ['é'] := by
  have ⟨printed, read, refused, sliced⟩ := parse_inverts_print
  have given : Pattern.parse "//a/:é?/*/" = .ok [.literal "a", .named "é" true, .rest] := rfl
  obtain ⟨normal, well⟩ := printed _ _ given
  have segment : ":é?".toList ∈ splitSlash (normalizeText "//a/:é?/*/".toList) := by decide
  obtain ⟨name, cut, -⟩ := sliced _ _ segment rfl (by decide) (by decide)
  have reserved : Pattern.parse "/:*?/b" = .error (.reservedName "/:*?/b") :=
    (refused _ _).2 ⟨rfl, ":*?".toList, by decide, .inr rfl⟩
  obtain rfl : ['é'] = name := Option.some.inj cut
  exact ⟨_, given, well, normal, read _ well, reserved, cut⟩

end PatternRouter
