import PatternRouter.Proofs.DistinctNames
import PatternRouter.Proofs.PieceMatching

namespace PatternRouter

/-- What a node adds to a path: its text, or the value of its parameter where there is one. -/
def Node.piece? (v : String → Option String) : Node → Option (List Char)
  | literal text => some text.toList
  | named name _ => (v name).map String.toList
  | rest => (v restName).map String.toList

/-- The path of nodes with these values for their parameters. -/
def writePath (nodes : List Node) (v : String → Option String) : String :=
  String.ofList (joinSlash (nodes.filterMap (Node.piece? v)))

/-- The values of the parameters of nodes, in the order of the nodes. -/
def valuesOf (nodes : List Node) (v : String → Option String) : List (String × String) :=
  (nodes.filterMap Node.parameter?).filterMap fun name => (v name).map (name, ·)

/-- The names that nodes give to their parameters, apart from the name of the rest. -/
def namesOf (nodes : List Node) : List String :=
  nodes.filterMap fun
    | .named name _ => some name
    | _ => none

/-- Whether two nodes differ at most in the letter case of their texts. -/
inductive Node.Respelled : Node → Node → Prop where
  | literal {text spelling : String} : caselessText text.toList spelling.toList = true →
      Respelled (literal text) (literal spelling)
  | named (name : String) (optional : Bool) : Respelled (named name optional) (named name optional)
  | rest : Respelled rest rest

/-- Whether every named parameter has a segment as its value, and the rest has one or more segments
of a line, if it has any. -/
structure Chosen (nodes : List Node) (v : String → Option String) : Prop where
  named : ∀ name optional, Node.named name optional ∈ nodes →
    ∃ value, v name = some value ∧ value.toList ≠ [] ∧ '/' ∉ value.toList
  rest : Node.rest ∈ nodes → ∀ value, v restName = some value →
    ∃ ss, ss ≠ [] ∧ LineSegments ss ∧ value = String.ofList (joinSlash ss)

theorem Chosen.tail {n : Node} {nodes : List Node} {v : String → Option String}
    (h : Chosen (n :: nodes) v) : Chosen nodes v :=
  ⟨fun name optional mem => h.named name optional (List.mem_cons_of_mem _ mem),
    fun mem => h.rest (List.mem_cons_of_mem _ mem)⟩

theorem takesAll_of_chosen {n m : Node} {nodes : List Node} {v : String → Option String}
    (hv : Chosen (n :: nodes) v) (h : n.Respelled m) : n.TakesAll (m.piece? v) := by
  cases h with
  | literal same => exact ⟨same, nofun⟩
  | named name optional =>
    obtain ⟨value, hvalue, ne, clean⟩ := hv.named name optional (List.mem_cons_self ..)
    rw [Node.piece?, hvalue]
    exact ⟨⟨ne, clean⟩, nofun⟩
  | rest =>
    cases hr : v restName with
    | none =>
      rw [Node.piece?, hr]
      exact ⟨rfl, fun _ => rfl⟩
    | some value =>
      obtain ⟨ss, ne, lines, rfl⟩ := hv.rest (List.mem_cons_self ..) value hr
      obtain ⟨s, ss, rfl⟩ := List.exists_cons_of_ne_nil ne
      rw [Node.piece?, hr, Option.map_some, String.toList_ofList]
      exact ⟨⟨joinSlash_cons_ne_nil lines, lineFeed_notMem_joinSlash lines⟩, fun _ => rfl⟩

theorem forall₂_takesAll {nodes spelled : List Node} {v : String → Option String}
    (hv : Chosen nodes v) (h : List.Forall₂ Node.Respelled nodes spelled) :
    List.Forall₂ Node.TakesAll nodes (spelled.map (Node.piece? v)) := by
  induction h with
  | nil => exact .nil
  | cons hn _ ih => exact .cons (takesAll_of_chosen hv hn) (ih hv.tail)

theorem Node.piece?_of_parameter? {n : Node} {name : String} (h : n.parameter? = some name)
    (v : String → Option String) : n.piece? v = (v name).map String.toList := by
  cases n with
  | literal text => cases h
  | named other optional =>
    obtain rfl := Option.some.inj h
    rfl
  | rest =>
    obtain rfl := Option.some.inj h
    rfl

theorem Node.Respelled.parameter? {n m : Node} (h : n.Respelled m) :
    m.parameter? = n.parameter? := by
  cases h <;> rfl

theorem bindPieces_respelled {nodes spelled : List Node} {v : String → Option String}
    (h : List.Forall₂ Node.Respelled nodes spelled) :
    bindPieces nodes (spelled.map (Node.piece? v)) =
      (nodes.filterMap Node.parameter?).map fun name => (name, (v name).map String.toList) := by
  induction h with
  | nil => rfl
  | @cons n m nodes spelled hn _ ih =>
    rw [List.map_cons]
    cases hp : n.parameter? with
    | none => rw [bindPieces_cons_none hp, ih, List.filterMap_cons_none hp]
    | some name =>
      have value := Node.piece?_of_parameter? (hn.parameter?.trans hp) v
      rw [bindPieces_cons_some hp, ih, value, List.filterMap_cons_some hp, List.map_cons]

theorem filterMap_pair?_respelled {nodes spelled : List Node} {v : String → Option String}
    (h : List.Forall₂ Node.Respelled nodes spelled) :
    (bindPieces nodes (spelled.map (Node.piece? v))).filterMap Bindings.pair? =
      valuesOf nodes v := by
  rw [bindPieces_respelled h, List.filterMap_map, valuesOf]
  apply List.filterMap_congr
  intro name _
  cases hv : v name <;> simp [Bindings.pair?, hv]

theorem mem_map_fst_valuesOf {nodes : List Node} {v : String → Option String} {name : String} :
    name ∈ (valuesOf nodes v).map Prod.fst ↔
      name ∈ nodes.filterMap Node.parameter? ∧ (v name).isSome = true := by
  rw [valuesOf, List.mem_map]
  constructor
  · intro found
    obtain ⟨e, he, rfl⟩ := found
    obtain ⟨other, hn, hv⟩ := List.mem_filterMap.1 he
    obtain ⟨value, hvalue, rfl⟩ := Option.map_eq_some_iff.1 hv
    exact ⟨hn, by rw [hvalue]; rfl⟩
  · intro chosen
    obtain ⟨hn, hv⟩ := chosen
    obtain ⟨value, hvalue⟩ := Option.isSome_iff_exists.1 hv
    exact ⟨(name, value), List.mem_filterMap.2 ⟨name, hn, by rw [hvalue]; rfl⟩, rfl⟩

/-- The name of the rest stands for nothing but what a trailing `*` took. -/
theorem contains_restName_iff {source : String} {nodes : List Node}
    (hp : Pattern.parse source = .ok nodes) {q : Params} {v : String → Option String}
    (hq : q.entries = valuesOf nodes v) :
    q.contains restName = true ↔ Node.rest ∈ nodes ∧ (v restName).isSome = true := by
  rw [Params.contains_iff, hq, mem_map_fst_valuesOf]
  apply and_congr_left'
  rw [List.mem_filterMap]
  constructor
  · intro bound
    obtain ⟨n, hn, name⟩ := bound
    rwa [eq_rest_of_parameter? hp hn name] at hn
  · intro hn
    exact ⟨.rest, hn, rfl⟩

theorem nodup_parameters {source : String} {nodes : List Node}
    (hp : Pattern.parse source = .ok nodes) (h : (namesOf nodes).Nodup) :
    (nodes.filterMap Node.parameter?).Nodup := by
  have named : ∀ n ∈ nodes, n.parameter? = some restName → n = .rest := fun n hn =>
    eq_rest_of_parameter? hp hn
  have last := RestLast.of_parse hp
  clear hp
  induction nodes with
  | nil => exact List.nodup_nil
  | cons n ns ih =>
    have later : ∀ m ∈ ns, m.parameter? = some restName → m = .rest := fun m hm =>
      named m (List.mem_cons_of_mem _ hm)
    cases n with
    | literal text => exact ih h later last.2
    | named name optional =>
      have distinct : name ∉ namesOf ns ∧ (namesOf ns).Nodup := List.nodup_cons.1 h
      change (name :: ns.filterMap Node.parameter?).Nodup
      refine List.nodup_cons.2 ⟨?_, ih distinct.2 later last.2⟩
      intro mem
      obtain ⟨m, hm, same⟩ := List.mem_filterMap.1 mem
      cases m with
      | literal text => cases same
      | named other optional =>
        obtain rfl := Option.some.inj same
        exact distinct.1 (List.mem_filterMap.2 ⟨_, hm, rfl⟩)
      | rest =>
        obtain rfl := Option.some.inj same
        cases named _ (List.mem_cons_self ..) rfl
    | rest =>
      obtain rfl := last.1 rfl
      simp [Node.parameter?]

/-- A pattern with distinct names captures from a written path the values that it was written
with, in the order of its nodes. -/
theorem capture?_writePath [SizeLimit] {source : String} {p : Pattern}
    (hp : Pattern.compile source = .ok p)
    (distinct : (namesOf p.nodes).Nodup) {v : String → Option String}
    (hv : Chosen p.nodes v) {spelled : List Node}
    (hs : List.Forall₂ Node.Respelled p.nodes spelled) :
    ∃ q, p.capture? (writePath spelled v) = some q ∧ q.entries = valuesOf p.nodes v ∧
      (q.contains restName = true ↔ Node.rest ∈ p.nodes ∧ (v restName).isSome = true) := by
  have read := Pattern.parse_of_compile hp
  have taken := forall₂_takesAll hv hs
  have names := map_fst_bindPieces taken
  have run := runNodes_eq_of_takesAll (.of_parse read) taken
  rw [List.filterMap_map, Function.id_comp] at run
  have entries : (bindPieces p.nodes (spelled.map (Node.piece? v))).params.entries =
      valuesOf p.nodes v := by
    rw [Bindings.entries_params (names ▸ nodup_parameters read distinct),
      filterMap_pair?_respelled hs]
  refine ⟨_, ?_, entries, contains_restName_iff read entries⟩
  rw [Pattern.capture?_of_compile hp, writePath, String.toList_ofList, run, Option.map_some,
    bindGroups_values names]
  rfl

section

open Unlimited

theorem capture?_writePath_files :
    ∃ p q, Pattern.compile "/Files/:dir?/v1.2/:id/*" = .ok p ∧ (namesOf p.nodes).Nodup ∧
      p.capture? "FILES/*/V1.2/:Id/a/b" = some q ∧
      q.entries = [("dir", "*"), ("id", ":Id"), ("*", "a/b")] ∧ q.contains restName = true := by
  have read : Pattern.parse "/Files/:dir?/v1.2/:id/*" =
      .ok [.literal "Files", .named "dir" true, .literal "v1.2", .named "id" false, .rest] := rfl
  have compiled := Pattern.compile_eq_ok.2 ⟨_, read, by decide, rfl⟩
  let v (name : String) : Option String :=
    List.lookup name [("dir", "*"), ("id", ":Id"), ("*", "a/b")]
  let spelled : List Node :=
    [.literal "FILES", .named "dir" true, .literal "V1.2", .named "id" false, .rest]
  have chosen : Chosen
      [.literal "Files", .named "dir" true, .literal "v1.2", .named "id" false, .rest] v := by
    constructor
    · intro name optional mem
      simp only [List.mem_cons, reduceCtorEq, Node.named.injEq, List.not_mem_nil, or_false,
        false_or] at mem
      rcases mem with ⟨rfl, -⟩ | ⟨rfl, -⟩
      · exact ⟨"*", by decide⟩
      · exact ⟨":Id", by decide⟩
    · intro _ value hvalue
      obtain rfl : "a/b" = value := Option.some.inj hvalue
      exact ⟨[['a'], ['b']], by decide, by simp [LineSegments], by decide⟩
  have respelled : List.Forall₂ Node.Respelled
      [.literal "Files", .named "dir" true, .literal "v1.2", .named "id" false, .rest] spelled :=
    .cons (.literal (by decide)) (.cons (.named ..) (.cons (.literal (by decide))
      (.cons (.named ..) (.cons .rest .nil))))
  obtain ⟨q, captured, entries, present⟩ :=
    capture?_writePath compiled (by decide) chosen respelled
  have path : writePath spelled v = "FILES/*/V1.2/:Id/a/b" := by decide
  rw [path] at captured
  exact ⟨_, q, compiled, by decide, captured, entries, present.2 (by decide)⟩

end

theorem exists_respelled {nodes : List Node} {os : List (Option (List Char))}
    {v : String → Option String} (h : List.Forall₂ Node.Takes nodes os)
    (hv : ∀ b ∈ bindPieces nodes os, v b.1 = b.2.map String.ofList) :
    ∃ spelled, List.Forall₂ Node.Respelled nodes spelled ∧
      spelled.map (Node.piece? v) = os := by
  induction h with
  | nil => exact ⟨[], .nil, rfl⟩
  | @cons n o nodes os ho _ ih =>
    have same : ∀ name, n.parameter? = some name → n.piece? v = o := by
      intro name hn
      have value := hv (name, o) (by simp [bindPieces_cons_some hn])
      rw [Node.piece?_of_parameter? hn, value]
      cases o <;> simp
    have later : ∀ b ∈ bindPieces nodes os, v b.1 = b.2.map String.ofList := by
      intro b hb
      apply hv
      cases hn : n.parameter? with
      | none => rwa [bindPieces_cons_none hn]
      | some name => simp [bindPieces_cons_some hn, hb]
    obtain ⟨spelled, hs, rfl⟩ := ih later
    cases n with
    | literal text =>
      cases o with
      | none => cases ho
      | some p =>
        refine ⟨.literal (String.ofList p) :: spelled, .cons (.literal ?_) hs, ?_⟩
        · rw [String.toList_ofList]
          exact ho
        · rw [List.map_cons, Node.piece?, String.toList_ofList]
    | named name optional =>
      refine ⟨.named name optional :: spelled, .cons (.named ..) hs, ?_⟩
      rw [List.map_cons, same name rfl]
    | rest => exact ⟨.rest :: spelled, .cons .rest hs, by rw [List.map_cons, same restName rfl]⟩

theorem exists_takes_of_mem {nodes : List Node} {os : List (Option (List Char))}
    (h : List.Forall₂ Node.Takes nodes os) {n : Node} (hn : n ∈ nodes) :
    ∃ o ∈ os, n.Takes o ∧ ∀ name, n.parameter? = some name → (name, o) ∈ bindPieces nodes os := by
  induction h with
  | nil => cases hn
  | @cons m o nodes os ho _ ih =>
    rcases List.mem_cons.1 hn with rfl | hn
    · refine ⟨o, List.mem_cons_self .., ho, ?_⟩
      intro name hp
      simp [bindPieces_cons_some hp]
    · obtain ⟨r, hr, taken, bound⟩ := ih hn
      refine ⟨r, List.mem_cons_of_mem _ hr, taken, ?_⟩
      intro name hp
      cases hm : m.parameter? with
      | none =>
        rw [bindPieces_cons_none hm]
        exact bound name hp
      | some other =>
        rw [bindPieces_cons_some hm]
        exact List.mem_cons_of_mem _ (bound name hp)

theorem isCleanText_of_piece {path : String} (hn : Path.normalize path = path)
    {ps : List (List Char)} (hp : path.toList = joinSlash ps) {p : List Char} (mem : p ∈ ps)
    (ne : p ≠ []) : isCleanText p = true := by
  have full : path.toList ≠ [] := by
    obtain ⟨c, t, rfl⟩ := List.exists_cons_of_ne_nil ne
    rw [hp]
    exact List.ne_nil_of_mem (mem_joinSlash mem (List.mem_cons_self ..))
  have pieces := splitSlash_joinSlash_eq_flatMap (List.ne_nil_of_mem mem)
  rw [← hp, Path.splitSlash_eq_segments hn full] at pieces
  rw [← joinSlash_splitSlash p]
  apply isCleanText_joinSlash
  intro r hr
  have segment : r ∈ segments path.toList := by
    rw [pieces]
    exact List.mem_flatMap.2 ⟨p, mem, hr⟩
  exact ⟨ne_nil_of_mem_segments segment, slash_notMem_of_mem_segments segment⟩

/-- A match binds to each parameter a piece of the path, and nothing else. -/
theorem exists_pieces_of_capture? [SizeLimit] {source path : String} {p : Pattern} {q : Params}
    (hp : Pattern.compile source = .ok p) (distinct : (namesOf p.nodes).Nodup)
    (hn : Path.normalize path = path) (hq : p.capture? path = some q) :
    ∃ os, List.Forall₂ Node.Takes p.nodes os ∧ path.toList = joinSlash (os.filterMap id) ∧
      q.entries = (bindPieces p.nodes os).filterMap Bindings.pair? ∧
      ∀ b ∈ bindPieces p.nodes os, q.get? b.1 = b.2.map String.ofList := by
  rw [Pattern.capture?_of_compile hp] at hq
  obtain ⟨gs, run, captured⟩ := Option.map_eq_some_iff.1 hq
  obtain ⟨os, ⟨taken, -⟩, whole, rfl⟩ := cuts_of_runNodes (Path.head?_ne_slash hn) run
  have names := map_fst_bindPieces taken
  have params : (bindPieces p.nodes os).params = q :=
    (bindGroups_values names _).symm.trans captured
  have nodup : ((bindPieces p.nodes os).map Prod.fst).Nodup :=
    names ▸ nodup_parameters (Pattern.parse_of_compile hp) distinct
  refine ⟨os, taken, whole, ?_, ?_⟩
  · rw [← params, Bindings.entries_params nodup]
  · intro b hb
    rw [← params]
    exact Bindings.get?_params nodup hb

/-- The parameters that a pattern with distinct names captures from a path write the path, up to the
letter case of its literals; each has a value that its node can take. -/
theorem writePath_of_capture? [SizeLimit] {source path : String} {p : Pattern} {q : Params}
    (hp : Pattern.compile source = .ok p) (distinct : (namesOf p.nodes).Nodup)
    (hn : Path.normalize path = path) (hq : p.capture? path = some q) :
    (∃ spelled, List.Forall₂ Node.Respelled p.nodes spelled ∧ writePath spelled q.get? = path) ∧
    q.entries = valuesOf p.nodes q.get? ∧
    (∀ name, Node.named name false ∈ p.nodes → q.contains name = true) ∧
    (∀ name optional value, Node.named name optional ∈ p.nodes → q.get? name = some value →
      value.toList ≠ [] ∧ '/' ∉ value.toList) ∧
    (∀ value, q.rest? = some value → value.toList ≠ [] ∧ isCleanText value.toList = true) := by
  have read := Pattern.parse_of_compile hp
  obtain ⟨os, taken, whole, pairs, value⟩ := exists_pieces_of_capture? hp distinct hn hq
  obtain ⟨spelled, hs, rfl⟩ := exists_respelled taken value
  have entries : q.entries = valuesOf p.nodes q.get? := by
    rw [pairs, filterMap_pair?_respelled hs]
  -- What is captured under the name of a node is a piece that the node can take.
  have piece : ∀ n ∈ p.nodes, ∀ name, n.parameter? = some name → ∃ o, n.Takes o ∧
      q.get? name = o.map String.ofList ∧ o ∈ spelled.map (Node.piece? q.get?) := by
    intro n mem name hname
    obtain ⟨o, ho, takes, bound⟩ := exists_takes_of_mem taken mem
    exact ⟨o, takes, value _ (bound name hname), ho⟩
  refine ⟨⟨spelled, hs, ?_⟩, entries, ?_, ?_, ?_⟩
  · apply String.toList_injective
    rw [writePath, String.toList_ofList, whole, List.filterMap_map, Function.id_comp]
  · intro name mem
    obtain ⟨o, takes, get, -⟩ := piece _ mem name rfl
    cases o with
    | none => cases takes
    | some r =>
      rw [Params.contains, get]
      rfl
  · intro name optional text mem hget
    obtain ⟨o, takes, get, -⟩ := piece _ mem name rfl
    obtain ⟨r, rfl, rfl⟩ := Option.map_eq_some_iff.1 (get.symm.trans hget)
    rw [String.toList_ofList]
    exact takes
  · intro text hget
    have known : q.contains restName = true := by
      rw [Params.contains]
      exact Option.isSome_iff_exists.2 ⟨text, hget⟩
    have mem := ((contains_restName_iff read entries).1 known).1
    obtain ⟨o, takes, get, ho⟩ := piece _ mem restName rfl
    obtain ⟨r, rfl, rfl⟩ := Option.map_eq_some_iff.1 (get.symm.trans hget)
    rw [String.toList_ofList]
    refine ⟨takes.1, isCleanText_of_piece hn whole ?_ takes.1⟩
    exact List.mem_filterMap.2 ⟨some r, ho, rfl⟩

open Unlimited

theorem writePath_of_capture?_profile :
    ∃ p q, Pattern.compile "/users/:id?/:tab?/profile/*" = .ok p ∧ (namesOf p.nodes).Nodup ∧
      Path.normalize "USERS/7/Profile/a/b" = "USERS/7/Profile/a/b" ∧
      p.capture? "USERS/7/Profile/a/b" = some q ∧ q.entries = [("id", "7"), ("*", "a/b")] ∧
      ∃ spelled, List.Forall₂ Node.Respelled p.nodes spelled ∧
        writePath spelled q.get? = "USERS/7/Profile/a/b" := by
  have read : Pattern.parse "/users/:id?/:tab?/profile/*" =
      .ok [.literal "users", .named "id" true, .named "tab" true, .literal "profile", .rest] := rfl
  have compiled := Pattern.compile_eq_ok.2 ⟨_, read, by decide, rfl⟩
  have captured := Pattern.capture?_of_compile compiled "USERS/7/Profile/a/b"
  rw [runNodes_eq_bindPath (root_or_wellFormed_of_parse read) (by decide) (by decide) (by decide)]
    at captured
  have params := captured.trans (c := some (Params.mk [("id", "7"), ("*", "a/b")])) (by decide)
  have written := writePath_of_capture? compiled (by decide) (by decide) params
  exact ⟨_, _, compiled, by decide, by decide, params, rfl, written.1⟩

end PatternRouter
