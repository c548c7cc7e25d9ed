import PatternRouter.Proofs.CacheClearing
import PatternRouter.Proofs.DistinctKeys

namespace PatternRouter

variable {α : Type}

section

variable [SizeLimit] {source : String} {sources : List String}

theorem isAccepted_iff : isAccepted source = true ↔ ∃ p, Pattern.compile source = .ok p := by
  rw [isAccepted]
  cases Pattern.compile source with
  | error e => simp [Except.isOk, Except.toBool]
  | ok p => simp [Except.isOk, Except.toBool]

theorem mapM_compile_of_accepted (h : ∀ k ∈ sources, isAccepted k = true) :
    ∃ ps, sources.mapM Pattern.compile = .ok ps := by
  induction sources with
  | nil => exact ⟨[], rfl⟩
  | cons source sources ih =>
    rw [List.forall_mem_cons] at h
    obtain ⟨p, hp⟩ := isAccepted_iff.1 h.1
    obtain ⟨ps, hps⟩ := ih h.2
    refine ⟨p :: ps, ?_⟩
    rw [List.mapM_cons, hp, hps]
    rfl

theorem mapM_compile_of_refused {before rest : List String} {bad : String} {e : RouteError}
    (h : ∀ k ∈ before, isAccepted k = true) (refused : Pattern.compile bad = .error e) :
    (before ++ bad :: rest).mapM Pattern.compile = .error e := by
  induction before with
  | nil =>
    rw [List.nil_append, List.mapM_cons, refused]
    rfl
  | cons source before ih =>
    rw [List.forall_mem_cons] at h
    obtain ⟨p, hp⟩ := isAccepted_iff.1 h.1
    rw [List.cons_append, List.mapM_cons, hp, ih h.2]
    rfl

theorem takeWhile_of_refused {before rest : List String} {bad : String} {e : RouteError}
    (h : ∀ k ∈ before, isAccepted k = true) (refused : Pattern.compile bad = .error e) :
    (before ++ bad :: rest).takeWhile isAccepted = before := by
  have stop : ¬isAccepted bad = true := by simp [isAccepted_iff, refused]
  rw [List.takeWhile_append_of_pos h, List.takeWhile_cons_of_neg stop, List.append_nil]

theorem takeWhile_of_accepted (h : ∀ k ∈ sources, isAccepted k = true) :
    sources.takeWhile isAccepted = sources := by
  have all : (sources ++ []).takeWhile isAccepted = sources ++ [].takeWhile isAccepted :=
    List.takeWhile_append_of_pos h
  rwa [List.takeWhile_nil, List.append_nil] at all

end

namespace Cache

variable {c : Cache}

theorem contains_request [SizeLimit] (c : Cache) (source : String) (log : Journal) (key : String) :
    (c.request source log).2.1.contains key = true ↔
      c.contains key = true ∨ key = source ∧ isAccepted source = true := by
  unfold request
  split
  · next hit held =>
    have there : key = source ∧ isAccepted source = true → c.contains key = true := by
      intro asked
      rw [asked.1, contains, held]
      rfl
    exact (or_iff_left_of_imp there).symm
  · next new =>
    split
    · next e refused =>
      have never : ¬isAccepted source = true := by simp [isAccepted_iff, refused]
      exact (or_iff_left fun asked => never asked.2).symm
    · next p compiled =>
      have accepted : isAccepted source = true := isAccepted_iff.2 ⟨p, compiled⟩
      simp only [contains, get?, Option.isSome_iff_exists, accepted, and_true] at new ⊢
      simp only [lookup_concat_eq_some_iff new, exists_or, exists_and_left, exists_eq', and_true]
      exact or_comm

/-- Of the sources that are requested in order a cache holds those before the first that is
refused, and what it held. -/
theorem contains_requestAll [SizeLimit] (hc : c.Valid) (sources : List String) (log : Journal)
    (key : String) :
    (c.requestAll sources log).2.1.contains key = true ↔
      c.contains key = true ∨ key ∈ sources.takeWhile isAccepted := by
  induction sources generalizing c log with
  | nil => exact (or_iff_left List.not_mem_nil).symm
  | cons source sources ih =>
    have valid := valid_request hc source log
    have value := map_value_request hc source log
    have first := contains_request c source log key
    generalize came : c.request source log = x at valid value first
    obtain ⟨e | p, c', log'⟩ := x
    · have refused : ¬isAccepted source = true := by
        rw [isAccepted, ← value]
        exact Bool.false_ne_true
      rw [requestAll_of_error came, List.takeWhile_cons_of_neg refused, first]
      exact or_congr_right (iff_of_false (fun asked => refused asked.2) List.not_mem_nil)
    · have accepted : isAccepted source = true := by
        rw [isAccepted, ← value]
        rfl
      rw [requestAll_of_ok came, List.takeWhile_cons_of_pos accepted, List.mem_cons, ← or_assoc]
      rw [ih valid log', first, and_iff_left accepted]

end Cache

namespace Router

theorem mapM_compile [SizeLimit] {r : Router α} (hr : r.Valid) :
    (r.toList.map Prod.fst).mapM Pattern.compile = .ok (r.routes.map (·.pattern.value)) := by
  have compiled := hr.compiled
  rw [toList, List.map_map]
  generalize r.routes = routes at compiled
  induction routes with
  | nil => rfl
  | cons t routes ih =>
    rw [List.forall_mem_cons] at compiled
    rw [List.map_cons, List.mapM_cons, ih compiled.2]
    change (Pattern.compile t.pattern.value.source >>= _) = _
    rw [compiled.1]
    rfl

theorem map_findAll [SizeLimit] {r : Router α} (hr : r.Valid) (path : String) (w : Workspace) :
    (r.findAll path w).1.map (fun h => (h.index, h.params)) =
      (r.build.hits path).map fun h => (h.index, h.params) := by
  have known : ∀ h ∈ r.build.hits path, h.index < r.routes.length := by
    intro h mem
    obtain ⟨e, he, found⟩ := List.mem_filterMap.1 mem
    obtain ⟨params, -, rfl⟩ := Option.map_eq_some_iff.1 found
    exact index_lt_of_mem_build he
  rw [findAll_eq hr]
  generalize r.build.hits path = hits at known
  induction hits with
  | nil => rfl
  | cons h hits ih =>
    rw [List.forall_mem_cons] at known
    have route : r.routes[h.index]? = some r.routes[h.index] := List.getElem?_eq_getElem known.1
    have hit : r.routeHit? h = some ⟨h.index, r.routes[h.index].pattern.value.source,
        r.routes[h.index].data, h.params⟩ := by rw [routeHit?, route]; rfl
    rw [List.filterMap_cons_some hit, List.map_cons, List.map_cons, ih known.2]

end Router

namespace Registry

theorem run_insert [SizeLimit] (g : Registry α) (name : String) (strict : Bool)
    {rows : List (String × α)} (h : ∀ t ∈ rows, isAccepted t.1 = true) :
    (g.run (rows.map fun t => .insert name t.1 t.2 strict)) name = g name ++ rows := by
  induction rows generalizing g with
  | nil => exact (List.append_nil _).symm
  | cons t rows ih =>
    rw [List.forall_mem_cons] at h
    obtain ⟨p, hp⟩ := isAccepted_iff.1 h.1
    have next : g.step (.insert name t.1 t.2 strict) = g.set name (g name ++ [t]) := by
      simp only [step, hp]
    have rest := ih (g.set name (g name ++ [t])) h.2
    rw [List.map_cons, run, List.foldl_cons, next]
    rw [run] at rest
    rw [rest, set, if_pos rfl, List.append_assoc, List.singleton_append]

end Registry

namespace RouterSession

section

variable [SizeLimit] [Describe α] {s : RouterSession α} {cache : String} {sources : List String}

theorem reply_compileSorted (hw : s.workspace.Valid) :
    (s.step (.compileSorted cache sources)).1 =
      match sources.mapM Pattern.compile with
      | .ok ps => .table (.ofPatterns 0 ps)
      | .error e => .failed (.route e) := by
  have values : (s.workspace.requestAll cache sources).1.map (List.map Shared.value) =
      sources.mapM Pattern.compile := Cache.map_value_requestAll (hw cache) sources _
  simp only [step, Workspace.compileSorted, Workspace.compileTable]
  generalize s.workspace.requestAll cache sources = x at values
  obtain ⟨e | ps, w⟩ := x
  · rw [← values]
    rfl
  · rw [← values]
    rfl

theorem cache_compileSorted (other : String) :
    (s.step (.compileSorted cache sources)).2.workspace.cache other =
      if other = cache then
        ((s.workspace.cache cache).requestAll sources s.workspace.journal).2.1
      else s.workspace.cache other := by
  rw [workspace_compileSorted]
  exact Workspace.cache_setCache { s.workspace with journal := _ } cache other _

theorem contains_compileSorted (hw : s.workspace.Valid) (key : String) :
    ((s.step (.compileSorted cache sources)).2.workspace.cache cache).contains key = true ↔
      (s.workspace.cache cache).contains key = true ∨ key ∈ sources.takeWhile isAccepted := by
  rw [cache_compileSorted, if_pos rfl]
  exact Cache.contains_requestAll (hw cache) sources _ key

end

/-- A router that was just made and was given accepted routes in order holds these routes. -/
theorem keeps_inserts [SizeLimit] [Describe α] (bs : List (RouterStep α)) (name : String)
    (own : Option String)
    (strict : Bool) {rows : List (String × α)} (h : ∀ t ∈ rows, isAccepted t.1 = true) :
    let inserts : List (RouterStep α) := rows.map fun t => .insert name t.1 t.2 strict
    let u := ((empty : RouterSession α).run (bs ++ .create name own :: inserts)).2
    (u.router name).Valid ∧ (u.router name).toList = rows := by
  intro inserts u
  have kept : u.Keeps (Registry.empty.run (bs ++ .create name own :: inserts)) :=
    keeps_run keeps_empty _
  have made := Registry.run_insert ((Registry.empty.run bs).set name []) name strict h
  refine ⟨kept.valid name, ?_⟩
  rw [kept.routes, Registry.run, List.foldl_append, List.foldl_cons]
  change (((Registry.empty.run bs).set name []).run inserts) name = rows
  rw [made, Registry.set, if_pos rfl, List.nil_append]

theorem build_inserts [SizeLimit] [Describe α] (bs : List (RouterStep α)) (name : String)
    (own : Option String) (strict : Bool) {rows : List (String × α)} {ps : List Pattern}
    (h : ∀ t ∈ rows, isAccepted t.1 = true)
    (compiled : (rows.map Prod.fst).mapM Pattern.compile = .ok ps) :
    let inserts : List (RouterStep α) := rows.map fun t => .insert name t.1 t.2 strict
    let u := ((empty : RouterSession α).run (bs ++ .create name own :: inserts)).2
    (u.router name).build.entries = (RouteTable.ofPatterns 0 ps).entries := by
  intro inserts u
  have made : (u.router name).Valid ∧ (u.router name).toList = rows :=
    keeps_inserts bs name own strict h
  have patterns := Router.mapM_compile made.1
  rw [made.2, compiled] at patterns
  rw [Except.ok.inj patterns]
  rfl

/-- Sources that are all accepted are made into the table of a router that was given them in order,
and it matches as this router does. Where a source is refused, the error is that of the first such
source. What the cache holds besides what it held are the sources before this one. -/
theorem compileSorted_agrees_with_router [SizeLimit] [Describe α] (as : List (RouterStep α))
    (cache : String) (sources : List String) :
    let s := ((empty : RouterSession α).run as).2
    let after := s.step (.compileSorted cache sources)
    let held := fun (u : RouterSession α) key => (u.workspace.cache cache).contains key = true
    ((∀ k ∈ sources, isAccepted k = true) →
      ∃ t, after.1 = .table t ∧ t.version = 0 ∧
        (∀ key, held after.2 key ↔ held s key ∨ key ∈ sources) ∧
        ∀ (bs : List (RouterStep α)) (name : String) (own : Option String) (strict : Bool)
          (rows : List (String × α)), rows.map Prod.fst = sources →
          let inserts : List (RouterStep α) := rows.map fun t => .insert name t.1 t.2 strict
          let u := ((empty : RouterSession α).run (bs ++ .create name own :: inserts)).2
          ∃ t', (u.step (.table name)).1 = .table t' ∧ t'.entries = t.entries ∧
            ∀ path, ∃ hs, (u.step (.findAll name path)).1 = .foundAll hs ∧
              hs.map (fun h => (h.index, h.params)) =
                (t.hits path).map fun h => (h.index, h.params)) ∧
    (∀ before bad rest e, sources = before ++ bad :: rest →
      (∀ k ∈ before, isAccepted k = true) → Pattern.compile bad = .error e →
        after.1 = .failed (.route e) ∧ ∀ key, held after.2 key ↔ held s key ∨ key ∈ before) ∧
    ∀ other ≠ cache, after.2.workspace.cache other = s.workspace.cache other := by
  intro s after held
  have valid : s.workspace.Valid := (keeps_run keeps_empty as).caches
  have reply : after.1 = _ := reply_compileSorted valid
  have contains : ∀ key, held after.2 key ↔ held s key ∨ key ∈ sources.takeWhile isAccepted :=
    contains_compileSorted valid
  refine ⟨?_, ?_, ?_⟩
  · intro accepted
    obtain ⟨ps, compiled⟩ := mapM_compile_of_accepted accepted
    rw [takeWhile_of_accepted accepted] at contains
    rw [compiled] at reply
    refine ⟨.ofPatterns 0 ps, reply, rfl, contains, ?_⟩
    intro bs name own strict rows same inserts u
    have acceptedRows : ∀ t ∈ rows, isAccepted t.1 = true := by
      intro t mem
      apply accepted
      rw [← same]
      exact List.mem_map_of_mem mem
    have routerValid : (u.router name).Valid := (keeps_inserts bs name own strict acceptedRows).1
    have built : (u.router name).build.entries = (RouteTable.ofPatterns 0 ps).entries := by
      apply build_inserts bs name own strict acceptedRows
      rw [same, compiled]
    have tables : ((u.router name).table u.workspace).1.value.entries =
        (RouteTable.ofPatterns 0 ps).entries := by
      rw [Router.table_value routerValid, built]
    have found : ∀ path, ((u.router name).findAll path u.workspace).1.map
          (fun h => (h.index, h.params)) =
        ((RouteTable.ofPatterns 0 ps).hits path).map fun h => (h.index, h.params) := by
      intro path
      rw [Router.map_findAll routerValid, RouteTable.hits, built, RouteTable.hits]
    exact ⟨((u.router name).table u.workspace).1.value, rfl, tables, fun path =>
      ⟨((u.router name).findAll path u.workspace).1, rfl, found path⟩⟩
  · intro before bad rest e split accepted refused
    rw [split, takeWhile_of_refused accepted refused] at contains
    rw [split, mapM_compile_of_refused accepted refused] at reply
    exact ⟨reply, contains⟩
  · intro other ne
    exact (cache_compileSorted other).trans (if_neg ne)

open Unlimited

theorem compileSorted_agrees_with_router_before_refused :
    let u := ((empty : RouterSession Nat).run
      [.create "main" none, .insert "main" "/a/:x" 1 true, .insert "main" "/a/b" 2 true]).2
    let after := (empty : RouterSession Nat).step
      (.compileSorted "own" ["/a/:x", "/a/b", "/:*", "/c"])
    (∃ t t', ((empty : RouterSession Nat).step (.compileSorted "own" ["/a/:x", "/a/b"])).1 =
      .table t ∧ (u.step (.table "main")).1 = .table t' ∧ t'.entries = t.entries) ∧
    (∃ e, after.1 = .failed (.route e)) ∧
      (after.2.workspace.cache "own").contains "/a/b" = true ∧
      ¬(after.2.workspace.cache "own").contains "/c" = true := by
  intro u after
  obtain ⟨accepted, -, -⟩ := compileSorted_agrees_with_router (α := Nat) [] "own"
    ["/a/:x", "/a/b"]
  obtain ⟨-, refused, -⟩ := compileSorted_agrees_with_router (α := Nat) [] "own"
    ["/a/:x", "/a/b", "/:*", "/c"]
  obtain ⟨t, table, -, -, same⟩ := accepted (by decide)
  obtain ⟨t', table', entries, -⟩ := same [] "main" none true [("/a/:x", 1), ("/a/b", 2)] rfl
  obtain ⟨reply, contains⟩ := refused ["/a/:x", "/a/b"] "/:*" ["/c"] _ rfl (by decide) rfl
  have before : (after.2.workspace.cache "own").contains "/a/b" = true :=
    (contains "/a/b").2 (by decide)
  have never : ¬(after.2.workspace.cache "own").contains "/c" = true := by
    intro held
    exact absurd ((contains "/c").1 held) (by decide)
  exact ⟨⟨t, t', table, table', entries⟩, ⟨_, reply⟩, before, never⟩

end RouterSession

end PatternRouter
