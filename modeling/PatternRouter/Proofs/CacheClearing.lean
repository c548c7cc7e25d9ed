import PatternRouter.Proofs.Registry
import PatternRouter.Proofs.Workspaces

namespace PatternRouter

variable {α : Type}

def isAccepted [SizeLimit] (source : String) : Bool := (Pattern.compile source).isOk

namespace Cache

variable [SizeLimit] {c : Cache}

theorem size_request (c : Cache) (source : String) (log : Journal) :
    (c.request source log).2.2.size = log.size + (c.request source log).1.isOk.toNat := by
  unfold request
  split
  · exact Array.size_push _
  · split
    · rfl
    · exact Array.size_push _

/-- Of the sources that are requested in order each is reported up to the first that is refused. -/
theorem size_requestAll (hc : c.Valid) (sources : List String) (log : Journal) :
    (c.requestAll sources log).2.2.size = log.size + (sources.takeWhile isAccepted).length := by
  induction sources generalizing c log with
  | nil => rfl
  | cons source sources ih =>
    have valid := valid_request hc source log
    have value := map_value_request hc source log
    have size := size_request c source log
    generalize came : c.request source log = x at valid value size
    obtain ⟨e | p, c', log'⟩ := x
    · have refused : isAccepted source = false := by rw [isAccepted, ← value]; rfl
      rw [requestAll_of_error came, List.takeWhile_cons_of_neg (by simp [refused])]
      exact size
    · have accepted : isAccepted source = true := by rw [isAccepted, ← value]; rfl
      have total : log'.size = log.size + 1 := size
      have rest : (c'.requestAll sources log').2.2.size =
          log'.size + (sources.takeWhile isAccepted).length := ih valid log'
      rw [requestAll_of_ok came, List.takeWhile_cons_of_pos accepted, List.length_cons, rest, total]
      omega

theorem map_value_requestAll (hc : c.Valid) (sources : List String) (log : Journal) :
    (c.requestAll sources log).1.map (List.map Shared.value) = sources.mapM Pattern.compile := by
  induction sources generalizing c log with
  | nil => rfl
  | cons source sources ih =>
    have valid := valid_request hc source log
    have value := map_value_request hc source log
    generalize came : c.request source log = x at valid value
    obtain ⟨e | p, c', log'⟩ := x
    · rw [requestAll_of_error came, List.mapM_cons, ← value]
      rfl
    · rw [requestAll_of_ok came, List.mapM_cons, ← value, ← ih valid log']
      cases (c'.requestAll sources log').1 <;> rfl

end Cache

namespace Workspace

variable {w w' : Workspace}

/-- Valid workspaces that have reported as often answer a request alike, whichever caches it goes
to, and go on to report as often. -/
theorem request_alike [SizeLimit] (hw : w.Valid) (hw' : w'.Valid)
    (size : w'.journal.size = w.journal.size) (name name' source : String) :
    (w'.request name' source).1.map Shared.value = (w.request name source).1.map Shared.value ∧
      (w'.request name' source).2.journal.size = (w.request name source).2.journal.size := by
  have values : (w'.request name' source).1.map Shared.value =
      (w.request name source).1.map Shared.value := by
    rw [map_value_request hw', map_value_request hw]
  have accepted : ∀ {x y : Except RouteError (Shared Pattern)},
      y.map Shared.value = x.map Shared.value → y.isOk = x.isOk := by
    intro x y same
    cases x <;> cases y <;> first | rfl | cases same
  have count := Cache.size_request (w.cache name) source w.journal
  have count' := Cache.size_request (w'.cache name') source w'.journal
  have same := accepted values
  refine ⟨values, count'.trans ?_⟩
  change w'.journal.size + (w'.request name' source).1.isOk.toNat = _
  rw [size, same]
  exact count.symm

theorem requestAll_alike [SizeLimit] (hw : w.Valid) (hw' : w'.Valid)
    (size : w'.journal.size = w.journal.size) (name : String) (sources : List String) :
    (w'.requestAll name sources).2.journal.size = (w.requestAll name sources).2.journal.size := by
  have count := Cache.size_requestAll (hw name) sources w.journal
  have count' := Cache.size_requestAll (hw' name) sources w'.journal
  rw [size, ← count] at count'
  exact count'

end Workspace

namespace Router

/-- The compiled patterns and values of a router, whichever objects the patterns are. -/
def contents (r : Router α) : List (Pattern × α) := r.routes.map fun t => (t.pattern.value, t.data)

theorem size_eq_contents (r : Router α) : r.size = r.contents.length := by
  rw [size, contents, List.length_map]

theorem toList_eq_contents (r : Router α) :
    r.toList = r.contents.map fun t => (t.1.source, t.2) := by
  rw [toList, contents, List.map_map]
  rfl

theorem build_eq_contents (r : Router α) :
    r.build = .ofPatterns r.version (r.contents.map Prod.fst) := by
  rw [build, contents, List.map_map]
  rfl

theorem routeHit?_eq_contents (r : Router α) (h : Hit) :
    r.routeHit? h = r.contents[h.index]?.map fun t => ⟨h.index, t.1.source, t.2, h.params⟩ := by
  rw [routeHit?, contents, List.getElem?_map, Option.map_map]
  rfl

/-- Whether two routers differ at most in which objects their patterns are. -/
structure LooksLike (r r' : Router α) : Prop where
  contents : r'.contents = r.contents
  version : r'.version = r.version
  cache : r'.cache = r.cache
  memo : r'.memo = r.memo

namespace LooksLike

variable {r r' : Router α}

theorem refl (r : Router α) : r.LooksLike r := ⟨rfl, rfl, rfl, rfl⟩

theorem clear (h : r.LooksLike r') : r.clear.LooksLike r'.clear :=
  ⟨rfl, congrArg (· + 1) h.version, h.cache, rfl⟩

theorem add (h : r.LooksLike r') {p p' : Shared Pattern} (value : p'.value = p.value) (data : α) :
    LooksLike { r with routes := r.routes ++ [⟨p, data⟩], version := r.version + 1 }
      { r' with routes := r'.routes ++ [⟨p', data⟩], version := r'.version + 1 } := by
  refine ⟨?_, congrArg (· + 1) h.version, h.cache, h.memo⟩
  have contents := h.contents
  simp only [Router.contents] at contents ⊢
  simp only [List.map_append, contents, List.map_cons, List.map_nil, value]

/-- The table of a lookup is one and the same object if as much was reported before. -/
theorem table (h : r.LooksLike r') {w w' : Workspace}
    (size : w'.journal.size = w.journal.size) :
    (r'.table w').1 = (r.table w).1 ∧ (r.table w).2.1.LooksLike (r'.table w').2.1 ∧
      (r'.table w').2.2.journal.size = (r.table w).2.2.journal.size := by
  have rebuilt : (r'.rebuild w').1 = (r.rebuild w).1 ∧
      (r.rebuild w).2.1.LooksLike (r'.rebuild w').2.1 ∧
      (r'.rebuild w').2.2.journal.size = (r.rebuild w).2.2.journal.size := by
    have same : (⟨w'.journal.size, r'.build⟩ : Shared RouteTable) = ⟨w.journal.size, r.build⟩ := by
      rw [build_eq_contents, build_eq_contents, h.contents, h.version, size]
    refine ⟨same, ⟨h.contents, h.version, h.cache, congrArg some same⟩, ?_⟩
    simp [rebuild, Workspace.report, size]
  unfold Router.table
  rw [h.memo, h.version]
  cases r.memo with
  | none => exact rebuilt
  | some t =>
    dsimp only
    split
    · exact ⟨rfl, h, size⟩
    · exact rebuilt

theorem findAll (h : r.LooksLike r') {w w' : Workspace}
    (size : w'.journal.size = w.journal.size) (path : String) :
    (r'.findAll path w').1 = (r.findAll path w).1 ∧ (r'.find path w').1 = (r.find path w).1 := by
  obtain ⟨same, after, -⟩ := h.table size
  have hits : (r'.findAll path w').1 = (r.findAll path w).1 := by
    change ((r'.table w').1.value.hits path).filterMap (r'.table w').2.1.routeHit? =
      ((r.table w).1.value.hits path).filterMap (r.table w).2.1.routeHit?
    have route : (r'.table w').2.1.routeHit? = (r.table w).2.1.routeHit? := by
      funext hit
      rw [routeHit?_eq_contents, routeHit?_eq_contents, after.contents]
    rw [same, route]
  exact ⟨hits, congrArg List.head? hits⟩

end LooksLike

end Router

/-- Whether a step only looks at routers and at tables that were held. -/
def RouterStep.IsLookup : RouterStep α → Prop
  | .size .. => True
  | .get .. => True
  | .list .. => True
  | .find .. => True
  | .findAll .. => True
  | .table .. => True
  | .holdTable .. => True
  | .heldTable .. => True
  | .heldMatch .. => True
  | _ => False

namespace RouterSession

variable [SizeLimit]

section

variable [Describe α] (s : RouterSession α)

variable {s} in
theorem insert_of_ok {router source : String} {p : Shared Pattern} {w : Workspace}
    (h : s.workspace.request (s.router router).cache source = (.ok p, w)) (data : α)
    (strict : Bool) :
    (s.step (.insert router source data strict)).2 =
      s.after router { s.router router with
        routes := (s.router router).routes ++ [⟨p, data⟩],
        version := (s.router router).version + 1 } w := by
  simp only [step, Router.insert, h]

variable {s} in
theorem insert_of_error {router source : String} {e : RouteError} {w : Workspace}
    (h : s.workspace.request (s.router router).cache source = (.error e, w)) (data : α)
    (strict : Bool) :
    (s.step (.insert router source data strict)).2 = { s with workspace := w } := by
  simp only [step, Router.insert, h]

theorem workspace_request (cache source label : String) :
    (s.step (.request cache source label)).2.workspace = (s.workspace.request cache source).2 := by
  simp only [step]
  generalize s.workspace.request cache source = x
  obtain ⟨_ | _, _⟩ := x <;> rfl

theorem workspace_compileSorted (cache : String) (sources : List String) :
    (s.step (.compileSorted cache sources)).2.workspace =
      (s.workspace.requestAll cache sources).2 := by
  simp only [step, Workspace.compileSorted, Workspace.compileTable]
  generalize s.workspace.requestAll cache sources = x
  obtain ⟨_ | _, _⟩ := x <;> rfl

end

/-- Whether two sessions have routers that look the same, the same tables, and as many reports. -/
structure LooksLike (s t : RouterSession α) : Prop where
  caches : s.workspace.Valid
  caches' : t.workspace.Valid
  reports : t.workspace.journal.size = s.workspace.journal.size
  routers : ∀ name, (s.router name).LooksLike (t.router name)
  heldTables : t.heldTables = s.heldTables

namespace LooksLike

variable {s t : RouterSession α}

theorem after (h : s.LooksLike t) (name : String) {r r' : Router α} (hr : r.LooksLike r')
    {w w' : Workspace} (hw : w.Valid) (hw' : w'.Valid)
    (size : w'.journal.size = w.journal.size) :
    (s.after name r w).LooksLike (t.after name r' w') := by
  refine ⟨hw, hw', size, fun other => ?_, h.heldTables⟩
  rw [router_after, router_after]
  split
  · exact hr
  · exact h.routers other

theorem refresh (h : s.LooksLike t) (name : String) :
    (s.refresh name).LooksLike (t.refresh name) := by
  obtain ⟨-, routers, size⟩ := (h.routers name).table h.reports
  exact h.after name routers (Router.workspace_valid_table _ h.caches)
    (Router.workspace_valid_table _ h.caches') size

theorem of_routers (h : s.LooksLike t) {u u' : RouterSession α} (hu : u.workspace.Valid)
    (hu' : u'.workspace.Valid) (size : u'.workspace.journal.size = u.workspace.journal.size)
    (routers : u.routers = s.routers ∧ u'.routers = t.routers)
    (tables : u.heldTables = s.heldTables ∧ u'.heldTables = t.heldTables) : u.LooksLike u' := by
  refine ⟨hu, hu', size, fun name => ?_, ?_⟩
  · have looks := h.routers name
    rwa [router, router, ← routers.1, ← routers.2] at looks
  · rw [tables.1, tables.2, h.heldTables]

theorem insert [Describe α] (h : s.LooksLike t) (router source : String) (data : α)
    (strict : Bool) :
    (s.step (.insert router source data strict)).2.LooksLike
      (t.step (.insert router source data strict)).2 := by
  have looks := h.routers router
  have caches := workspace_valid_step h.caches (.insert router source data strict)
  have caches' := workspace_valid_step h.caches' (.insert router source data strict)
  obtain ⟨values, size⟩ := Workspace.request_alike h.caches h.caches' h.reports
    (s.router router).cache (t.router router).cache source
  generalize came : s.workspace.request (s.router router).cache source = x at values size
  generalize came' : t.workspace.request (t.router router).cache source = y at values size
  obtain ⟨e | p, w⟩ := x
  · obtain ⟨e' | p', w'⟩ := y
    · rw [insert_of_error came] at caches ⊢
      rw [insert_of_error came'] at caches' ⊢
      exact h.of_routers caches caches' size ⟨rfl, rfl⟩ ⟨rfl, rfl⟩
    · cases values
  · obtain ⟨e' | p', w'⟩ := y
    · cases values
    · rw [insert_of_ok came] at caches ⊢
      rw [insert_of_ok came'] at caches' ⊢
      exact h.after router (looks.add (Except.ok.inj values) data) caches caches' size

theorem step [Describe α] (h : s.LooksLike t) (a : RouterStep α) :
    (s.step a).2.LooksLike (t.step a).2 := by
  have caches := workspace_valid_step h.caches a
  have caches' := workspace_valid_step h.caches' a
  cases a with
  | create router cache => exact h.after router (.refl _) h.caches h.caches' h.reports
  | insert router source data strict => exact h.insert router source data strict
  | clear router => exact h.after router (h.routers router).clear h.caches h.caches' h.reports
  | find router | findAll router | table router => exact h.refresh router
  | holdTable router label =>
    have looks := h.refresh router
    obtain ⟨same, -, -⟩ := (h.routers router).table h.reports
    refine ⟨looks.caches, looks.caches', looks.reports, looks.routers, ?_⟩
    exact congrArg₂ (fun x l => (label, x) :: l) same h.heldTables
  | sharing router other => exact (h.refresh router).refresh other
  | request cache source label =>
    apply h.of_routers caches caches'
    · rw [workspace_request, workspace_request]
      exact (Workspace.request_alike h.caches h.caches' h.reports cache cache source).2
    all_goals simp only [RouterSession.step]; constructor <;> split <;> rfl
  | compileSorted cache sources =>
    apply h.of_routers caches caches'
    · rw [workspace_compileSorted, workspace_compileSorted]
      exact Workspace.requestAll_alike h.caches h.caches' h.reports cache sources
    all_goals simp only [RouterSession.step]; constructor <;> split <;> rfl
  | heldTable | heldMatch =>
    apply h.of_routers caches caches'
    · simp only [RouterSession.step]
      split <;> split <;> exact h.reports
    all_goals simp only [RouterSession.step]; constructor <;> split <;> rfl
  | clearCache cache => exact h.of_routers caches caches' h.reports ⟨rfl, rfl⟩ ⟨rfl, rfl⟩
  | size | get | list | cacheSize | cacheContains | describe => exact h

theorem run [Describe α] (h : s.LooksLike t) (as : List (RouterStep α)) :
    (s.run as).2.LooksLike (t.run as).2 := by
  induction as generalizing s t with
  | nil => exact h
  | cons a as ih => exact ih (h.step a)

theorem reply [Describe α] (h : s.LooksLike t) {a : RouterStep α} (ha : a.IsLookup) :
    (t.step a).1 = (s.step a).1 := by
  cases a with
  | size router =>
    change RouterReply.size (t.router router).size = .size (s.router router).size
    rw [Router.size_eq_contents, (h.routers router).contents, Router.size_eq_contents]
  | get router index =>
    change RouterReply.route (t.router router).toList[index]? =
      .route (s.router router).toList[index]?
    rw [Router.toList_eq_contents, (h.routers router).contents, Router.toList_eq_contents]
  | list router =>
    change RouterReply.routes (t.router router).toList = .routes (s.router router).toList
    rw [Router.toList_eq_contents, (h.routers router).contents, Router.toList_eq_contents]
  | find router path =>
    exact congrArg RouterReply.found ((h.routers router).findAll h.reports path).2
  | findAll router path =>
    exact congrArg RouterReply.foundAll ((h.routers router).findAll h.reports path).1
  | table router =>
    exact congrArg (RouterReply.table ·.value) ((h.routers router).table h.reports).1
  | holdTable router label =>
    have same := ((h.routers router).table h.reports).1
    exact congrArg₂ (fun x l => RouterReply.same (sameAs x (l.lookup label))) same h.heldTables
  | heldTable label | heldMatch label path =>
    simp only [RouterSession.step, h.heldTables]
    split <;> rfl
  | _ => cases ha

end LooksLike

theorem looksLike_clearCache [Describe α] {s : RouterSession α} (h : s.workspace.Valid)
    (cache : String) : s.LooksLike (s.step (.clearCache cache)).2 :=
  ⟨h, Workspace.valid_clearCache h cache, rfl, fun _ => .refl _, rfl⟩

end RouterSession

end PatternRouter
