import PatternRouter.Router.Session
import PatternRouter.Proofs.Lookup

namespace PatternRouter

variable {α : Type}

/-- The routes of the router of each name. -/
abbrev Registry (α : Type) := String → List (String × α)

namespace Registry

def empty : Registry α := fun _ => []

def set (g : Registry α) (name : String) (rs : List (String × α)) : Registry α :=
  fun other => if other = name then rs else g other

theorem set_same (g : Registry α) (name : String) : g.set name (g name) = g := by
  funext other
  rw [set]
  split
  · next h => rw [h]
  · rfl

def step [SizeLimit] (g : Registry α) : RouterStep α → Registry α
  | .create router _ => g.set router []
  | .insert router source data _ =>
    match Pattern.compile source with
    | .ok _ => g.set router (g router ++ [(source, data)])
    | .error _ => g
  | .clear router => g.set router []
  | _ => g

def run [SizeLimit] (g : Registry α) (as : List (RouterStep α)) : Registry α := as.foldl step g

/-- Whether a reply is what the lists say to a step. -/
def Answers [SizeLimit] (g : Registry α) : RouterStep α → RouterReply α → Prop
  | .create .., reply => reply = .done
  | .insert router source _ strict, reply =>
    match Pattern.compile source with
    | .ok _ => reply = .inserted ((g router).length + 1)
    | .error e => reply = .failed (if strict then .abort (e.abortMessage source) else .route e)
  | .clear _, reply => reply = .done
  | .size router, reply => reply = .size (g router).length
  | .get router index, reply => reply = .route (g router)[index]?
  | .list router, reply => reply = .routes (g router)
  | .find router path, reply => ∃ h, reply = .found h ∧ IsFound (g router) path h
  | .findAll router path, reply => ∃ hs, reply = .foundAll hs ∧ IsLookup (g router) path hs
  | .table router, reply => ∃ t, reply = .table t ∧ IsTable (g router) t
  | _, _ => True

end Registry

namespace RouterSession

/-- Whether the routers of a session hold the routes of a registry, and its caches are valid. -/
structure Keeps [SizeLimit] (s : RouterSession α) (g : Registry α) : Prop where
  caches : s.workspace.Valid
  valid : ∀ name, (s.router name).Valid
  routes : ∀ name, (s.router name).toList = g name

theorem workspace_valid_step [SizeLimit] [Describe α] {s : RouterSession α} (hw : s.workspace.Valid)
    (a : RouterStep α) : (s.step a).2.workspace.Valid := by
  have refresh : ∀ {s : RouterSession α}, s.workspace.Valid → ∀ name,
      (s.refresh name).workspace.Valid := fun h name => Router.workspace_valid_table _ h
  cases a with
  | insert router source data strict =>
    have valid := (s.router router).workspace_valid_insert hw source data
    simp only [step]
    split <;> next hi => rwa [hi] at valid
  | find router | findAll router | table router | holdTable router => exact refresh hw router
  | sharing router other => exact refresh (refresh hw router) other
  | heldTable | heldMatch =>
    simp only [step]
    split <;> exact hw
  | request cache source label =>
    have valid := Workspace.valid_request hw cache source
    simp only [step]
    split <;> next hq => rwa [hq] at valid
  | compileSorted cache sources =>
    have valid := Workspace.valid_compileSorted hw cache sources
    simp only [step]
    split <;> next hq => rwa [hq] at valid
  | clearCache cache => exact Workspace.valid_clearCache hw cache
  | create | clear | size | get | list | cacheSize | cacheContains | describe => exact hw

theorem keeps_empty [SizeLimit] : (empty : RouterSession α).Keeps Registry.empty :=
  ⟨Workspace.valid_empty, fun _ => Router.valid_withCache _, fun _ => rfl⟩

theorem router_after (s : RouterSession α) (name other : String) (r : Router α) (w : Workspace) :
    (s.after name r w).router other = if other = name then r else s.router other := by
  change (((name, r) :: s.routers.eraseP (·.1 == name)).lookup other).getD Router.empty = _
  rw [lookup_cons_eraseP]
  split <;> rfl

section

variable [SizeLimit] {s : RouterSession α} {g : Registry α}

theorem keeps_after (h : s.Keeps g) (name : String) {r : Router α} {w : Workspace} (hr : r.Valid)
    (hw : w.Valid) : (s.after name r w).Keeps (g.set name r.toList) := by
  refine ⟨hw, fun other => ?_, fun other => ?_⟩
  · rw [router_after]
    split
    · exact hr
    · exact h.valid other
  · rw [router_after, Registry.set]
    split
    · rfl
    · exact h.routes other

theorem keeps_of_routers (h : s.Keeps g) {t : RouterSession α} (hw : t.workspace.Valid)
    (same : t.routers = s.routers) : t.Keeps g := by
  have router : ∀ name, t.router name = s.router name := by
    intro name
    rw [RouterSession.router, same, RouterSession.router]
  refine ⟨hw, fun name => ?_, fun name => ?_⟩
  · rw [router]
    exact h.valid name
  · rw [router]
    exact h.routes name

theorem keeps_refresh (h : s.Keeps g) (name : String) : (s.refresh name).Keeps g := by
  have valid := Router.valid_table (h.valid name) s.workspace
  have caches := (s.router name).workspace_valid_table h.caches
  have kept := keeps_after h name valid caches
  rw [Router.toList_table, h.routes, Registry.set_same] at kept
  exact kept

theorem keeps_step [Describe α] (h : s.Keeps g) (a : RouterStep α) :
    (s.step a).2.Keeps (g.step a) := by
  have caches := workspace_valid_step h.caches a
  cases a with
  | create router cache => exact keeps_after h router (Router.valid_withCache _) caches
  | insert router source data strict =>
    rcases Router.insert_cases (h.valid router) h.caches source data with
      ⟨e, w, he, hw, hi⟩ | ⟨p, r, w, hp, hw, hr, hl, hi⟩
    · simp only [step, Registry.step, hi, he]
      exact keeps_of_routers h hw rfl
    · have kept := keeps_after h router hr hw
      rw [hl, h.routes] at kept
      simp only [step, Registry.step, hi, hp]
      exact kept
  | clear router => exact keeps_after h router Router.valid_clear caches
  | find router path => exact keeps_refresh h router
  | findAll router path => exact keeps_refresh h router
  | table router => exact keeps_refresh h router
  | holdTable router label => exact keeps_of_routers (keeps_refresh h router) caches rfl
  | sharing router other => exact keeps_refresh (keeps_refresh h router) other
  | heldTable | heldMatch | request | compileSorted =>
    apply keeps_of_routers h caches
    simp only [step]
    split <;> rfl
  | size | get | list | cacheSize | cacheContains | clearCache | describe =>
    exact keeps_of_routers h caches rfl

theorem keeps_run [Describe α] (h : s.Keeps g) (as : List (RouterStep α)) :
    (s.run as).2.Keeps (g.run as) := by
  induction as generalizing s g with
  | nil => exact h
  | cons a as ih => exact ih (keeps_step h a)

/-- A session that keeps a registry gives the answers of its lists. -/
theorem answers_step [Describe α] (h : s.Keeps g) (a : RouterStep α) :
    g.Answers a (s.step a).1 := by
  cases a with
  | insert router source data strict =>
    have count : ∀ r : Router α, r.toList = (s.router router).toList ++ [(source, data)] →
        r.size = (g router).length + 1 := by
      intro r hl
      rw [← Router.length_toList, hl, List.length_append, h.routes, List.length_singleton]
    rcases Router.insert_cases (h.valid router) h.caches source data with
      ⟨e, w, he, hw, hi⟩ | ⟨p, r, w, hp, hw, hr, hl, hi⟩
    · simp only [step, Registry.Answers, hi, he]
    · simp only [step, Registry.Answers, hi, hp, count r hl]
  | size router =>
    change RouterReply.size (s.router router).size = _
    rw [← Router.length_toList, h.routes]
  | get router index =>
    change RouterReply.route (s.router router).toList[index]? = _
    rw [h.routes]
  | list router =>
    change RouterReply.routes (s.router router).toList = _
    rw [h.routes]
  | find router path =>
    have look := Router.isLookup_findAll (h.valid router) path s.workspace
    rw [h.routes] at look
    exact ⟨_, rfl, look.isFound_head?⟩
  | findAll router path =>
    have look := Router.isLookup_findAll (h.valid router) path s.workspace
    rw [h.routes] at look
    exact ⟨_, rfl, look⟩
  | table router =>
    have built := Router.isTable_build (h.valid router)
    rw [← Router.table_value (h.valid router) s.workspace, h.routes] at built
    exact ⟨_, rfl, built⟩
  | create | clear => rfl
  | _ => trivial

/-- After every run, each router holds the list of the routes it was given since it was last
cleared, its lookups ask for no other routes, and every further step is answered as the lists
say. -/
theorem run_refines_registry [Describe α] (as : List (RouterStep α)) :
    let s := ((empty : RouterSession α).run as).2
    let g := (Registry.empty : Registry α).run as
    (∀ name, (s.router name).toList = g name ∧
      ∀ e ∈ ((s.router name).table s.workspace).1.value.entries,
        e.index < (s.router name).routes.length) ∧
    ∀ a, g.Answers a (s.step a).1 := by
  intro s g
  have kept : s.Keeps g := keeps_run keeps_empty as
  refine ⟨fun name => ⟨kept.routes name, ?_⟩, answers_step kept⟩
  rw [Router.table_value (kept.valid name)]
  intro e he
  exact Router.index_lt_of_mem_build he

end

end RouterSession

end PatternRouter
