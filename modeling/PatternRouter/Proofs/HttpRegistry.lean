import PatternRouter.Proofs.HttpStates

namespace PatternRouter

variable {α : Type}

structure HttpRegistry (α : Type) where
  routes : List (String × Endpoint α)
  defaultCors : CorsPolicy
  provider : Option (PolicyProvider α)

/-- The route that a step asks to register. -/
def HttpStep.route? : HttpStep α → Option (String × Endpoint α)
  | .insert method source data cors _ =>
    (Method.ofName? method).map fun m => (source, ⟨m, data, cors⟩)
  | .insertText method source data =>
    (Method.ofText? (method.getD "GET")).map fun m => (source, ⟨m, data, none⟩)
  | _ => none

namespace HttpRegistry

variable [SizeLimit]

def empty : HttpRegistry α := ⟨[], .disabled, none⟩

def add (g : HttpRegistry α) (t : String × Endpoint α) : HttpRegistry α :=
  { g with routes := g.routes ++ [t] }

def register (g : HttpRegistry α) (t : String × Endpoint α) : HttpRegistry α :=
  match Pattern.compile t.1 with
  | .ok _ => g.add t
  | .error _ => g

/-- What a step does to the routes and the policies. -/
def step (g : HttpRegistry α) : HttpStep α → HttpRegistry α
  | .create => empty
  | .createOnOwnCache => empty
  | .createFromConfig text =>
    match Config.ofText text with
    | .ok c => { empty with defaultCors := c.defaultCors }
    | .error _ => g
  | .setDefaultCors cors => { g with defaultCors := cors }
  | .setProvider provider => { g with provider := some provider }
  | .clearProvider => { g with provider := none }
  | a => a.route?.elim g g.register

def run (g : HttpRegistry α) (as : List (HttpStep α)) : HttpRegistry α := as.foldl step g

end HttpRegistry

namespace HttpRouter

/-- What a router holds, its table and caches aside. -/
def registry (r : HttpRouter α) : HttpRegistry α := ⟨r.routes.toList, r.defaultCors, r.provider⟩

theorem registry_insertEndpoint [SizeLimit] {r : HttpRouter α} (hr : r.routes.Valid) {w : Workspace}
    (hw : w.Valid) (source : String) (endpoint : Endpoint α) :
    (∃ e w', Pattern.compile source = .error e ∧
      r.insertEndpoint source endpoint w = (.error e, w')) ∨
    (∃ p r' w', Pattern.compile source = .ok p ∧ r'.registry = r.registry.add (source, endpoint) ∧
      r.insertEndpoint source endpoint w = (.ok r', w')) := by
  rcases Router.insert_cases hr hw source endpoint with
    ⟨e, w', he, -, hi⟩ | ⟨p, routes, w', hp, -, -, hl, hi⟩
  · exact .inl ⟨e, w', he, by rw [insertEndpoint, hi]⟩
  · refine .inr ⟨p, { r with routes }, w', hp, ?_, by rw [insertEndpoint, hi]⟩
    simp [registry, HttpRegistry.add, hl]

theorem registry_resolve (r : HttpRouter α) (method : Method) (path : String) (headers : Headers)
    (w : Workspace) : (r.resolve method path headers w).2.1.registry = r.registry := by
  have routes := r.routes.toList_table w
  change HttpRegistry.mk (r.routes.table w).2.1.toList r.defaultCors r.provider = _
  rw [routes]
  rfl

theorem choose_congr {r r' : HttpRouter α} (default : r'.defaultCors = r.defaultCors)
    (provider : r'.provider = r.provider) : r'.choose = r.choose := by
  have select : r'.select = r.select := by
    funext m headers hit
    simp only [select_eq, default, provider]
  funext m headers hs
  simp only [choose_eq, select]

end HttpRouter

namespace HttpSession

variable {s : HttpSession α}

theorem registered_cases [SizeLimit] (h : s.Valid) (fault : RouteError → Fault)
    (t : String × Endpoint α) :
    (∃ e u, Pattern.compile t.1 = .error e ∧ u.router = s.router ∧
      s.registered fault (s.router.insertEndpoint t.1 t.2 s.workspace) = (.failed (fault e), u)) ∨
    (∃ p u, Pattern.compile t.1 = .ok p ∧ u.router.registry = s.router.registry.add t ∧
      s.registered fault (s.router.insertEndpoint t.1 t.2 s.workspace) =
        (.changed u.router.size, u)) := by
  rcases HttpRouter.registry_insertEndpoint h.routes h.caches t.1 t.2 with
    ⟨e, w, he, hi⟩ | ⟨p, r, w, hp, hg, hi⟩
  · exact .inl ⟨e, { s with workspace := w }, he, rfl, by rw [hi]; rfl⟩
  · exact .inr ⟨p, ⟨w, r⟩, hp, hg, by rw [hi]; rfl⟩

theorem registry_registered [SizeLimit] (h : s.Valid) (fault : RouteError → Fault)
    (t : String × Endpoint α) :
    (s.registered fault (s.router.insertEndpoint t.1 t.2 s.workspace)).2.router.registry =
      s.router.registry.register t := by
  rcases registered_cases h fault t with ⟨e, u, he, hu, hr⟩ | ⟨p, u, hp, hg, hr⟩
  · rw [hr, HttpRegistry.register, he, hu]
  · rw [hr, HttpRegistry.register, hp, hg]

theorem registry_resolve (s : HttpSession α) (method : Method) (path : String)
    (headers : Headers) : (s.resolve method path headers).2.router.registry = s.router.registry :=
  s.router.registry_resolve method path headers s.workspace

theorem registry_step [SizeLimit] [Describe α] (h : s.Valid) (a : HttpStep α) :
    (s.step a).2.router.registry = s.router.registry.step a := by
  cases a with
  | insert method source data cors strict =>
    simp only [step, Method.parse, HttpRegistry.step, HttpStep.route?]
    cases Method.ofName? method with
    | none => rfl
    | some m => exact registry_registered h _ (source, ⟨m, data, cors⟩)
  | insertText method source data =>
    simp only [step, HttpRouter.insertText, Method.ofRegistration, HttpRegistry.step,
      HttpStep.route?]
    cases Method.ofText? (method.getD "GET") with
    | none => rfl
    | some m => exact registry_registered h _ (source, ⟨m, data, none⟩)
  | createFromConfig text =>
    simp only [step, HttpRegistry.step]
    cases Config.ofText text <;> rfl
  | find method path =>
    simp only [step]
    split
    · rfl
    · next m _ =>
      have kept := s.router.registry_resolve m path [] s.workspace
      rwa [← HttpRouter.find_state] at kept
  | resolve method path headers =>
    simp only [step]
    split
    · rfl
    · exact registry_resolve s ..
  | request method uri headers =>
    simp only [step]
    split
    · rfl
    · exact registry_resolve s ..
  | create | createOnOwnCache | setDefaultCors | setProvider | clearProvider | defaultCors | size
  | list | cacheSizes | describe => rfl

theorem valid_run [SizeLimit] [Describe α] (h : s.Valid) (as : List (HttpStep α)) :
    (s.run as).2.Valid := by
  induction as generalizing s with
  | nil => exact h
  | cons a as ih => exact ih (valid_step h a)

theorem registry_run [SizeLimit] [Describe α] (h : s.Valid) (as : List (HttpStep α)) :
    (s.run as).2.router.registry = s.router.registry.run as := by
  induction as generalizing s with
  | nil => rfl
  | cons a as ih =>
    have first := registry_step h a
    have later := ih (valid_step h a)
    rw [first] at later
    exact later

theorem registry_of_changed [SizeLimit] [Describe α] (h : s.Valid) {a : HttpStep α}
    {t : String × Endpoint α} (ha : a.route? = some t) {n : Nat}
    (done : (s.step a).1 = .changed n) :
    (∃ p, Pattern.compile t.1 = .ok p) ∧
      (s.step a).2.router.registry = s.router.registry.add t := by
  have carried : ∀ fault,
      (s.registered fault (s.router.insertEndpoint t.1 t.2 s.workspace)).1 = .changed n →
      (∃ p, Pattern.compile t.1 = .ok p) ∧
        (s.registered fault (s.router.insertEndpoint t.1 t.2 s.workspace)).2.router.registry =
          s.router.registry.add t := by
    intro fault reply
    rcases registered_cases h fault t with ⟨e, u, -, -, hr⟩ | ⟨p, u, hp, hg, hr⟩
    · rw [hr] at reply
      cases reply
    · rw [hr]
      exact ⟨⟨p, hp⟩, hg⟩
  cases a with
  | insert method source data cors strict =>
    obtain ⟨m, hm, rfl⟩ := Option.map_eq_some_iff.1 ha
    simp only [step, Method.parse, hm] at done ⊢
    exact carried _ done
  | insertText method source data =>
    obtain ⟨m, hm, rfl⟩ := Option.map_eq_some_iff.1 ha
    simp only [step, HttpRouter.insertText, Method.ofRegistration, hm] at done ⊢
    exact carried _ done
  | _ => cases ha

end HttpSession

end PatternRouter
