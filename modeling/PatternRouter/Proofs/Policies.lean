import PatternRouter.Proofs.HttpRegistry
import PatternRouter.Proofs.Preflight
import PatternRouter.Proofs.Recording

namespace PatternRouter

variable {α : Type}

/-- A provider that was asked for a policy, and what it was told. -/
structure Consultation (α : Type) where
  provider : PolicyProvider α
  method : Method
  headers : Headers
  selection : Selection α

def Asker.recording : Asker (StateM (List (Consultation α))) α :=
  fun provider method headers c => do
    modify (· ++ [⟨provider, method, headers, c⟩])
    return provider method headers c

/-- How the policy of a selection comes about, and which provider is asked for it, where the routes
are `rs`. -/
inductive PolicyOf (rs : List (String × Endpoint α)) (default : CorsPolicy)
    (provider : Option (PolicyProvider α)) (m : Method) (headers : Headers) (c : Selection α) :
    List (Consultation α) → Prop where
  | own : rs[c.index]? = some (c.source, ⟨c.method, c.data, some c.cors⟩) →
      PolicyOf rs default provider m headers c []
  | provided {p : PolicyProvider α} :
      rs[c.index]? = some (c.source, ⟨c.method, c.data, none⟩) → provider = some p →
      c.cors = p m headers { c with cors := default } →
      PolicyOf rs default provider m headers c [⟨p, m, headers, { c with cors := default }⟩]
  | default : rs[c.index]? = some (c.source, ⟨c.method, c.data, none⟩) → provider = none →
      c.cors = default → PolicyOf rs default provider m headers c []

/-- The same for a resolution; where there is no route there is nothing to be asked or sent. -/
inductive HasPolicy (rs : List (String × Endpoint α)) (default : CorsPolicy)
    (provider : Option (PolicyProvider α)) (m : Method) (headers : Headers) (d : Resolution α) :
    List (Consultation α) → Prop where
  | selected {c : Selection α} {asked : List (Consultation α)} : d.selection? = some c →
      PolicyOf rs default provider m headers c asked →
      HasPolicy rs default provider m headers d asked
  | none : d.selection? = none → d.headers = ([], []) →
      HasPolicy rs default provider m headers d []

namespace HttpRouter

variable [SizeLimit]

section

variable {rs : List (String × Endpoint α)} {path : String} {hs : List (RouteHit (Endpoint α))}

theorem policyOf_select (r : HttpRouter α) (m : Method) (headers : Headers)
    {h : RouteHit (Endpoint α)} (hm : Matches rs path h) :
    ∃ asked, Records (r.selectBy .recording m headers h) (r.select m headers h) asked ∧
      PolicyOf rs r.defaultCors r.provider m headers (r.select m headers h) asked := by
  obtain ⟨i, source, ⟨method, data, cors⟩, params⟩ := h
  have listed := hm.1
  rw [select_eq]
  unfold selectBy
  cases cors with
  | some own => exact ⟨[], .pure _, .own listed⟩
  | none =>
    cases provider : r.provider with
    | none => exact ⟨[], .pure _, .default listed rfl rfl⟩
    | some p => exact ⟨_, (Records.note _ _).map _, .provided listed rfl rfl⟩

/-- The policy of a request comes from its route, the provider or the default, in this order. -/
theorem hasPolicy_choose (look : IsLookup rs path hs) (r : HttpRouter α) (m : Method)
    (headers : Headers) :
    ∃ asked, Records (r.chooseBy .recording m headers hs) (r.choose m headers hs) asked ∧
      HasPolicy rs r.defaultCors r.provider m headers (r.choose m headers hs) asked := by
  rw [choose_eq]
  unfold chooseBy
  cases hs.isEmpty with
  | true => exact ⟨[], .pure _, .none rfl rfl⟩
  | false =>
    cases first : firstOf? m hs with
    | some h =>
      have hm := ((firstOf?_eq_some_iff look).1 first).holds.1
      obtain ⟨asked, records, policy⟩ := r.policyOf_select m headers hm
      exact ⟨asked, records.map _, .selected rfl policy⟩
    | none =>
      cases first : (announcedMethod? m headers).bind (firstOf? · hs) with
      | some h =>
        obtain ⟨t, -, first⟩ := Option.bind_eq_some_iff.1 first
        have hm := ((firstOf?_eq_some_iff look).1 first).holds.1
        obtain ⟨asked, records, policy⟩ := r.policyOf_select m headers hm
        exact ⟨asked, records.map _, .selected rfl policy⟩
      | none => exact ⟨[], .pure _, .none rfl rfl⟩

end

theorem hasPolicy_resolve {r : HttpRouter α} (hr : r.routes.Valid) (m : Method) (path : String)
    (headers : Headers) (w : Workspace) :
    ∃ asked, Records (r.resolveBy .recording m path headers w) (r.resolve m path headers w) asked ∧
      HasPolicy r.routes.toList r.defaultCors r.provider m headers
        (r.resolve m path headers w).1 asked := by
  have look := Router.isLookup_findAll hr path w
  let found := r.routes.findAll path w
  let r' : HttpRouter α := { r with routes := found.2.1 }
  obtain ⟨asked, records, policy⟩ := hasPolicy_choose look r' m headers
  exact ⟨asked, records.map fun d => (d, r', found.2.2.report (d.event m path)), policy⟩

end HttpRouter

namespace HttpStep

def makesRouter : HttpStep α → Bool
  | .create | .createOnOwnCache | .createFromConfig _ => true
  | _ => false

def newDefault? : HttpStep α → Option CorsPolicy
  | .setDefaultCors cors => some cors
  | _ => none

/-- The provider that a step installs, if it does not remove the one there is. -/
def newProvider? : HttpStep α → Option (Option (PolicyProvider α))
  | .setProvider provider => some (some provider)
  | .clearProvider => some none
  | _ => none

/-- The default policy that was set last. -/
def latestDefault (as : List (HttpStep α)) (old : CorsPolicy) : CorsPolicy :=
  (as.filterMap newDefault?).getLast?.getD old

/-- The provider that was installed last, unless it was removed since. -/
def latestProvider (as : List (HttpStep α)) (old : Option (PolicyProvider α)) :
    Option (PolicyProvider α) :=
  (as.filterMap newProvider?).getLast?.getD old

def registered [SizeLimit] (as : List (HttpStep α)) : List (String × Endpoint α) :=
  (as.filterMap route?).filter fun t => (Pattern.compile t.1).isOk

end HttpStep

theorem getLast?_filterMap_cons {β γ : Type} (f : β → Option γ) (a : β) (as : List β) (x : γ) :
    ((a :: as).filterMap f).getLast?.getD x = (as.filterMap f).getLast?.getD ((f a).getD x) := by
  rw [List.filterMap_cons]
  cases f a with
  | none => rfl
  | some y =>
    rw [List.getLast?_cons]
    rfl

namespace HttpRegistry

variable [SizeLimit] {g : HttpRegistry α} {a : HttpStep α}

theorem register_eq (g : HttpRegistry α) (t : String × Endpoint α) :
    g.register t =
      { g with routes := g.routes ++ [t].filter fun t => (Pattern.compile t.1).isOk } := by
  unfold register
  cases compiled : Pattern.compile t.1 with
  | ok p => simp [add, compiled, Except.isOk, Except.toBool]
  | error e => simp [compiled, Except.isOk, Except.toBool]

theorem step_eq (old : a.makesRouter = false) :
    g.step a = ⟨g.routes ++ HttpStep.registered [a], a.newDefault?.getD g.defaultCors,
      a.newProvider?.getD g.provider⟩ := by
  have unmoved : ∀ h : HttpRegistry α, h = ⟨h.routes ++ [], h.defaultCors, h.provider⟩ := by
    intro h
    rw [List.append_nil]
  have added : ∀ route : Option (String × Endpoint α), route.elim g g.register =
      ⟨g.routes ++ route.toList.filter fun t => (Pattern.compile t.1).isOk, g.defaultCors,
        g.provider⟩ := by
    intro route
    cases route with
    | none => exact unmoved g
    | some t => exact g.register_eq t
  have routes : HttpStep.registered [a] =
      a.route?.toList.filter fun t => (Pattern.compile t.1).isOk := by
    rw [HttpStep.registered, List.filterMap_cons]
    cases a.route? <;> rfl
  rw [routes]
  cases a with
  | create | createOnOwnCache | createFromConfig => cases old
  | insert | insertText => exact added _
  | setDefaultCors cors => exact unmoved { g with defaultCors := cors }
  | setProvider provider => exact unmoved { g with provider := some provider }
  | clearProvider => exact unmoved { g with provider := none }
  | defaultCors | size | list | find | resolve | request | cacheSizes | describe =>
    exact unmoved g

/-- Steps that make no new router register routes in order, and of each kind of policy the one that
is set last stays. -/
theorem run_eq (as : List (HttpStep α)) (old : ∀ a ∈ as, a.makesRouter = false) :
    g.run as = ⟨g.routes ++ HttpStep.registered as, HttpStep.latestDefault as g.defaultCors,
      HttpStep.latestProvider as g.provider⟩ := by
  induction as generalizing g with
  | nil =>
    change g = ⟨g.routes ++ [], g.defaultCors, g.provider⟩
    rw [List.append_nil]
  | cons a as ih =>
    have split : HttpStep.registered (a :: as) =
        HttpStep.registered [a] ++ HttpStep.registered as := by
      rw [← List.singleton_append, HttpStep.registered, List.filterMap_append,
        List.filter_append, HttpStep.registered, HttpStep.registered]
    change (g.step a).run as = _
    rw [ih fun b hb => old b (List.mem_cons_of_mem _ hb), step_eq (old a (List.mem_cons_self ..)),
      split, List.append_assoc, HttpStep.latestDefault, HttpStep.latestDefault,
      HttpStep.latestProvider, HttpStep.latestProvider, getLast?_filterMap_cons,
      getLast?_filterMap_cons]

end HttpRegistry

section

variable {rs : List (String × Endpoint α)} {default default' : CorsPolicy}
  {provider provider' : Option (PolicyProvider α)} {m : Method} {headers : Headers}
  {c : Selection α} {own : CorsPolicy} {asked asked' : List (Consultation α)}

theorem PolicyOf.own_eq (h : PolicyOf rs default provider m headers c asked)
    (listed : rs[c.index]? = some (c.source, ⟨c.method, c.data, some own⟩)) :
    c.cors = own ∧ asked = [] := by
  cases h with
  | own same =>
    cases listed.symm.trans same
    exact ⟨rfl, rfl⟩
  | provided other => cases listed.symm.trans other
  | default other => cases listed.symm.trans other

theorem HasPolicy.policyOf {d : Resolution α} (h : HasPolicy rs default provider m headers d asked)
    (selected : d.selection? = some c) : PolicyOf rs default provider m headers c asked := by
  cases h with
  | selected same policy =>
    obtain rfl := Option.some.inj (selected.symm.trans same)
    exact policy
  | none same => cases selected.symm.trans same

theorem Resolution.eq_of_selection {d d' : Resolution α} (outcome : d'.outcome = d.outcome)
    (selection : d'.selection? = d.selection?) : d' = d := by
  cases d <;> cases d' <;> cases outcome <;> cases selection <;> rfl

/-- Policies set elsewhere do not reach a route that has one of its own. -/
theorem HasPolicy.eq_of_own {d d' : Resolution α}
    (h : HasPolicy rs default provider m headers d asked)
    (h' : HasPolicy rs default' provider' m headers d' asked') (target : d'.target = d.target)
    (selected : d.selection? = some c)
    (listed : rs[c.index]? = some (c.source, ⟨c.method, c.data, some own⟩)) :
    d' = d ∧ asked = [] ∧ asked' = [] := by
  have hit : d'.selection?.map Selection.hit = d.selection?.map Selection.hit :=
    congrArg Prod.snd target
  rw [selected] at hit
  -- Both select one route, so that the policy of its own is in force in both.
  obtain ⟨c', selected', same⟩ := Option.map_eq_some_iff.1 hit
  obtain ⟨i, method, source, data, params, cors⟩ := c
  obtain ⟨i', method', source', data', params', cors'⟩ := c'
  cases same
  obtain ⟨rfl, none_asked⟩ := (h.policyOf selected).own_eq listed
  obtain ⟨rfl, none_asked'⟩ := (h'.policyOf selected').own_eq listed
  have outcome := congrArg Prod.fst target
  have same := Resolution.eq_of_selection outcome (selected'.trans selected.symm)
  exact ⟨same, none_asked, none_asked'⟩

end

namespace HttpSession

variable {s : HttpSession α} {as : List (HttpStep α)}

theorem registry_run_eq [SizeLimit] [Describe α] (hs : s.Valid)
    (old : ∀ a ∈ as, a.makesRouter = false) : (s.run as).2.router.registry =
      ⟨s.router.routes.toList ++ HttpStep.registered as,
        HttpStep.latestDefault as s.router.defaultCors,
        HttpStep.latestProvider as s.router.provider⟩ := by
  rw [registry_run hs, HttpRegistry.run_eq as old]
  rfl

theorem hasPolicy_run [SizeLimit] [Describe α] (hs : s.Valid)
    (old : ∀ a ∈ as, a.makesRouter = false) (m : Method) (path : String) (headers : Headers) :
    let rs := s.router.routes.toList ++ HttpStep.registered as
    let t := (s.run as).2
    let x := t.router.resolve m path headers t.workspace
    IsResolution rs m path headers x.1 ∧ ∃ asked,
      Records (t.router.resolveBy .recording m path headers t.workspace) x asked ∧
      HasPolicy rs (HttpStep.latestDefault as s.router.defaultCors)
        (HttpStep.latestProvider as s.router.provider) m headers x.1 asked := by
  intro rs t x
  have valid := (valid_run hs as).routes
  have kept : HttpRegistry.mk t.router.routes.toList t.router.defaultCors t.router.provider = _ :=
    registry_run_eq hs old
  obtain ⟨routes, default, provider⟩ := HttpRegistry.mk.inj kept
  have resolves := HttpRouter.isResolution_resolve valid m path headers t.workspace
  obtain ⟨asked, records, policy⟩ := HttpRouter.hasPolicy_resolve valid m path headers t.workspace
  rw [routes] at resolves
  rw [routes, default, provider] at policy
  exact ⟨resolves, asked, records, policy⟩

/-- Policies never bear on routes. Two routers to which the same routes were added resolve every
request to the same route with the same parameters, whatever default policies and providers were set
and removed in between. In each of them the policy is the route's own, else what the provider that
was installed last answers to the request and the route under the default that was set last, else
that default; this provider is asked once, and otherwise none is asked. Where the route has a policy
of its own the resolutions are the same. -/
theorem policies_never_route [SizeLimit] [Describe α] {s s' : HttpSession α} (hs : s.Reachable)
    (hs' : s'.Reachable) (start : s'.router.routes.toList = s.router.routes.toList)
    {as bs : List (HttpStep α)} (old : ∀ a ∈ as, a.makesRouter = false)
    (old' : ∀ b ∈ bs, b.makesRouter = false)
    (same : bs.filterMap HttpStep.route? = as.filterMap HttpStep.route?) (m : Method)
    (path : String) (headers : Headers) :
    let rs := s.router.routes.toList ++ HttpStep.registered as
    let t := (s.run as).2
    let t' := (s'.run bs).2
    let x := t.router.resolve m path headers t.workspace
    let x' := t'.router.resolve m path headers t'.workspace
    x'.1.target = x.1.target ∧ ∃ asked asked',
      Records (t.router.resolveBy .recording m path headers t.workspace) x asked ∧
      Records (t'.router.resolveBy .recording m path headers t'.workspace) x' asked' ∧
      HasPolicy rs (HttpStep.latestDefault as s.router.defaultCors)
        (HttpStep.latestProvider as s.router.provider) m headers x.1 asked ∧
      HasPolicy rs (HttpStep.latestDefault bs s'.router.defaultCors)
        (HttpStep.latestProvider bs s'.router.provider) m headers x'.1 asked' ∧
      ∀ c own, x.1.selection? = some c →
        rs[c.index]? = some (c.source, ⟨c.method, c.data, some own⟩) →
          x'.1 = x.1 ∧ asked = [] ∧ asked' = [] := by
  intro rs t t' x x'
  have added : HttpStep.registered bs = HttpStep.registered as := congrArg (List.filter _) same
  obtain ⟨resolves, asked, records, policy⟩ := hasPolicy_run hs.valid old m path headers
  obtain ⟨resolves', asked', records', policy'⟩ := hasPolicy_run hs'.valid old' m path headers
  rw [start, added] at resolves' policy'
  have target := resolves.target_eq resolves' fun _ => Iff.rfl
  refine ⟨target, asked, asked', records, records', policy, policy', ?_⟩
  intro c own selected listed
  exact policy.eq_of_own policy' target selected listed

open Unlimited

theorem policies_never_route_disabled :
    ∃ (t t' : HttpSession Nat) (c : Selection Nat),
      t = (empty.run [.insert "GET" "/own" 1 (some .disabled) true]).2 ∧
      t' = (empty.run [.setDefaultCors .permissive,
        .insert "GET" "/own" 1 (some .disabled) true,
        .setProvider fun _ _ _ => .permissive]).2 ∧
      (t.router.resolve Method.get "/own" [] t.workspace).1 = .matched c ∧ c.cors = .disabled ∧
      (t'.router.resolve Method.get "/own" [] t'.workspace).1 = .matched c ∧
      Records (t'.router.resolveBy .recording Method.get "/own" [] t'.workspace)
        (t'.router.resolve Method.get "/own" [] t'.workspace) [] := by
  have alike := @policies_never_route Nat _ _ _ _ .empty .empty rfl
    [.insert "GET" "/own" 1 (some .disabled) true]
    [.setDefaultCors .permissive, .insert "GET" "/own" 1 (some .disabled) true,
      .setProvider fun _ _ _ => .permissive]
    (by simp [HttpStep.makesRouter]) (by simp [HttpStep.makesRouter]) rfl Method.get "/own" []
  obtain ⟨-, asked, asked', -, records', -, -, own⟩ := alike
  obtain ⟨same, -, rfl⟩ := own ⟨0, Method.get, "/own", 1, ⟨[]⟩, .disabled⟩ .disabled rfl rfl
  exact ⟨_, _, _, rfl, rfl, rfl, rfl, same, records'⟩

end HttpSession

end PatternRouter
