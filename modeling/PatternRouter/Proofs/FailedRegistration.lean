import PatternRouter.Http.Session
import PatternRouter.Proofs.Workspaces
import PatternRouter.Router.Session

namespace PatternRouter

variable {α : Type}

/-- Whether two runs come to the same replies and end in states that are alike. -/
structure EndsAlike {σ ρ : Type} (alike : σ → σ → Prop) (x y : ρ × σ) : Prop where
  replies : y.1 = x.1
  state : alike x.2 y.2

namespace Router

variable {w w' : Workspace}

theorem alike_insert [SizeLimit] (h : w.Alike w') (r : Router α) (source : String) (data : α) :
    ∃ x u u', r.insert source data w = (x, u) ∧ r.insert source data w' = (x, u') ∧ u.Alike u' := by
  obtain ⟨q, u, u', hq, hq', alike⟩ := h.request r.cache source
  simp only [insert, hq, hq']
  cases q with
  | error e => exact ⟨_, _, _, rfl, rfl, alike⟩
  | ok p => exact ⟨_, _, _, rfl, rfl, alike⟩

/-- A new table is told from others by the reports before it, which are the same. -/
theorem alike_table (h : w.Alike w') (r : Router α) :
    ∃ t r' u u', r.table w = (t, r', u) ∧ r.table w' = (t, r', u') ∧ u.Alike u' := by
  have rebuilt : ∃ t r' u u', r.rebuild w = (t, r', u) ∧ r.rebuild w' = (t, r', u') ∧
      u.Alike u' := by
    simp only [rebuild, h.journal]
    exact ⟨_, _, _, _, rfl, rfl, h.report _⟩
  unfold table
  split
  · split
    · exact ⟨_, _, _, _, rfl, rfl, h⟩
    · exact rebuilt
  · exact rebuilt

theorem alike_findAll (h : w.Alike w') (r : Router α) (path : String) :
    ∃ hs r' u u', r.findAll path w = (hs, r', u) ∧ r.findAll path w' = (hs, r', u') ∧
      u.Alike u' := by
  obtain ⟨t, r', u, u', ht, ht', alike⟩ := alike_table h r
  simp only [findAll, ht, ht']
  exact ⟨_, _, _, _, rfl, rfl, alike⟩

theorem alike_find (h : w.Alike w') (r : Router α) (path : String) :
    ∃ hit r' u u', r.find path w = (hit, r', u) ∧ r.find path w' = (hit, r', u') ∧ u.Alike u' := by
  obtain ⟨hs, r', u, u', hh, hh', alike⟩ := alike_findAll h r path
  simp only [find, hh, hh']
  exact ⟨_, _, _, _, rfl, rfl, alike⟩

/-- A registration that fails leaves no trace. -/
theorem alike_of_insert_eq_error [SizeLimit] {r : Router α} {source : String} {data : α}
    {e : RouteError} (h : r.insert source data w = (.error e, w')) : w.Alike w' := by
  simp only [insert] at h
  split at h
  · next e' u refused =>
    obtain ⟨-, rfl⟩ := Prod.mk.inj h
    exact Workspace.alike_of_request_eq_error refused
  · cases h

end Router

namespace RouterSession

structure Alike (s t : RouterSession α) : Prop where
  workspace : s.workspace.Alike t.workspace
  routers : t.routers = s.routers
  heldTables : t.heldTables = s.heldTables
  heldPatterns : t.heldPatterns = s.heldPatterns

namespace Alike

variable {s t : RouterSession α}

theorem of_workspace {w : Workspace} (h : s.workspace.Alike w) :
    s.Alike { s with workspace := w } := ⟨h, rfl, rfl, rfl⟩

theorem router (h : s.Alike t) (name : String) : t.router name = s.router name := by
  rw [RouterSession.router, h.routers, RouterSession.router]

theorem after (h : s.Alike t) {w w' : Workspace} (hw : w.Alike w') (name : String) (r : Router α) :
    (s.after name r w).Alike (t.after name r w') := by
  refine ⟨hw, ?_, h.heldTables, h.heldPatterns⟩
  simp only [RouterSession.after, setRouter, h.routers]

theorem refresh (h : s.Alike t) (name : String) : (s.refresh name).Alike (t.refresh name) := by
  obtain ⟨x, r, u, u', ht, ht', alike⟩ := Router.alike_table h.workspace (s.router name)
  simp only [RouterSession.refresh, h.router, ht, ht']
  exact h.after alike name r

theorem step [SizeLimit] [Describe α] (h : s.Alike t) (a : RouterStep α) :
    EndsAlike RouterSession.Alike (s.step a) (t.step a) := by
  -- What a step reads of a workspace is the caches by name and the number of reports, so each case
  -- rewrites both sides to the same result.
  cases a with
  | create router cache =>
    have set := h.after h.workspace router (Router.withCache (cache.getD globalCache))
    exact ⟨rfl, h.workspace, set.routers, h.heldTables, h.heldPatterns⟩
  | insert router source data strict =>
    obtain ⟨x, u, u', hi, hi', alike⟩ :=
      Router.alike_insert h.workspace (s.router router) source data
    simp only [RouterSession.step, h.router, hi, hi']
    cases x with
    | error e => exact ⟨rfl, alike, h.routers, h.heldTables, h.heldPatterns⟩
    | ok r => exact ⟨rfl, h.after alike router r⟩
  | clear router =>
    have set := h.after h.workspace router (s.router router).clear
    simp only [RouterSession.step, h.router]
    exact ⟨rfl, h.workspace, set.routers, h.heldTables, h.heldPatterns⟩
  | size router | get router | list router =>
    simp only [RouterSession.step, h.router]
    exact ⟨rfl, h⟩
  | find router path =>
    obtain ⟨hit, r, u, u', hf, hf', alike⟩ := Router.alike_find h.workspace (s.router router) path
    simp only [RouterSession.step, h.router, hf, hf']
    exact ⟨rfl, h.after alike router r⟩
  | findAll router path =>
    obtain ⟨hs, r, u, u', hf, hf', alike⟩ :=
      Router.alike_findAll h.workspace (s.router router) path
    simp only [RouterSession.step, h.router, hf, hf']
    exact ⟨rfl, h.after alike router r⟩
  | table router =>
    obtain ⟨x, r, u, u', ht, ht', alike⟩ := Router.alike_table h.workspace (s.router router)
    simp only [RouterSession.step, h.router, ht, ht']
    exact ⟨rfl, h.after alike router r⟩
  | holdTable router label =>
    obtain ⟨x, r, u, u', ht, ht', alike⟩ := Router.alike_table h.workspace (s.router router)
    have set := h.after alike router r
    simp only [RouterSession.step, h.router, h.heldTables, ht, ht']
    exact ⟨rfl, alike, set.routers, rfl, h.heldPatterns⟩
  | heldTable label | heldMatch label =>
    simp only [RouterSession.step, h.heldTables]
    split <;> exact ⟨rfl, h⟩
  | sharing router other =>
    have set := (h.refresh router).refresh other
    simp only [RouterSession.step, set.router]
    exact ⟨rfl, set⟩
  | request cache source label =>
    obtain ⟨x, u, u', hq, hq', alike⟩ := h.workspace.request cache source
    simp only [RouterSession.step, hq, hq', h.heldPatterns]
    cases x <;> exact ⟨rfl, alike, h.routers, h.heldTables, rfl⟩
  | compileSorted cache sources =>
    obtain ⟨x, u, u', hq, hq', alike⟩ := h.workspace.compileSorted cache sources
    simp only [RouterSession.step, hq, hq']
    cases x <;> exact ⟨rfl, alike, h.routers, h.heldTables, h.heldPatterns⟩
  | cacheSize cache | cacheContains cache source =>
    simp only [RouterSession.step, h.workspace.cache]
    exact ⟨rfl, h⟩
  | clearCache cache =>
    exact ⟨rfl, h.workspace.clearCache cache, h.routers, h.heldTables, h.heldPatterns⟩
  | describe router =>
    simp only [RouterSession.step, h.router, Router.describe, h.workspace.cache]
    exact ⟨rfl, h⟩

theorem run [SizeLimit] [Describe α] (h : s.Alike t) (as : List (RouterStep α)) :
    EndsAlike RouterSession.Alike (s.run as) (t.run as) := by
  induction as generalizing s t with
  | nil => exact ⟨rfl, h⟩
  | cons a as ih =>
    have ⟨reply, after⟩ := h.step a
    have ⟨replies, last⟩ := ih after
    refine ⟨?_, last⟩
    simp only [RouterSession.run, reply, replies]

end Alike

end RouterSession

namespace HttpRouter

variable {w w' : Workspace}

theorem alike_insertEndpoint [SizeLimit] (h : w.Alike w') (r : HttpRouter α) (source : String)
    (endpoint : Endpoint α) :
    ∃ x u u', r.insertEndpoint source endpoint w = (x, u) ∧
      r.insertEndpoint source endpoint w' = (x, u') ∧ u.Alike u' := by
  obtain ⟨x, u, u', hi, hi', alike⟩ := Router.alike_insert h r.routes source endpoint
  simp only [insertEndpoint, hi, hi']
  cases x with
  | error e => exact ⟨_, _, _, rfl, rfl, alike⟩
  | ok routes => exact ⟨_, _, _, rfl, rfl, alike⟩

theorem alike_resolve (h : w.Alike w') (r : HttpRouter α) (method : Method) (path : String)
    (headers : Headers) :
    ∃ d r' u u', r.resolve method path headers w = (d, r', u) ∧
      r.resolve method path headers w' = (d, r', u') ∧ u.Alike u' := by
  obtain ⟨hs, routes, u, u', hf, hf', alike⟩ := Router.alike_findAll h r.routes path
  simp only [resolve_eq, hf, hf']
  exact ⟨_, _, _, _, rfl, rfl, alike.report _⟩

theorem alike_find (h : w.Alike w') (r : HttpRouter α) (method : Method) (path : String) :
    ∃ c r' u u', r.find method path w = (c, r', u) ∧ r.find method path w' = (c, r', u') ∧
      u.Alike u' := by
  obtain ⟨d, r', u, u', hd, hd', alike⟩ := alike_resolve h r method path []
  simp only [find, hd, hd']
  cases d <;> exact ⟨_, _, _, _, rfl, rfl, alike⟩

theorem alike_of_insertEndpoint_eq_error [SizeLimit] {r : HttpRouter α} {source : String}
    {endpoint : Endpoint α} {e : RouteError}
    (h : r.insertEndpoint source endpoint w = (.error e, w')) : w.Alike w' := by
  simp only [insertEndpoint] at h
  split at h
  · next e' u refused =>
    obtain ⟨-, rfl⟩ := Prod.mk.inj h
    exact Router.alike_of_insert_eq_error refused
  · cases h

end HttpRouter

namespace HttpSession

structure Alike (s t : HttpSession α) : Prop where
  workspace : s.workspace.Alike t.workspace
  router : t.router = s.router

namespace Alike

variable {s t : HttpSession α}

theorem registered {w w' : Workspace} (h : s.Alike t) (hw : w.Alike w')
    (fault : RouteError → Fault) (x : Except RouteError (HttpRouter α)) :
    EndsAlike HttpSession.Alike (s.registered fault (x, w)) (t.registered fault (x, w')) := by
  cases x with
  | error e => exact ⟨rfl, hw, h.router⟩
  | ok r => exact ⟨rfl, hw, rfl⟩

theorem resolve (h : s.Alike t) (method : Method) (path : String) (headers : Headers) :
    EndsAlike HttpSession.Alike (s.resolve method path headers)
      (t.resolve method path headers) := by
  obtain ⟨d, r, u, u', hd, hd', alike⟩ :=
    HttpRouter.alike_resolve h.workspace s.router method path headers
  simp only [HttpSession.resolve, h.router, hd, hd']
  exact ⟨rfl, alike.foldl_report _, rfl⟩

theorem step [SizeLimit] [Describe α] (h : s.Alike t) (a : HttpStep α) :
    EndsAlike HttpSession.Alike (s.step a) (t.step a) := by
  cases a with
  | create | createOnOwnCache => exact ⟨rfl, h.workspace, rfl⟩
  | createFromConfig text =>
    simp only [HttpSession.step]
    split
    · exact ⟨rfl, h.workspace, rfl⟩
    · exact ⟨rfl, h⟩
  | insert method source data cors strict =>
    simp only [HttpSession.step, h.router]
    split
    · exact ⟨rfl, h⟩
    · next m _ =>
      obtain ⟨x, u, u', hi, hi', alike⟩ :=
        HttpRouter.alike_insertEndpoint h.workspace s.router source ⟨m, data, cors⟩
      rw [hi, hi']
      exact h.registered alike _ x
  | insertText method source data =>
    simp only [HttpSession.step, HttpRouter.insertText, HttpRouter.insert, h.router]
    split
    · exact h.registered h.workspace _ _
    · next m _ =>
      obtain ⟨x, u, u', hi, hi', alike⟩ :=
        HttpRouter.alike_insertEndpoint h.workspace s.router source ⟨m, data, none⟩
      rw [hi, hi']
      exact h.registered alike _ x
  | setDefaultCors | setProvider | clearProvider =>
    simp only [HttpSession.step, change, h.router]
    exact ⟨rfl, h.workspace, rfl⟩
  | defaultCors | size | list =>
    simp only [HttpSession.step, h.router]
    exact ⟨rfl, h⟩
  | find method path =>
    simp only [HttpSession.step, h.router]
    split
    · exact ⟨rfl, h⟩
    · next m _ =>
      obtain ⟨c, r, u, u', hf, hf', alike⟩ := HttpRouter.alike_find h.workspace s.router m path
      rw [hf, hf']
      exact ⟨rfl, alike, rfl⟩
  | resolve method path headers =>
    simp only [HttpSession.step]
    split
    · exact ⟨rfl, h⟩
    · exact h.resolve _ path _
  | request method uri headers =>
    simp only [HttpSession.step]
    split
    · exact ⟨rfl, h⟩
    · exact h.resolve _ _ _
  | cacheSizes =>
    simp only [HttpSession.step, h.workspace.cache]
    exact ⟨rfl, h⟩
  | describe =>
    simp only [HttpSession.step, HttpRouter.describe, Router.describe, h.router, h.workspace.cache]
    exact ⟨rfl, h⟩

theorem run [SizeLimit] [Describe α] (h : s.Alike t) (as : List (HttpStep α)) :
    EndsAlike HttpSession.Alike (s.run as) (t.run as) := by
  induction as generalizing s t with
  | nil => exact ⟨rfl, h⟩
  | cons a as ih =>
    have ⟨reply, after⟩ := h.step a
    have ⟨replies, last⟩ := ih after
    refine ⟨?_, last⟩
    simp only [HttpSession.run, reply, replies]

end Alike

end HttpSession

def HttpStep.IsRegistration : HttpStep α → Prop
  | .insert .. => True
  | .insertText .. => True
  | _ => False

theorem RouterSession.alike_of_insert_failed [SizeLimit] [Describe α] {s : RouterSession α}
    {router source : String} {data : α} {strict : Bool} {fault : Fault}
    (failed : (s.step (.insert router source data strict)).1 = .failed fault) :
    s.Alike (s.step (.insert router source data strict)).2 := by
  simp only [RouterSession.step] at failed ⊢
  split at failed
  · cases failed
  · next e w refused => exact .of_workspace (Router.alike_of_insert_eq_error refused)

namespace HttpSession

variable [SizeLimit] {s : HttpSession α}

theorem alike_of_registered_failed {toFault : RouteError → Fault} {source : String}
    {endpoint : Endpoint α} {fault : Fault}
    (failed : (s.registered toFault (s.router.insertEndpoint source endpoint s.workspace)).1 =
      .failed fault) :
    s.Alike (s.registered toFault (s.router.insertEndpoint source endpoint s.workspace)).2 := by
  generalize came : s.router.insertEndpoint source endpoint s.workspace = x at failed ⊢
  obtain ⟨e | r, w⟩ := x
  · exact ⟨HttpRouter.alike_of_insertEndpoint_eq_error came, rfl⟩
  · cases failed

theorem alike_of_registration_failed [Describe α] {a : HttpStep α} (ha : a.IsRegistration)
    {fault : Fault} (failed : (s.step a).1 = .failed fault) : s.Alike (s.step a).2 := by
  cases a with
  | insert method source data cors strict =>
    simp only [step] at failed ⊢
    split at failed
    · exact ⟨.refl _, rfl⟩
    · exact alike_of_registered_failed failed
  | insertText method source data =>
    simp only [step, HttpRouter.insertText, HttpRouter.insert] at failed ⊢
    split at failed
    · exact ⟨.refl _, rfl⟩
    · exact alike_of_registered_failed failed
  | _ => cases ha

theorem step_insertText_of_bad_method [Describe α] {method : Option String}
    (bad : isMethodText ((trimBlank (method.getD "GET").toList).map Char.toUpper) = false)
    (source : String) (data : α) :
    s.step (.insertText method source data) =
      (.failed (.route (.invalidMethod (method.getD "GET"))), s) := by
  have none : Method.ofText? (method.getD "GET") = none := by
    simp [Method.ofText?, Method.ofName?, bad]
  simp only [step, HttpRouter.insertText, Method.ofRegistration, none]
  rfl

end HttpSession

/-- A registration that fails, by an error or an abort, leaves routes, versions, tables, policies,
caches and the journal as they are, so that all that is done later, by whoever shares the caches,
comes out as if it had not been tried. A bad method is told as it was given, whatever the pattern
is, and nothing is compiled. -/
theorem failed_registration_changes_nothing [SizeLimit] {β : Type} [Describe α] [Describe β] :
    (∀ (s : RouterSession α) (router source : String) (data : α) (strict : Bool) (fault : Fault),
      let after := s.step (.insert router source data strict)
      after.1 = .failed fault →
      s.Alike after.2 ∧ ∀ as, EndsAlike RouterSession.Alike (s.run as) (after.2.run as)) ∧
    (∀ (s : HttpSession α) (a : HttpStep α) (fault : Fault), a.IsRegistration →
      let after := s.step a
      after.1 = .failed fault →
      s.Alike after.2 ∧ (∀ as, EndsAlike HttpSession.Alike (s.run as) (after.2.run as)) ∧
      ∀ (others : RouterSession β) as, EndsAlike RouterSession.Alike
        ({ others with workspace := s.workspace }.run as)
        ({ others with workspace := after.2.workspace }.run as)) ∧
    ∀ (s : HttpSession α) (method : Option String) (source : String) (data : α),
      isMethodText ((trimBlank (method.getD "GET").toList).map Char.toUpper) = false →
      s.step (.insertText method source data) =
        (.failed (.route (.invalidMethod (method.getD "GET"))), s) := by
  refine ⟨?_, ?_, ?_⟩
  · intro s router source data strict fault after failed
    have alike := RouterSession.alike_of_insert_failed failed
    exact ⟨alike, alike.run⟩
  · intro s a fault ha after failed
    have alike := HttpSession.alike_of_registration_failed ha failed
    refine ⟨alike, alike.run, ?_⟩
    intro others
    have shared : ({ others with workspace := s.workspace } : RouterSession β).Alike
        { others with workspace := after.2.workspace } := ⟨alike.workspace, rfl, rfl, rfl⟩
    exact shared.run
  · intro s method source data bad
    exact HttpSession.step_insertText_of_bad_method bad source data

open Unlimited

theorem failed_registration_changes_nothing_reserved :
    ∃ (s : RouterSession Nat) (fault : Fault),
      let after := s.step (.insert "main" "/a/:*" 2 true)
      s = (RouterSession.empty.run [.insert "main" "/:x" 1 true, .holdTable "main" "t"]).2 ∧
      after.1 = .failed fault ∧
      EndsAlike RouterSession.Alike (s.run [.holdTable "main" "t"])
        (after.2.run [.holdTable "main" "t"]) ∧
      (after.2.run [.holdTable "main" "t"]).1 = [.same (some true)] := by
  let s : RouterSession Nat :=
    (RouterSession.empty.run [.insert "main" "/:x" 1 true, .holdTable "main" "t"]).2
  have ⟨fails, _⟩ := failed_registration_changes_nothing (α := Nat) (β := Nat)
  have ⟨_, later⟩ := fails s "main" "/a/:*" 2 true _ rfl
  exact ⟨s, _, rfl, rfl, later _, rfl⟩

end PatternRouter
