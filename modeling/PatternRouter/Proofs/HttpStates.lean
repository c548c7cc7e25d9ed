import PatternRouter.Http.Session
import PatternRouter.Proofs.Registry

namespace PatternRouter

variable {α : Type}

namespace HttpRouter

theorem insertEndpoint_cases [SizeLimit] {r : HttpRouter α} (hr : r.routes.Valid) {w : Workspace}
    (hw : w.Valid) (source : String) (endpoint : Endpoint α) :
    (∃ e w', w'.Valid ∧ r.insertEndpoint source endpoint w = (.error e, w')) ∨
    (∃ r' w', w'.Valid ∧ r'.routes.Valid ∧ r.insertEndpoint source endpoint w = (.ok r', w')) := by
  rcases Router.insert_cases hr hw source endpoint with
    ⟨e, w', -, hw', hi⟩ | ⟨-, routes, w', -, hw', valid, -, hi⟩
  · exact .inl ⟨e, w', hw', by rw [insertEndpoint, hi]⟩
  · exact .inr ⟨{ r with routes }, w', hw', valid, by rw [insertEndpoint, hi]⟩

theorem valid_resolve [SizeLimit] {r : HttpRouter α} (hr : r.routes.Valid) {w : Workspace}
    (hw : w.Valid) (method : Method) (path : String) (headers : Headers) :
    (r.resolve method path headers w).2.1.routes.Valid ∧
      (r.resolve method path headers w).2.2.Valid := by
  have caches := r.routes.workspace_valid_table hw
  exact ⟨Router.valid_table hr w, Workspace.valid_report caches _⟩

theorem find_state (r : HttpRouter α) (method : Method) (path : String) (w : Workspace) :
    (r.find method path w).2 = (r.resolve method path [] w).2 := by
  unfold find
  generalize r.resolve method path [] w = x
  obtain ⟨d, r', w'⟩ := x
  cases d <;> rfl

end HttpRouter

namespace HttpSession

variable [SizeLimit]

structure Valid (s : HttpSession α) : Prop where
  caches : s.workspace.Valid
  routes : s.router.routes.Valid

/-- The sessions that come about, whatever else is done with their caches. -/
inductive Reachable [Describe α] : HttpSession α → Prop where
  | empty : Reachable empty
  | withCache {s : HttpSession α} (cache : String) : Reachable s →
      Reachable { s with router := HttpRouter.withCache cache }
  | step {s : HttpSession α} (a : HttpStep α) : Reachable s → Reachable (s.step a).2
  /-- A step of others that share the caches. -/
  | others {s : HttpSession α} {β : Type} [Describe β] (t : RouterSession β) (b : RouterStep β) :
      Reachable s → t.workspace = s.workspace →
      Reachable { s with workspace := (t.step b).2.workspace }

section

variable {s : HttpSession α}

theorem valid_registered (h : s.Valid) (fault : RouteError → Fault) {source : String}
    {endpoint : Endpoint α} :
    (s.registered fault (s.router.insertEndpoint source endpoint s.workspace)).2.Valid := by
  rcases HttpRouter.insertEndpoint_cases h.routes h.caches source endpoint with
    ⟨e, w, hw, hi⟩ | ⟨r, w, hw, hr, hi⟩
  · rw [hi]
    exact ⟨hw, h.routes⟩
  · rw [hi]
    exact ⟨hw, hr⟩

theorem valid_foldl_report {w : Workspace} (hw : w.Valid) (events : List Event) :
    (events.foldl Workspace.report w).Valid := by
  induction events generalizing w with
  | nil => exact hw
  | cons e events ih => exact ih (Workspace.valid_report hw e)

theorem valid_resolve (h : s.Valid) (method : Method) (path : String) (headers : Headers) :
    (s.resolve method path headers).2.Valid := by
  have ⟨routes, caches⟩ := HttpRouter.valid_resolve h.routes h.caches method path headers
  exact ⟨valid_foldl_report caches _, routes⟩

theorem valid_step [Describe α] (h : s.Valid) (a : HttpStep α) : (s.step a).2.Valid := by
  cases a with
  | create | createOnOwnCache => exact ⟨h.caches, Router.valid_withCache _⟩
  | createFromConfig text =>
    simp only [step]
    split
    · exact ⟨h.caches, Router.valid_withCache _⟩
    · exact h
  | insert method source data cors strict =>
    simp only [step]
    split
    · exact h
    · exact valid_registered h _
  | insertText method source data =>
    simp only [step, HttpRouter.insertText]
    split
    · exact h
    · exact valid_registered h _
  | find method path =>
    simp only [step]
    split
    · exact h
    · next m _ =>
      have ⟨routes, caches⟩ := HttpRouter.valid_resolve h.routes h.caches m path []
      rw [← HttpRouter.find_state] at routes caches
      exact ⟨caches, routes⟩
  | resolve method path headers =>
    simp only [step]
    split
    · exact h
    · exact valid_resolve h _ _ _
  | request method uri headers =>
    simp only [step]
    split
    · exact h
    · exact valid_resolve h _ _ _
  | setDefaultCors | setProvider | clearProvider => exact ⟨h.caches, h.routes⟩
  | defaultCors | size | list | cacheSizes | describe => exact h

theorem Reachable.valid [Describe α] (h : s.Reachable) : s.Valid := by
  induction h with
  | empty => exact ⟨Workspace.valid_empty, Router.valid_withCache _⟩
  | withCache cache _ ih => exact ⟨ih.caches, Router.valid_withCache _⟩
  | step a _ ih => exact valid_step ih a
  | others t b _ same ih =>
    have caches : t.workspace.Valid := same ▸ ih.caches
    exact ⟨RouterSession.workspace_valid_step caches b, ih.routes⟩

end

end HttpSession

end PatternRouter
