import PatternRouter.Proofs.CacheValidity

namespace PatternRouter

namespace Cache

variable {c c' : Cache} {source : String} {log log' : Journal}

theorem requestAll_of_error [SizeLimit] {e : RouteError}
    (h : c.request source log = (.error e, c', log'))
    (sources : List String) : c.requestAll (source :: sources) log = (.error e, c', log') := by
  rw [requestAll, h]

theorem requestAll_of_ok [SizeLimit] {p : Shared Pattern}
    (h : c.request source log = (.ok p, c', log')) (sources : List String) :
    c.requestAll (source :: sources) log =
      ((c'.requestAll sources log').1.map (p :: ·), (c'.requestAll sources log').2) := by
  simp only [requestAll, h]
  generalize c'.requestAll sources log' = y
  obtain ⟨_ | _, _, _⟩ := y <;> rfl

end Cache

namespace Workspace

/-- What a request to a cache comes to: the pattern that the cache holds, a new one that it holds
from now on, or the error of a source that is refused. -/
inductive Requested [SizeLimit] (w : Workspace) (name source : String) :
    Except RouteError (Shared Pattern) → Workspace → Prop where
  | hit {x : Shared Pattern} {w' : Workspace} : (w.cache name).get? source = some x →
      w'.journal = w.journal.push (.cacheHit source) → (∀ other, w'.cache other = w.cache other) →
      Requested w name source (.ok x) w'
  | made {p : Pattern} {w' : Workspace} : (w.cache name).get? source = none →
      Pattern.compile source = .ok p → w'.journal = w.journal.push p.event →
      (∀ other, w'.cache other = if other = name then
        ⟨(w.cache name).entries ++ [(source, ⟨w.journal.size, p⟩)]⟩ else w.cache other) →
      Requested w name source (.ok ⟨w.journal.size, p⟩) w'
  | refused {e : RouteError} {w' : Workspace} : (w.cache name).get? source = none →
      Pattern.compile source = .error e → w'.journal = w.journal →
      (∀ other, w'.cache other = w.cache other) → Requested w name source (.error e) w'

theorem cache_setCache_self (w : Workspace) (name other : String) :
    (w.setCache name (w.cache name)).cache other = w.cache other := by
  rw [cache_setCache]
  split
  · next same => rw [same]
  · rfl

theorem requested [SizeLimit] (w : Workspace) (name source : String) :
    w.Requested name source (w.request name source).1 (w.request name source).2 := by
  have kept : ∀ journal other,
      ({ w with journal }.setCache name (w.cache name)).cache other = w.cache other :=
    fun journal other => cache_setCache_self { w with journal } name other
  cases held : (w.cache name).get? source with
  | some x =>
    simp only [request, Cache.request, held]
    exact .hit held rfl (kept _)
  | none =>
    cases compiled : Pattern.compile source with
    | ok p =>
      simp only [request, Cache.request, held, compiled]
      exact .made held compiled rfl fun other => cache_setCache { w with journal := _ } name other _
    | error e =>
      simp only [request, Cache.request, held, compiled]
      exact .refused held compiled rfl (kept _)

theorem setCache_setCache (w : Workspace) (name : String) (c c' : Cache) :
    (w.setCache name c).setCache name c' = w.setCache name c' := by
  simp [setCache]

section

variable {w w' : Workspace} {name source : String}

theorem requestAll_of_error [SizeLimit] {e : RouteError}
    (h : w.request name source = (.error e, w'))
    (sources : List String) : w.requestAll name (source :: sources) = (.error e, w') := by
  unfold request at h
  generalize came : (w.cache name).request source w.journal = x at h
  obtain ⟨r, c, journal⟩ := x
  obtain ⟨rfl, rfl⟩ := Prod.mk.inj h
  rw [requestAll, Cache.requestAll_of_error came]

theorem requestAll_of_ok [SizeLimit] {p : Shared Pattern} (h : w.request name source = (.ok p, w'))
    (sources : List String) :
    w.requestAll name (source :: sources) =
      ((w'.requestAll name sources).1.map (p :: ·), (w'.requestAll name sources).2) := by
  unfold request at h
  generalize came : (w.cache name).request source w.journal = x at h
  obtain ⟨r, c, journal⟩ := x
  obtain ⟨rfl, rfl⟩ := Prod.mk.inj h
  have here : ({ w with journal }.setCache name c).cache name = c := by
    rw [cache_setCache, if_pos rfl]
  rw [requestAll, Cache.requestAll_of_ok came, requestAll, here]
  exact congrArg (Prod.mk _) (setCache_setCache { w with journal := _ } name c _).symm

end

/-- Whether two workspaces hold the same caches and the same reports. -/
structure Alike (w w' : Workspace) : Prop where
  cache : ∀ name, w'.cache name = w.cache name
  journal : w'.journal = w.journal

theorem Alike.refl (w : Workspace) : w.Alike w := ⟨fun _ => rfl, rfl⟩

section

variable {w w' : Workspace}

theorem Alike.report (h : w.Alike w') (e : Event) : (w.report e).Alike (w'.report e) :=
  ⟨h.cache, congrArg (Array.push · e) h.journal⟩

theorem Alike.foldl_report (h : w.Alike w') (events : List Event) :
    (events.foldl Workspace.report w).Alike (events.foldl Workspace.report w') := by
  induction events generalizing w w' with
  | nil => exact h
  | cons e events ih => exact ih (h.report e)

theorem Alike.setCache (h : w.Alike w') (name : String) (c : Cache) (journal : Journal) :
    ({ w with journal }.setCache name c).Alike ({ w' with journal }.setCache name c) := by
  refine ⟨fun other => ?_, rfl⟩
  have same : ({ w' with journal } : Workspace).cache other = ({ w with journal }).cache other :=
    h.cache other
  rw [cache_setCache, cache_setCache, same]

theorem Alike.clearCache (h : w.Alike w') (name : String) :
    (w.clearCache name).Alike (w'.clearCache name) :=
  ⟨(h.setCache name Cache.empty w.journal).cache, h.journal⟩

theorem Alike.request [SizeLimit] (h : w.Alike w') (name source : String) :
    ∃ r u u', w.request name source = (r, u) ∧ w'.request name source = (r, u') ∧ u.Alike u' := by
  simp only [Workspace.request, h.cache, h.journal]
  exact ⟨_, _, _, rfl, rfl, h.setCache name _ _⟩

theorem Alike.compileSorted [SizeLimit] (h : w.Alike w') (name : String) (sources : List String) :
    ∃ r u u', w.compileSorted name sources = (r, u) ∧ w'.compileSorted name sources = (r, u') ∧
      u.Alike u' := by
  simp only [Workspace.compileSorted, compileTable, requestAll, h.cache, h.journal]
  exact ⟨_, _, _, rfl, rfl, h.setCache name _ _⟩

/-- A request that is refused leaves no trace. -/
theorem alike_of_request_eq_error [SizeLimit] {name source : String} {e : RouteError}
    (h : w.request name source = (.error e, w')) : w.Alike w' := by
  have came := w.requested name source
  rw [h] at came
  cases came with
  | refused _ _ journal cache => exact ⟨cache, journal⟩

end

end Workspace

end PatternRouter
