import Mathlib.Data.List.Induction
import PatternRouter.Proofs.CacheClearing
import PatternRouter.Proofs.DistinctKeys
import PatternRouter.Proofs.Histories

namespace PatternRouter

variable {α : Type}

/-- One use of a pattern cache. -/
inductive CacheUse where
  | request (cache source : String) (answer : Except RouteError (Shared Pattern))
      (reports : List Event)
  | clear (cache : String)

def CacheUse.reports : CacheUse → List Event
  | request _ _ _ reports => reports
  | clear _ => []

def Event.isOfPattern : Event → Bool
  | compiled _ _ => true
  | cacheHit _ => true
  | _ => false

def CacheUse.HandsOut (cache source : String) (x : Shared Pattern) (u : CacheUse) : Prop :=
  ∃ reports, u = request cache source (.ok x) reports

def Handed (us : List CacheUse) (cache source : String) (x : Shared Pattern) : Prop :=
  ∃ u ∈ us, u.HandsOut cache source x

/-- Whether a cache handed out an object for a source and was not cleared since. -/
def Kept (us : List CacheUse) (cache source : String) (x : Shared Pattern) : Prop :=
  Since (CacheUse.HandsOut cache source x) (· = .clear cache) us

/-- How a cache that does no more than share patterns is used next. Where it has handed out an
object for the source since it was cleared, it hands out this one; else the source is compiled,
and an object is handed out that there was not before, unless the source is refused. -/
inductive Follows [SizeLimit] (us : List CacheUse) : CacheUse → Prop where
  | hit {cache source : String} {x : Shared Pattern} : (∀ y, Kept us cache source y ↔ y = x) →
      Follows us (.request cache source (.ok x) [.cacheHit source])
  | made {cache source : String} {x : Shared Pattern} : (∀ y, ¬Kept us cache source y) →
      Pattern.compile source = .ok x.value →
      (∀ cache' source' y, Handed us cache' source' y → y.id ≠ x.id) →
      Follows us (.request cache source (.ok x) [x.value.event])
  | refused {cache source : String} {e : RouteError} : (∀ y, ¬Kept us cache source y) →
      Pattern.compile source = .error e → Follows us (.request cache source (.error e) [])
  | clear (cache : String) : Follows us (.clear cache)

section

variable {us : List CacheUse} {u : CacheUse} {cache source : String} {x : Shared Pattern}

theorem Kept.handed (h : Kept us cache source x) : Handed us cache source x := Since.exists_mem h

theorem Handed.mono (h : Handed us cache source x) {us' : List CacheUse} (sub : us ⊆ us') :
    Handed us' cache source x := by
  obtain ⟨u, mem, hands_out⟩ := h
  exact ⟨u, sub mem, hands_out⟩

theorem handed_concat_iff :
    Handed (us ++ [u]) cache source x ↔ Handed us cache source x ∨ u.HandsOut cache source x :=
  exists_mem_concat_iff

/-- An object is kept if the last use handed it out, or if it was kept before and is not cleared. -/
theorem kept_concat_iff :
    Kept (us ++ [u]) cache source x ↔
      u.HandsOut cache source x ∨ Kept us cache source x ∧ u ≠ .clear cache :=
  since_concat_iff

theorem map_value_of_mem [SizeLimit] (h : EachFollows Follows us)
    {answer : Except RouteError (Shared Pattern)} {reports : List Event}
    (mem : .request cache source answer reports ∈ us) :
    answer.map Shared.value = Pattern.compile source := by
  induction us using List.reverseRecOn generalizing cache source answer reports with
  | nil => cases mem
  | append_singleton us u ih =>
    rcases List.mem_append.1 mem with mem | mem
    · exact ih h.of_append mem
    · obtain rfl := List.mem_singleton.1 mem
      cases h.last with
      | @hit _ _ x kept =>
        obtain ⟨_, before, reports, rfl⟩ := ((kept x).2 rfl).handed
        exact ih h.of_append before
      | made _ compiled _ => exact compiled.symm
      | refused _ refused => exact refused.symm

/-- What is handed out next was handed out before for the same source, or it is a new object. -/
theorem Follows.handed_or_new [SizeLimit] {reports : List Event}
    (h : Follows us (.request cache source (.ok x) reports)) :
    Handed us cache source x ∨ ∀ cache' source' y, Handed us cache' source' y → y.id ≠ x.id := by
  cases h with
  | hit kept => exact .inl ((kept x).2 rfl).handed
  | made _ _ fresh => exact .inr fresh

/-- No two sources share an object, and no two caches do. -/
theorem eq_of_id [SizeLimit] (h : EachFollows Follows us) {cache' source' : String}
    {y : Shared Pattern} (hx : Handed us cache source x) (hy : Handed us cache' source' y)
    (same : y.id = x.id) : cache' = cache ∧ source' = source ∧ y = x := by
  have keys : (cache', source') = (cache, source) ∧ y = x := by
    apply h.eq_of_id (j := (cache, source)) (k := (cache', source'))
      (fun k : String × String => CacheUse.HandsOut k.1 k.2) ?_ ?_ hx hy same
    · intro _ j k x y hands_out hands_out'
      obtain ⟨reports, rfl⟩ := hands_out
      obtain ⟨reports', again⟩ := hands_out'
      obtain ⟨cache, source, answer, -⟩ := CacheUse.request.inj again
      exact ⟨(Prod.ext cache source).symm, (Except.ok.inj answer).symm⟩
    · intro us _ j x follows hands_out
      obtain ⟨reports, rfl⟩ := hands_out
      exact follows.handed_or_new.imp_right fun new k => new k.1 k.2
  obtain ⟨key, rfl⟩ := keys
  obtain ⟨rfl, rfl⟩ := Prod.mk.inj key
  exact ⟨rfl, rfl, rfl⟩

end

/-- Whether a history is that of the caches of a workspace. -/
structure Workspace.Recorded [SizeLimit] (us : List CacheUse) (w : Workspace) : Prop where
  valid : w.Valid
  transparent : EachFollows Follows us
  kept : ∀ cache source x, (w.cache cache).get? source = some x ↔ Kept us cache source x
  once : ∀ cache, ((w.cache cache).entries.map Prod.fst).Nodup
  old : ∀ cache source x, Handed us cache source x → x.id < w.journal.size
  reports : w.journal.toList.filter Event.isOfPattern = us.flatMap CacheUse.reports

namespace Workspace

variable [SizeLimit]

/-- A request as a use of its cache. -/
def use (w : Workspace) (cache source : String) : CacheUse :=
  .request cache source (w.request cache source).1
    ((w.request cache source).2.journal.toList.drop w.journal.size)

def uses (w : Workspace) (cache : String) : List String → List CacheUse
  | [] => []
  | source :: sources =>
    w.use cache source ::
      match w.request cache source with
      | (.error _, _) => []
      | (.ok _, w) => w.uses cache sources

namespace Recorded

variable {us : List CacheUse} {w : Workspace}

theorem empty : Recorded [] Workspace.empty := by
  refine ⟨Workspace.valid_empty, .nil, ?_, fun _ => List.nodup_nil, ?_, rfl⟩
  · intro cache source x
    exact iff_of_false nofun not_since_nil
  · intro cache source x handed
    obtain ⟨u, none, -⟩ := handed
    cases none

theorem congr (h : Recorded us w) {w' : Workspace} (alike : w.Alike w') : Recorded us w' := by
  refine ⟨?_, h.transparent, ?_, ?_, ?_, ?_⟩
  · simpa only [Workspace.Valid, alike.cache] using h.valid
  · simpa only [alike.cache] using h.kept
  · simpa only [alike.cache] using h.once
  · simpa only [alike.journal] using h.old
  · simpa only [alike.journal] using h.reports

/-- A report that is not one of a pattern does not bear on the caches. -/
theorem report (h : Recorded us w) {e : Event} (other : e.isOfPattern = false) :
    Recorded us (w.report e) := by
  refine ⟨h.valid, h.transparent, h.kept, h.once, ?_, ?_⟩
  · intro cache source x handed
    have before := h.old cache source x handed
    simp only [Workspace.report, Array.size_push]
    omega
  · simp only [Workspace.report, Array.toList_push, List.filter_append, h.reports]
    simp [other]

/-- What the answer to a request has to bring about, for the history to go on with it. -/
theorem answered (h : Recorded us w) {cache source : String}
    {answer : Except RouteError (Shared Pattern)} {reports : List Event} {w' : Workspace}
    (follows : Follows us (.request cache source answer reports)) (valid : w'.Valid)
    (kept : ∀ c k x, (w'.cache c).get? k = some x ↔
      (c = cache ∧ k = source ∧ answer = .ok x) ∨ (w.cache c).get? k = some x)
    (once : ∀ c, ((w'.cache c).entries.map Prod.fst).Nodup)
    (old : ∀ x, answer = .ok x → x.id < w.journal.size + reports.length)
    (journal : w'.journal.toList = w.journal.toList ++ reports)
    (ofPattern : reports.filter Event.isOfPattern = reports) :
    Recorded (us ++ [.request cache source answer reports]) w' := by
  have last : ∀ {c k x}, (CacheUse.request cache source answer reports).HandsOut c k x ↔
      c = cache ∧ k = source ∧ answer = .ok x := by
    intro c k x
    constructor
    · rintro ⟨reports', same⟩
      obtain ⟨rfl, rfl, rfl, -⟩ := CacheUse.request.inj same
      exact ⟨rfl, rfl, rfl⟩
    · rintro ⟨rfl, rfl, rfl⟩
      exact ⟨reports, rfl⟩
  have grows : w'.journal.size = w.journal.size + reports.length := by
    rw [← Array.length_toList, journal, List.length_append, Array.length_toList]
  refine ⟨valid, h.transparent.concat follows, ?_, once, ?_, ?_⟩
  · intro c k x
    have uncleared : CacheUse.request cache source answer reports ≠ .clear c := nofun
    rw [kept, kept_concat_iff, last, h.kept, and_iff_left uncleared]
  · intro c k x handed
    rw [grows]
    rcases handed_concat_iff.1 handed with before | hands_out
    · exact Nat.lt_add_right _ (h.old c k x before)
    · exact old x (last.1 hands_out).2.2
  · rw [journal, List.filter_append, h.reports, ofPattern, List.flatMap_append,
      List.flatMap_singleton, CacheUse.reports]

theorem not_kept (h : Recorded us w) {cache source : String}
    (free : (w.cache cache).get? source = none) (x : Shared Pattern) :
    ¬Kept us cache source x := by
  rw [← h.kept, free]
  exact nofun

theorem use (h : Recorded us w) (cache source : String) :
    Recorded (us ++ [w.use cache source]) (w.request cache source).2 := by
  have valid := Workspace.valid_request h.valid cache source
  have came := w.requested cache source
  unfold Workspace.use
  generalize (w.request cache source).1 = answer at came ⊢
  generalize (w.request cache source).2 = w' at valid came ⊢
  have drop : ∀ {reports}, w'.journal.toList = w.journal.toList ++ reports →
      w'.journal.toList.drop w.journal.size = reports := by
    intro reports journal
    rw [journal, ← Array.length_toList, List.drop_left]
  -- The three ways in which a request comes out are the three ways in which the history goes on.
  cases came with
  | @hit x _ held journal same =>
    have journal := (congrArg Array.toList journal).trans Array.toList_push
    have only : ∀ y, Kept us cache source y ↔ y = x := by
      intro y
      rw [← h.kept, held, Option.some_inj, eq_comm]
    rw [drop journal]
    refine h.answered (.hit only) valid ?_ ?_ ?_ journal rfl
    · intro c k y
      rw [same, or_iff_right_of_imp]
      rintro ⟨rfl, rfl, same⟩
      rw [held, Except.ok.inj same]
    · simpa only [same] using h.once
    · rintro _ ⟨⟩
      exact Nat.lt_add_right _ (h.old _ _ _ ((only x).2 rfl).handed)
  | @made p _ free compiled journal same =>
    have journal := (congrArg Array.toList journal).trans Array.toList_push
    have fresh : ∀ c k y, Handed us c k y → y.id ≠ w.journal.size :=
      fun c k y handed => Nat.ne_of_lt (h.old c k y handed)
    rw [drop journal]
    refine h.answered (.made (h.not_kept free) compiled fresh) valid ?_ ?_ ?_ journal rfl
    · intro c k y
      rw [same]
      split
      · next here =>
        rw [here, Except.ok.injEq, and_iff_right rfl]
        exact lookup_concat_eq_some_iff free
      · next other => rw [or_iff_right fun here => other here.1]
    · intro c
      rw [same]
      split
      · exact nodup_keys_concat (h.once cache) free _
      · exact h.once c
    · rintro _ ⟨⟩
      exact Nat.lt_add_one _
  | @refused e _ free refused journal same =>
    have journal : w'.journal.toList = w.journal.toList ++ [] := by rw [journal, List.append_nil]
    rw [drop journal]
    refine h.answered (.refused (h.not_kept free) refused) valid ?_ ?_ nofun journal rfl
    · intro c k y
      rw [same, or_iff_right nofun]
    · simpa only [same] using h.once

theorem clear (h : Recorded us w) (cache : String) :
    Recorded (us ++ [.clear cache]) (w.clearCache cache) := by
  have valid := Workspace.valid_clearCache h.valid cache
  have hands_out : ∀ c k x, ¬(CacheUse.clear cache).HandsOut c k x := by
    rintro c k x ⟨_, other⟩
    cases other
  refine ⟨valid, h.transparent.concat (.clear cache), ?_, ?_, ?_, ?_⟩
  · intro c k x
    rw [kept_concat_iff, or_iff_right (hands_out c k x), Workspace.clearCache,
      Workspace.cache_setCache]
    split
    · next here => simp [here, Cache.get?, Cache.empty]
    · next other =>
      rw [h.kept]
      simp [Ne.symm other]
  · intro c
    rw [Workspace.clearCache, Workspace.cache_setCache]
    split
    · exact List.nodup_nil
    · exact h.once c
  · intro c k x handed
    rcases handed_concat_iff.1 handed with before | last
    · exact h.old c k x before
    · exact absurd last (hands_out c k x)
  · rw [List.flatMap_append, List.flatMap_singleton, CacheUse.reports, List.append_nil]
    exact h.reports

theorem uses (h : Recorded us w) (cache : String) (sources : List String) :
    Recorded (us ++ w.uses cache sources) (w.requestAll cache sources).2 := by
  induction sources generalizing us w with
  | nil =>
    rw [Workspace.uses, List.append_nil]
    exact h.congr ⟨w.cache_setCache_self cache, rfl⟩
  | cons source sources ih =>
    have first := h.use cache source
    rw [Workspace.uses]
    generalize came : w.request cache source = x at first
    obtain ⟨e | p, w'⟩ := x
    · rw [Workspace.requestAll_of_error came]
      exact first
    · have rest := ih first
      rw [List.append_assoc] at rest
      rw [Workspace.requestAll_of_ok came]
      exact rest

end Recorded

end Workspace

/-- Whether a history is that of the caches of a session, and the patterns there are in the session
were handed out by them. -/
structure RouterSession.Recorded [SizeLimit] (us : List CacheUse) (s : RouterSession α) : Prop where
  workspace : s.workspace.Recorded us
  routes : ∀ name, ∀ t ∈ (s.router name).routes,
    Handed us (s.router name).cache t.pattern.value.source t.pattern
  heldPatterns : ∀ e ∈ s.heldPatterns, ∃ cache, Handed us cache e.2.value.source e.2

namespace RouterSession

variable [SizeLimit]

def uses (s : RouterSession α) : RouterStep α → List CacheUse
  | .insert router source _ _ => [s.workspace.use (s.router router).cache source]
  | .request cache source _ => [s.workspace.use cache source]
  | .compileSorted cache sources => s.workspace.uses cache sources
  | .clearCache cache => [.clear cache]
  | _ => []

def usesOf [Describe α] (s : RouterSession α) : List (RouterStep α) → List CacheUse
  | [] => []
  | a :: as => s.uses a ++ (s.step a).2.usesOf as

namespace Recorded

variable {us : List CacheUse} {s : RouterSession α}

theorem empty : Recorded [] (RouterSession.empty : RouterSession α) :=
  ⟨.empty, fun _ => List.forall_mem_nil _, List.forall_mem_nil _⟩

theorem of_routers (h : s.Recorded us) {us' : List CacheUse} (sub : us ⊆ us') {t : RouterSession α}
    (ht : t.workspace.Recorded us') (routers : t.routers = s.routers)
    (patterns : t.heldPatterns = s.heldPatterns) : t.Recorded us' := by
  refine ⟨ht, ?_, ?_⟩
  · intro name r hr
    rw [router, routers] at hr ⊢
    exact (h.routes name r hr).mono sub
  · intro e he
    rw [patterns] at he
    obtain ⟨cache, handed⟩ := h.heldPatterns e he
    exact ⟨cache, handed.mono sub⟩

theorem after (h : s.Recorded us) (name : String) {us' : List CacheUse} (sub : us ⊆ us')
    {r : Router α} {w : Workspace} (hw : w.Recorded us')
    (hr : ∀ t ∈ r.routes, Handed us' r.cache t.pattern.value.source t.pattern) :
    (s.after name r w).Recorded us' := by
  refine ⟨hw, ?_, ?_⟩
  · intro other
    rw [router_after]
    split
    · exact hr
    · intro t ht
      exact (h.routes other t ht).mono sub
  · intro e he
    obtain ⟨cache, handed⟩ := h.heldPatterns e he
    exact ⟨cache, handed.mono sub⟩

theorem refresh (h : s.Recorded us) (name : String) : (s.refresh name).Recorded us := by
  have routes := h.routes name
  have table := (s.router name).table_cases s.workspace
  rw [RouterSession.refresh]
  generalize (s.router name).table s.workspace = x at table
  rcases table with kept | rebuilt
  · obtain ⟨t, r, w⟩ := x
    obtain ⟨rfl, rfl⟩ := Prod.mk.inj kept
    exact h.after name (List.Subset.refl us) h.workspace routes
  · rw [rebuilt]
    exact h.after name (List.Subset.refl us) (h.workspace.report rfl) routes

/-- The router of the step holds what its cache handed out. -/
theorem insert [Describe α] (h : s.Recorded us) (router source : String) (data : α)
    (strict : Bool) :
    (s.step (.insert router source data strict)).2.Recorded
      (us ++ [s.workspace.use (s.router router).cache source]) := by
  have use := h.workspace.use (s.router router).cache source
  have value := Workspace.map_value_request h.workspace.valid (s.router router).cache source
  rw [Workspace.use] at use ⊢
  generalize came : s.workspace.request (s.router router).cache source = x at use value ⊢
  obtain ⟨e | p, w⟩ := x
  · rw [insert_of_error came]
    exact h.of_routers (List.subset_append_left us _) use rfl rfl
  · rw [insert_of_ok came]
    apply h.after router (List.subset_append_left us _) use
    intro t ht
    rcases List.mem_append.1 ht with before | last
    · exact (h.routes router t before).mono (List.subset_append_left us _)
    · obtain rfl := List.mem_singleton.1 last
      rw [Pattern.source_of_compile value.symm]
      exact handed_concat_iff.2 (.inr ⟨_, rfl⟩)

theorem request [Describe α] (h : s.Recorded us) (cache source label : String) :
    (s.step (.request cache source label)).2.Recorded (us ++ [s.workspace.use cache source]) := by
  have use := h.workspace.use cache source
  have value := Workspace.map_value_request h.workspace.valid cache source
  rw [Workspace.use] at use ⊢
  simp only [step]
  generalize s.workspace.request cache source = x at use value ⊢
  obtain ⟨e | p, w⟩ := x
  · exact h.of_routers (List.subset_append_left us _) use rfl rfl
  · have before : ({ s with workspace := w } : RouterSession α).Recorded _ :=
      h.of_routers (List.subset_append_left us _) use rfl rfl
    refine ⟨use, before.routes, ?_⟩
    intro e he
    rcases List.mem_cons.1 he with rfl | he
    · refine ⟨cache, ?_⟩
      rw [Pattern.source_of_compile value.symm]
      exact handed_concat_iff.2 (.inr ⟨_, rfl⟩)
    · exact before.heldPatterns e he

theorem step [Describe α] (h : s.Recorded us) (a : RouterStep α) :
    (s.step a).2.Recorded (us ++ s.uses a) := by
  have unused : ∀ {t : RouterSession α}, t.Recorded us → t.Recorded (us ++ []) := by
    intro t ht
    rwa [List.append_nil]
  cases a with
  | insert router source data strict => exact h.insert router source data strict
  | request cache source label => exact h.request cache source label
  | compileSorted cache sources =>
    apply h.of_routers (List.subset_append_left us _)
    · rw [workspace_compileSorted]
      exact h.workspace.uses cache sources
    all_goals simp only [RouterSession.step]; split <;> rfl
  | clearCache cache =>
    exact h.of_routers (List.subset_append_left us _) (h.workspace.clear cache) rfl rfl
  | create router | clear router =>
    refine unused (h.after router (List.Subset.refl us) h.workspace ?_)
    exact List.forall_mem_nil _
  | find router | findAll router | table router => exact unused (h.refresh router)
  | holdTable router label =>
    have looked := h.refresh router
    exact unused ⟨looked.workspace, looked.routes, looked.heldPatterns⟩
  | sharing router other => exact unused ((h.refresh router).refresh other)
  | heldTable | heldMatch =>
    simp only [RouterSession.step]
    split <;> exact unused h
  | size | get | list | cacheSize | cacheContains | describe => exact unused h

theorem run [Describe α] (h : s.Recorded us) (as : List (RouterStep α)) :
    (s.run as).2.Recorded (us ++ s.usesOf as) := by
  -- By induction on the steps; the history grows by the uses of each.
  induction as generalizing us s with
  | nil =>
    rw [usesOf, List.append_nil]
    exact h
  | cons a as ih =>
    have rest := ih (h.step a)
    rw [List.append_assoc] at rest
    exact rest

end Recorded

/-- Whether the caches of a session do no more than share compiled patterns, as the history of their
uses shows. -/
structure SharesOnly [Describe α] (us : List CacheUse) (s : RouterSession α) : Prop where
  transparent : EachFollows Follows us
  /-- No pattern is reported but by the uses, in their order. -/
  reports : s.workspace.journal.toList.filter Event.isOfPattern = us.flatMap CacheUse.reports
  /-- The routes of a router and the patterns that are held are objects that a cache handed out. -/
  routes : ∀ name, ∀ t ∈ (s.router name).routes,
    Handed us (s.router name).cache t.pattern.value.source t.pattern
  heldPatterns : ∀ e ∈ s.heldPatterns, ∃ cache, Handed us cache e.2.value.source e.2
  compiled : ∀ cache source x, Handed us cache source x →
    Pattern.compile source = .ok x.value ∧ x.value.source = source
  distinct : ∀ cache source x cache' source' y, Handed us cache source x →
    Handed us cache' source' y → y.id = x.id → cache' = cache ∧ source' = source ∧ y = x
  /-- A cache holds what it handed out since it was cleared, each source once. -/
  entries : ∀ cache source x,
    (source, x) ∈ (s.workspace.cache cache).entries ↔ Kept us cache source x
  keys : ∀ cache, ((s.workspace.cache cache).entries.map Prod.fst).Nodup
  contains : ∀ cache source, ∃ b, (s.step (.cacheContains cache source)).1 = .flag b ∧
    (b = true ↔ ∃ x, Kept us cache source x)
  size : ∀ cache, ∃ sources : List String, (s.step (.cacheSize cache)).1 = .size sources.length ∧
    sources.Nodup ∧ ∀ source, source ∈ sources ↔ ∃ x, Kept us cache source x
  /-- Whatever a cache holds, it answers as the compilations of the sources do. -/
  requested : ∀ cache source,
    (s.workspace.request cache source).1.map Shared.value = Pattern.compile source
  requestedAll : ∀ cache sources,
    (s.workspace.requestAll cache sources).1.map (List.map Shared.value) =
      sources.mapM Pattern.compile
  /-- After any further steps, lookups are answered as if the cache had not been cleared. -/
  clearing : ∀ (cache : String) (bs : List (RouterStep α)) (a : RouterStep α), a.IsLookup →
    (((s.step (.clearCache cache)).2.run bs).2.step a).1 = ((s.run bs).2.step a).1

namespace Recorded

variable {us : List CacheUse} {s : RouterSession α}

theorem get?_eq_some_iff_mem (h : s.Recorded us) {cache source : String} {x : Shared Pattern} :
    (s.workspace.cache cache).get? source = some x ↔
      (source, x) ∈ (s.workspace.cache cache).entries :=
  lookup_eq_some_iff_mem (h.workspace.once cache)

theorem contains [Describe α] (h : s.Recorded us) (cache source : String) :
    ∃ b, (s.step (.cacheContains cache source)).1 = .flag b ∧
      (b = true ↔ ∃ x, Kept us cache source x) := by
  refine ⟨_, rfl, ?_⟩
  simp only [Cache.contains, Option.isSome_iff_exists, h.workspace.kept]

theorem size [Describe α] (h : s.Recorded us) (cache : String) :
    ∃ sources : List String, (s.step (.cacheSize cache)).1 = .size sources.length ∧
      sources.Nodup ∧ ∀ source, source ∈ sources ↔ ∃ x, Kept us cache source x := by
  refine ⟨(s.workspace.cache cache).entries.map Prod.fst, ?_, h.workspace.once cache, ?_⟩
  · rw [List.length_map]
    rfl
  · intro source
    simp only [← h.workspace.kept, h.get?_eq_some_iff_mem, List.mem_map, Prod.exists,
      exists_eq_right, exists_and_right]

end Recorded

/-- After every run the caches have done no more than share compiled patterns. -/
theorem caches_transparent [Describe α] (as : List (RouterStep α)) :
    ((empty : RouterSession α).run as).2.SharesOnly ((empty : RouterSession α).usesOf as) := by
  have recorded : ((empty : RouterSession α).run as).2.Recorded (empty.usesOf as) :=
    Recorded.empty.run as
  generalize ((empty : RouterSession α).run as).2 = s at recorded
  generalize (empty : RouterSession α).usesOf as = us at recorded
  have transparent := recorded.workspace.transparent
  have compiled : ∀ cache source x, Handed us cache source x →
      Pattern.compile source = .ok x.value := by
    rintro cache source x ⟨_, mem, reports, rfl⟩
    exact (map_value_of_mem transparent mem).symm
  constructor
  case transparent => exact transparent
  case reports => exact recorded.workspace.reports
  case routes => exact recorded.routes
  case heldPatterns => exact recorded.heldPatterns
  case compiled =>
    intro cache source x handed
    have value := compiled cache source x handed
    exact ⟨value, Pattern.source_of_compile value⟩
  case distinct => exact fun _ _ _ _ _ _ hx hy => eq_of_id transparent hx hy
  case entries =>
    intro cache source x
    rw [← recorded.get?_eq_some_iff_mem, recorded.workspace.kept]
  case keys => exact recorded.workspace.once
  case contains => exact recorded.contains
  case size => exact recorded.size
  case requested => exact Workspace.map_value_request recorded.workspace.valid
  case requestedAll =>
    intro cache sources
    exact Cache.map_value_requestAll (recorded.workspace.valid cache) sources _
  case clearing =>
    intro cache bs a ha
    exact ((looksLike_clearCache recorded.workspace.valid cache).run bs).reply ha

end RouterSession

end PatternRouter
