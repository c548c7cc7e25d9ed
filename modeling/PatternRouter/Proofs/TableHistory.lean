import PatternRouter.Proofs.CacheClearing
import PatternRouter.Proofs.Histories

namespace PatternRouter

variable {α : Type}

inductive TableUse where
  | create (router : String)
  /-- A route was registered, or all were removed. -/
  | change (router : String)
  /-- A lookup, with the table that it used and what was reported on the way. -/
  | lookup (router : String) (table : Shared RouteTable) (reports : List Event)

def Event.isOfTable : Event → Bool
  | tableBuilt _ _ => true
  | _ => false

namespace TableUse

def router : TableUse → String
  | create router => router
  | change router => router
  | lookup router _ _ => router

def reports : TableUse → List Event
  | lookup _ _ reports => reports
  | _ => []

/-- Whether the table of a router is out of date after a use. -/
def Outdates (router : String) : TableUse → Prop
  | create other => other = router
  | change other => other = router
  | lookup _ _ _ => False

/-- The changes of a router since it was made, of which there were `n` before a use. -/
def countChanges (router : String) (n : Nat) : TableUse → Nat
  | create other => if other = router then 0 else n
  | change other => if other = router then n + 1 else n
  | lookup _ _ _ => n

def LooksUp (router : String) (t : Shared RouteTable) (u : TableUse) : Prop :=
  ∃ reports, u = lookup router t reports

end TableUse

/-- The number of changes of a router since it was made. -/
def changesOf (us : List TableUse) (router : String) : Nat :=
  us.foldl (TableUse.countChanges router) 0

def Used (us : List TableUse) (router : String) (t : Shared RouteTable) : Prop :=
  ∃ u ∈ us, u.LooksUp router t

/-- Whether a lookup used a table and the router was not changed since. -/
def InUse (us : List TableUse) (router : String) (t : Shared RouteTable) : Prop :=
  Since (TableUse.LooksUp router t) (TableUse.Outdates router) us

def Unchanged (us : List TableUse) (router : String) : Prop := ∀ u ∈ us, ¬u.Outdates router

namespace TableUse

/-- What is done next with tables that are kept as long as they are up to date. A lookup uses the
table in use, if there is one, and reports nothing; else it uses one that there was not before, of
the version of the router, and reports it. -/
inductive Follows (us : List TableUse) : TableUse → Prop where
  | create (router : String) : Follows us (create router)
  | change (router : String) : Follows us (change router)
  | again {router : String} {t : Shared RouteTable} : (∀ x, InUse us router x ↔ x = t) →
      Follows us (lookup router t [])
  | built {router : String} {t : Shared RouteTable} : (∀ x, ¬InUse us router x) →
      t.value.version = changesOf us router → (∀ other x, Used us other x → x.id ≠ t.id) →
      Follows us (lookup router t [.tableBuilt (changesOf us router) t.value.size])

section

variable {us before between after : List TableUse} {u : TableUse} {router router' : String}
  {t t' : Shared RouteTable} {reports reports' : List Event}

theorem Outdates.router_eq (h : u.Outdates router) : u.router = router := by
  cases u with
  | create other => exact h
  | change other => exact h
  | lookup => cases h

theorem LooksUp.router_eq (h : u.LooksUp router t) : u.router = router := by
  obtain ⟨reports, rfl⟩ := h
  rfl

theorem looksUp_iff : (lookup router t reports).LooksUp router t' ↔ t' = t := by
  constructor
  · intro looks
    obtain ⟨_, same⟩ := looks
    exact (lookup.inj same).2.1.symm
  · rintro rfl
    exact ⟨reports, rfl⟩

theorem changesOf_concat :
    changesOf (us ++ [u]) router = u.countChanges router (changesOf us router) := by
  rw [changesOf, List.foldl_concat, changesOf]

theorem countChanges_of_not_outdates (h : ¬u.Outdates router) (n : Nat) :
    u.countChanges router n = n := by
  cases u with
  | create other => exact if_neg h
  | change other => exact if_neg h
  | lookup => rfl

theorem used_concat_iff : Used (us ++ [u]) router t ↔ Used us router t ∨ u.LooksUp router t :=
  exists_mem_concat_iff

theorem inUse_concat_iff :
    InUse (us ++ [u]) router t ↔ u.LooksUp router t ∨ InUse us router t ∧ ¬u.Outdates router :=
  since_concat_iff

theorem not_inUse_concat_of_outdates (h : u.Outdates router) : ¬InUse (us ++ [u]) router t := by
  rw [inUse_concat_iff]
  intro inUse
  rcases inUse with ⟨_, rfl⟩ | ⟨-, current⟩
  · exact h
  · exact current h

theorem inUse_concat_of_ne (other : u.router ≠ router) :
    InUse (us ++ [u]) router t ↔ InUse us router t := by
  have not_looks : ¬u.LooksUp router t := fun h => other h.router_eq
  have not_outdates : ¬u.Outdates router := fun h => other h.router_eq
  simp only [inUse_concat_iff, not_looks, not_outdates, false_or, not_false_eq_true, and_true]

theorem used_of_inUse (h : InUse us router t) : Used us router t := Since.exists_mem h

theorem inUse_of_unchanged (h : Unchanged between router) :
    InUse (before ++ lookup router t reports :: between) router t :=
  ⟨before, _, between, rfl, ⟨reports, rfl⟩, h⟩

theorem Follows.used_or_new (h : Follows us (lookup router t reports)) :
    Used us router t ∨ ∀ other x, Used us other x → x.id ≠ t.id := by
  cases h with
  | again only => exact .inl (used_of_inUse ((only t).2 rfl))
  | built _ _ fresh => exact .inr fresh

theorem eq_of_id (h : EachFollows Follows us) (ht : Used us router t) (ht' : Used us router' t')
    (same : t'.id = t.id) : router' = router ∧ t' = t := by
  apply h.eq_of_id LooksUp ?_ ?_ ht ht' same
  · intro _ j k x y looks looks'
    obtain ⟨reports, rfl⟩ := looks
    obtain ⟨reports', again⟩ := looks'
    obtain ⟨rfl, rfl, -⟩ := lookup.inj again
    exact ⟨rfl, rfl⟩
  · intro us _ j x follows looks
    obtain ⟨reports, rfl⟩ := looks
    exact follows.used_or_new

/-- A table that is still in use was not put out of date since a lookup used it. -/
theorem unchanged_of_inUse
    (h : EachFollows Follows (before ++ lookup router t reports :: between))
    (inUse : InUse (before ++ lookup router t reports :: between) router t) :
    Unchanged between router := by
  induction between using List.reverseRecOn with
  | nil => exact List.forall_mem_nil _
  | append_singleton between u ih =>
    rw [← List.cons_append, ← List.append_assoc] at h inUse
    have looked : Used (before ++ lookup router t reports :: between) router t :=
      ⟨_, by simp, reports, rfl⟩
    have both : InUse (before ++ lookup router t reports :: between) router t ∧
        ¬u.Outdates router := by
      rcases inUse_concat_iff.1 inUse with ⟨reports', rfl⟩ | kept
      · refine ⟨?_, id⟩
        cases h.last with
        | again only => exact (only t).2 rfl
        | built _ _ fresh => exact absurd rfl (fresh _ _ looked)
      · exact kept
    rw [Unchanged, List.forall_mem_append, List.forall_mem_singleton]
    exact ⟨ih h.of_append both.1, both.2⟩

theorem version_of_inUse (h : EachFollows Follows us) (inUse : InUse us router t) :
    t.value.version = changesOf us router := by
  induction us using List.reverseRecOn with
  | nil => exact absurd inUse not_since_nil
  | append_singleton us u ih =>
    rw [changesOf_concat]
    rcases inUse_concat_iff.1 inUse with ⟨reports, rfl⟩ | ⟨before, current⟩
    · rw [countChanges_of_not_outdates id]
      cases h.last with
      | again only => exact ih h.of_append ((only t).2 rfl)
      | built _ version _ => exact version
    · rw [countChanges_of_not_outdates current]
      exact ih h.of_append before

/-- Two lookups use one table just if they are of one router that was not changed in between. -/
theorem id_eq_iff (h : EachFollows Follows us)
    (split : us = before ++ lookup router t reports ::
      (between ++ lookup router' t' reports' :: after)) :
    t'.id = t.id ↔ router' = router ∧ Unchanged between router := by
  rw [← List.cons_append, ← List.append_assoc] at split
  have follows := h _ _ _ split
  rw [split] at h
  have known := h.of_append
  have looked : Used (before ++ lookup router t reports :: between) router t :=
    ⟨_, by simp, reports, rfl⟩
  constructor
  · intro same
    cases follows with
    | again only =>
      have inUse := (only t').2 rfl
      obtain ⟨rfl, rfl⟩ := eq_of_id known looked (used_of_inUse inUse) same
      exact ⟨rfl, unchanged_of_inUse known inUse⟩
    | built _ _ fresh => exact absurd same.symm (fresh _ _ looked)
  · intro unchanged
    obtain ⟨rfl, unchanged⟩ := unchanged
    have inUse : InUse (before ++ lookup router' t reports :: between) router' t :=
      inUse_of_unchanged unchanged
    cases follows with
    | again only => rw [(only t).1 inUse]
    | built free _ _ => exact absurd inUse (free t)

theorem version_of_lookup (h : EachFollows Follows us)
    (split : us = before ++ lookup router t reports :: after) :
    t.value.version = changesOf before router := by
  rw [← List.singleton_append, ← List.append_assoc] at split
  rw [split] at h
  have inUse : InUse (before ++ [lookup router t reports]) router t :=
    inUse_of_unchanged (List.forall_mem_nil _)
  have version := version_of_inUse h.of_append inUse
  rwa [changesOf_concat] at version

theorem reports_of_lookup (h : EachFollows Follows us)
    (split : us = before ++ lookup router t reports :: after) :
    reports = [] ∧ InUse before router t ∨
      reports = [.tableBuilt (changesOf before router) t.value.size] ∧
        ∀ x, ¬InUse before router x := by
  cases h _ _ _ split with
  | again only => exact .inl ⟨rfl, (only t).2 rfl⟩
  | built free _ _ => exact .inr ⟨rfl, free⟩

end

end TableUse

namespace Workspace

def tableReports (w : Workspace) : List Event := w.journal.toList.filter Event.isOfTable

/-- Whether a workspace came out of another one without a report of a new table. -/
structure Quiet (w w' : Workspace) : Prop where
  tables : w'.tableReports = w.tableReports
  size : w.journal.size ≤ w'.journal.size

theorem Quiet.trans {w w' w'' : Workspace} (h : w.Quiet w') (h' : w'.Quiet w'') : w.Quiet w'' :=
  ⟨h'.tables.trans h.tables, Nat.le_trans h.size h'.size⟩

theorem tableReports_push {w w' : Workspace} {e : Event} (h : w'.journal = w.journal.push e) :
    w'.tableReports = w.tableReports ++ [e].filter Event.isOfTable := by
  rw [tableReports, h, Array.toList_push, List.filter_append, tableReports]

theorem quiet_of_push {w w' : Workspace} {e : Event} (h : w'.journal = w.journal.push e)
    (he : e.isOfTable = false) : w.Quiet w' := by
  have size : w'.journal.size = w.journal.size + 1 := by rw [h, Array.size_push]
  refine ⟨?_, by omega⟩
  rw [tableReports_push h, List.filter_cons_of_neg (by simp [he]), List.filter_nil, List.append_nil]

theorem quiet_request [SizeLimit] (w : Workspace) (name source : String) :
    w.Quiet (w.request name source).2 := by
  have came := w.requested name source
  generalize (w.request name source).1 = answer at came
  generalize (w.request name source).2 = w' at came
  cases came with
  | hit _ journal _ => exact quiet_of_push journal rfl
  | made _ _ journal _ => exact quiet_of_push journal rfl
  | refused _ _ journal _ =>
    have reports : w'.tableReports = w.tableReports := by rw [tableReports, journal, tableReports]
    exact ⟨reports, Nat.le_of_eq (congrArg Array.size journal.symm)⟩

theorem quiet_requestAll [SizeLimit] (w : Workspace) (name : String) (sources : List String) :
    w.Quiet (w.requestAll name sources).2 := by
  induction sources generalizing w with
  | nil => exact ⟨rfl, Nat.le_refl _⟩
  | cons source sources ih =>
    have first := w.quiet_request name source
    generalize came : w.request name source = x at first
    obtain ⟨e | p, w'⟩ := x
    · rw [requestAll_of_error came]
      exact first
    · rw [requestAll_of_ok came]
      exact first.trans (ih w')

end Workspace

theorem Router.size_build (r : Router α) : r.build.size = r.size := by
  have perm := RouteTable.ofPatterns_perm r.version (r.routes.map (·.pattern.value))
  have length := perm.length_eq
  rw [List.length_map, List.length_zipIdx, List.length_map] at length
  exact length

namespace RouterSession

def tableOf (s : RouterSession α) (name : String) : Shared RouteTable :=
  ((s.router name).table s.workspace).1

def look (s : RouterSession α) (name : String) : TableUse :=
  .lookup name (s.tableOf name)
    ((s.refresh name).workspace.journal.toList.drop s.workspace.journal.size)

/-- What a step does with the tables. -/
def tableUses [SizeLimit] [Describe α] (s : RouterSession α) : RouterStep α → List TableUse
  | .create router _ => [.create router]
  | .insert router source data strict =>
    match (s.step (.insert router source data strict)).1 with
    | .inserted _ => [.change router]
    | _ => []
  | .clear router => [.change router]
  | .find router _ => [s.look router]
  | .findAll router _ => [s.look router]
  | .table router => [s.look router]
  | .holdTable router _ => [s.look router]
  | .sharing router other => [s.look router, (s.refresh router).look other]
  | _ => []

def tableUsesOf [SizeLimit] [Describe α] (s : RouterSession α) : List (RouterStep α) → List TableUse
  | [] => []
  | a :: as => s.tableUses a ++ (s.step a).2.tableUsesOf as

/-- Whether a history is that of the tables of a session. -/
structure Remembers (us : List TableUse) (s : RouterSession α) : Prop where
  follows : EachFollows TableUse.Follows us
  version : ∀ name, (s.router name).version = changesOf us name
  /-- The table that a router keeps is of its version just if it is in use. -/
  inUse_iff : ∀ name t, InUse us name t ↔
    (s.router name).memo = some t ∧ t.value.version = (s.router name).version
  old : ∀ name t, Used us name t → t.id < s.workspace.journal.size
  reports : s.workspace.tableReports = us.flatMap TableUse.reports

namespace Remembers

variable {us : List TableUse} {s : RouterSession α}

theorem empty : Remembers [] (RouterSession.empty : RouterSession α) := by
  refine ⟨.nil, fun _ => rfl, fun name t => ?_, fun name t used => ?_, rfl⟩
  · exact iff_of_false not_since_nil (fun kept => nomatch kept.1)
  · obtain ⟨_, none, -⟩ := used
    cases none

theorem of_routers (h : s.Remembers us) {t : RouterSession α}
    (quiet : s.workspace.Quiet t.workspace) (routers : t.routers = s.routers) :
    t.Remembers us := by
  have router : ∀ name, t.router name = s.router name := by
    intro name
    rw [RouterSession.router, routers, RouterSession.router]
  refine ⟨h.follows, ?_, ?_, ?_, quiet.tables.trans h.reports⟩
  · simpa only [router] using h.version
  · simpa only [router] using h.inUse_iff
  · intro name x used
    exact Nat.lt_of_lt_of_le (h.old name x used) quiet.size

/-- What the next use has to bring about at its router, for the history to go on with it. -/
theorem use (h : s.Remembers us) {u : TableUse} {r : Router α} {w : Workspace}
    (follows : TableUse.Follows us u) (version : r.version = changesOf (us ++ [u]) u.router)
    (inUse_iff : ∀ t, InUse (us ++ [u]) u.router t ↔
      r.memo = some t ∧ t.value.version = r.version)
    (size : s.workspace.journal.size ≤ w.journal.size)
    (old : ∀ t, u.LooksUp u.router t → t.id < w.journal.size)
    (reports : w.tableReports = s.workspace.tableReports ++ u.reports) :
    (s.after u.router r w).Remembers (us ++ [u]) := by
  refine ⟨h.follows.concat follows, fun name => ?_, fun name t => ?_, fun name t used => ?_, ?_⟩
  · rw [router_after]
    split
    · next here => rw [here, version]
    · next other =>
      have not_outdates : ¬u.Outdates name := fun outdates => other outdates.router_eq.symm
      rw [h.version, TableUse.changesOf_concat, TableUse.countChanges_of_not_outdates not_outdates]
  · rw [router_after]
    split
    · next here => rw [here, inUse_iff]
    · next other => rw [TableUse.inUse_concat_of_ne (Ne.symm other), h.inUse_iff]
  · rcases TableUse.used_concat_iff.1 used with before | looks
    · exact Nat.lt_of_lt_of_le (h.old name t before) size
    · obtain rfl := looks.router_eq
      exact old t looks
  · rw [List.flatMap_append, List.flatMap_singleton, ← h.reports]
    exact reports

theorem create (h : s.Remembers us) (name cache : String) :
    (s.after name (Router.withCache cache) s.workspace).Remembers (us ++ [.create name]) := by
  have version : 0 = changesOf (us ++ [.create name]) name := by
    rw [TableUse.changesOf_concat, TableUse.countChanges, if_pos rfl]
  refine h.use (u := .create name) (.create name) version ?_ (Nat.le_refl _) nofun ?_
  · intro t
    exact iff_of_false (TableUse.not_inUse_concat_of_outdates rfl) fun kept => nomatch kept.1
  · exact (List.append_nil _).symm

theorem change (h : s.Remembers us) {name : String} {r : Router α} {w : Workspace}
    (version : r.version = (s.router name).version + 1)
    (outdated : ∀ t, r.memo = some t → t.value.version ≠ r.version)
    (quiet : s.workspace.Quiet w) : (s.after name r w).Remembers (us ++ [.change name]) := by
  have count : r.version = changesOf (us ++ [.change name]) name := by
    rw [TableUse.changesOf_concat, TableUse.countChanges, if_pos rfl, version, h.version]
  refine h.use (u := .change name) (.change name) count ?_ quiet.size nofun ?_
  · intro t
    exact iff_of_false (TableUse.not_inUse_concat_of_outdates rfl)
      fun kept => outdated t kept.1 kept.2
  · rw [quiet.tables]
    exact (List.append_nil _).symm

theorem look_again (h : s.Remembers us) {name : String} {t : Shared RouteTable}
    (hm : (s.router name).memo = some t) (hv : t.value.version = (s.router name).version) :
    (s.after name (s.router name) s.workspace).Remembers (us ++ [.lookup name t []]) := by
  have inUse : InUse us name t := (h.inUse_iff name t).2 ⟨hm, hv⟩
  have only : ∀ x, InUse us name x ↔ x = t := by
    intro x
    constructor
    · intro other
      have kept := ((h.inUse_iff name x).1 other).1
      exact Option.some.inj (kept.symm.trans hm)
    · intro same
      rwa [same]
  have version : (s.router name).version = changesOf (us ++ [.lookup name t []]) name := by
    rw [TableUse.changesOf_concat, TableUse.countChanges, h.version]
  refine h.use (u := .lookup name t []) (.again only) version ?_ (Nat.le_refl _) ?_ ?_
  · intro x
    change InUse _ name x ↔ _
    rw [← h.inUse_iff, TableUse.inUse_concat_iff, TableUse.looksUp_iff, only, TableUse.Outdates,
      not_false_eq_true, and_true, or_self]
  · intro x looks
    obtain rfl := TableUse.looksUp_iff.1 looks
    exact h.old name x (TableUse.used_of_inUse inUse)
  · exact (List.append_nil _).symm

theorem look_built (h : s.Remembers us) {name : String}
    (stale : ∀ t, (s.router name).memo = some t → t.value.version ≠ (s.router name).version) :
    let t : Shared RouteTable := ⟨s.workspace.journal.size, (s.router name).build⟩
    let event : Event := .tableBuilt (s.router name).version (s.router name).size
    (s.after name { s.router name with memo := some t } (s.workspace.report event)).Remembers
      (us ++ [.lookup name t [event]]) := by
  intro t event
  have free : ∀ x, ¬InUse us name x := by
    intro x inUse
    have kept := (h.inUse_iff name x).1 inUse
    exact stale x kept.1 kept.2
  -- The object is told by the number of reports so far, which is greater than that of any older
  -- one.
  have fresh : ∀ other x, Used us other x → x.id ≠ t.id := by
    intro other x used
    exact Nat.ne_of_lt (h.old other x used)
  have reported : event = .tableBuilt (changesOf us name) t.value.size := by
    rw [← h.version name, Router.size_build]
  have follows : TableUse.Follows us (.lookup name t [event]) := by
    rw [reported]
    exact .built free (h.version name) fresh
  have version : (s.router name).version = changesOf (us ++ [.lookup name t [event]]) name := by
    rw [TableUse.changesOf_concat, TableUse.countChanges, h.version]
  have size : (s.workspace.report event).journal.size = s.workspace.journal.size + 1 :=
    Array.size_push _
  refine h.use (u := .lookup name t [event]) follows version ?_ (by omega) ?_ ?_
  · intro x
    change InUse _ name x ↔ some t = some x ∧ x.value.version = (s.router name).version
    rw [TableUse.inUse_concat_iff, TableUse.looksUp_iff, Option.some_inj]
    constructor
    · rintro (rfl | ⟨inUse, -⟩)
      · exact ⟨rfl, rfl⟩
      · exact absurd inUse (free x)
    · intro kept
      exact .inl kept.1.symm
  · intro x looks
    obtain rfl := TableUse.looksUp_iff.1 looks
    rw [size]
    exact Nat.lt_add_one _
  · exact @Workspace.tableReports_push s.workspace (s.workspace.report event) event rfl

theorem look (h : s.Remembers us) (name : String) :
    (s.refresh name).Remembers (us ++ [s.look name]) := by
  have cases := (s.router name).table_kept_or_rebuilt s.workspace
  rw [RouterSession.look, tableOf, RouterSession.refresh]
  rcases cases with ⟨t, hm, hv, kept⟩ | ⟨stale, rebuilt⟩
  · rw [kept]
    have nothing : s.workspace.journal.toList.drop s.workspace.journal.size = [] := by simp
    simp only [RouterSession.after, nothing]
    exact h.look_again hm hv
  · have event : (s.workspace.journal.push
        (.tableBuilt (s.router name).version (s.router name).size)).toList.drop
          s.workspace.journal.size =
        [.tableBuilt (s.router name).version (s.router name).size] := by simp
    rw [rebuilt]
    simp only [Router.rebuild, RouterSession.after, Workspace.report, event]
    exact h.look_built stale

theorem insert [SizeLimit] [Describe α] (h : s.Remembers us) (valid : ∀ name, (s.router name).Valid)
    (router source : String) (data : α) (strict : Bool) :
    (s.step (.insert router source data strict)).2.Remembers
      (us ++ s.tableUses (.insert router source data strict)) := by
  have quiet := s.workspace.quiet_request (s.router router).cache source
  generalize came : s.workspace.request (s.router router).cache source = x at quiet
  obtain ⟨e | p, w⟩ := x
  · simp only [tableUses, RouterSession.step, Router.insert, came, List.append_nil]
    exact h.of_routers quiet rfl
  · simp only [tableUses, RouterSession.step, Router.insert, came]
    apply h.change rfl ?_ quiet
    intro t ht same
    have bound := ((valid router).current t ht).1
    have next : t.value.version = (s.router router).version + 1 := same
    omega

theorem step [SizeLimit] [Describe α] (h : s.Remembers us) (valid : ∀ name, (s.router name).Valid)
    (a : RouterStep α) : (s.step a).2.Remembers (us ++ s.tableUses a) := by
  have unused : ∀ {t : RouterSession α}, s.workspace.Quiet t.workspace → t.routers = s.routers →
      t.Remembers (us ++ []) := by
    intro t quiet routers
    rw [List.append_nil]
    exact h.of_routers quiet routers
  have still : s.workspace.Quiet s.workspace := ⟨rfl, Nat.le_refl _⟩
  cases a with
  | create router cache => exact h.create router (cache.getD globalCache)
  | insert router source data strict => exact h.insert valid router source data strict
  | clear router => exact h.change rfl nofun still
  | find router | findAll router | table router => exact h.look router
  | holdTable router label => exact (h.look router).of_routers ⟨rfl, Nat.le_refl _⟩ rfl
  | sharing router other =>
    have both := (h.look router).look other
    rw [List.append_assoc] at both
    exact both
  | request cache source label =>
    apply unused
    · rw [workspace_request]
      exact s.workspace.quiet_request cache source
    · simp only [RouterSession.step]
      split <;> rfl
  | compileSorted cache sources =>
    apply unused
    · rw [workspace_compileSorted]
      exact s.workspace.quiet_requestAll cache sources
    · simp only [RouterSession.step]
      split <;> rfl
  | heldTable | heldMatch =>
    simp only [RouterSession.step]
    split <;> exact unused still rfl
  | clearCache cache => exact unused ⟨rfl, Nat.le_refl _⟩ rfl
  | size | get | list | cacheSize | cacheContains | describe => exact unused still rfl

theorem run [SizeLimit] [Describe α] (h : s.Remembers us) {g : Registry α} (kept : s.Keeps g)
    (as : List (RouterStep α)) : (s.run as).2.Remembers (us ++ s.tableUsesOf as) := by
  -- The registry goes along because a step keeps the history of valid routers alone.
  induction as generalizing us s g with
  | nil =>
    rw [tableUsesOf, List.append_nil]
    exact h
  | cons a as ih =>
    have rest := ih (h.step kept.valid a) (keeps_step kept a)
    rw [List.append_assoc] at rest
    exact rest

end Remembers

section

variable [SizeLimit] [Describe α] {s : RouterSession α} {label : String}

theorem lookup_heldTables_step {a : RouterStep α} (other : ∀ name, a ≠ .holdTable name label) :
    (s.step a).2.heldTables.lookup label = s.heldTables.lookup label := by
  cases a with
  | holdTable router given =>
    have differs : label ≠ given := by
      rintro rfl
      exact other router rfl
    simp only [step, List.lookup_cons, beq_eq_false_iff_ne.2 differs]
  | insert | heldTable | heldMatch | request | compileSorted =>
    simp only [step]
    split <;> rfl
  | _ => rfl

theorem lookup_heldTables_run {as : List (RouterStep α)}
    (other : ∀ name, .holdTable name label ∉ as) :
    (s.run as).2.heldTables.lookup label = s.heldTables.lookup label := by
  induction as generalizing s with
  | nil => rfl
  | cons a as ih =>
    have first : ∀ name, a ≠ .holdTable name label := by
      rintro name rfl
      exact other name List.mem_cons_self
    have rest : ∀ name, .holdTable name label ∉ as :=
      fun name mem => other name (List.mem_cons_of_mem a mem)
    exact (ih rest).trans (lookup_heldTables_step first)

theorem held_after_run (name : String) {as : List (RouterStep α)}
    (other : ∀ name, .holdTable name label ∉ as) :
    let s' := ((s.step (.holdTable name label)).2.run as).2
    (s'.step (.heldTable label)).1 = .table (s.tableOf name).value ∧
      ∀ path, (s'.step (.heldMatch label path)).1 = .hits ((s.tableOf name).value.hits path) := by
  intro s'
  have held : s'.heldTables.lookup label = some (s.tableOf name) := by
    rw [lookup_heldTables_run other]
    simp only [step, List.lookup_cons, beq_self_eq_true, tableOf]
  simp only [step, held, implies_true, and_self]

end

/-- Whether tables are neither stale nor made without need, as the history of their uses shows. -/
structure TablesMemoized [SizeLimit] [Describe α] (us : List TableUse) (s : RouterSession α) :
    Prop where
  /-- A lookup uses the table of the routes as they are. Its version is the number of changes. -/
  current : ∀ name, (s.tableOf name).value =
    .ofPatterns (changesOf us name) ((s.router name).routes.map (·.pattern.value))
  answers : ∀ name path, ∃ hs, hs = ((s.tableOf name).value.hits path).filterMap
      (s.router name).routeHit? ∧
    (s.step (.findAll name path)).1 = .foundAll hs ∧
    (s.step (.find name path)).1 = .found hs.head? ∧
    (s.step (.table name)).1 = .table (s.tableOf name).value
  version : ∀ before name t reports after, us = before ++ .lookup name t reports :: after →
    t.value.version = changesOf before name
  /-- Two lookups use one object just if they are of one router that was not changed in between. -/
  same_iff : ∀ before name t reports between name' t' reports' after,
    us = before ++ .lookup name t reports :: (between ++ .lookup name' t' reports' :: after) →
      (t' = t ↔ t'.id = t.id) ∧ (t'.id = t.id ↔ name' = name ∧ Unchanged between name)
  /-- A lookup reports a new table just if there was none since the router was changed last. -/
  reported : ∀ before name t reports after, us = before ++ .lookup name t reports :: after →
    reports = [] ∧ InUse before name t ∨
      reports = [.tableBuilt (changesOf before name) t.value.size] ∧ ∀ x, ¬InUse before name x
  /-- No table is reported but by the lookups, in their order. -/
  reports : s.workspace.tableReports = us.flatMap TableUse.reports
  /-- A table that is held keeps its entries and its matches, whatever is done later. -/
  held : ∀ name label (bs : List (RouterStep α)), (∀ other, .holdTable other label ∉ bs) →
    let s' := ((s.step (.holdTable name label)).2.run bs).2
    (s'.step (.heldTable label)).1 = .table (s.tableOf name).value ∧
      ∀ path, (s'.step (.heldMatch label path)).1 = .hits ((s.tableOf name).value.hits path)

/-- After every run the tables have been kept as long as they were up to date, and no longer. -/
theorem tables_memoized [SizeLimit] [Describe α] (as : List (RouterStep α)) :
    ((empty : RouterSession α).run as).2.TablesMemoized
      ((empty : RouterSession α).tableUsesOf as) := by
  have kept : ((empty : RouterSession α).run as).2.Keeps (Registry.empty.run as) :=
    keeps_run keeps_empty as
  have history : ((empty : RouterSession α).run as).2.Remembers (empty.tableUsesOf as) :=
    Remembers.empty.run keeps_empty as
  generalize ((empty : RouterSession α).run as).2 = s at kept history
  generalize (empty : RouterSession α).tableUsesOf as = us at history
  have value : ∀ name, (s.tableOf name).value = (s.router name).build :=
    fun name => Router.table_value (kept.valid name) s.workspace
  constructor
  case current =>
    intro name
    rw [value, Router.build, history.version]
  case answers =>
    intro name path
    have found := Router.findAll_eq (kept.valid name) path s.workspace
    rw [← value] at found
    have first := congrArg (fun hs : List (RouteHit α) => RouterReply.found hs.head?) found
    exact ⟨_, rfl, congrArg RouterReply.foundAll found, first, rfl⟩
  case version => exact fun _ _ _ _ _ => TableUse.version_of_lookup history.follows
  case same_iff =>
    intro before name t reports between name' t' reports' after split
    have used : Used us name t := ⟨_, by simp [split], reports, rfl⟩
    have used' : Used us name' t' := ⟨_, by simp [split], reports', rfl⟩
    refine ⟨⟨fun same => by rw [same], fun same => ?_⟩, TableUse.id_eq_iff history.follows split⟩
    exact (TableUse.eq_of_id history.follows used used' same).2
  case reported => exact fun _ _ _ _ _ => TableUse.reports_of_lookup history.follows
  case reports => exact history.reports
  case held => exact fun name label bs other => held_after_run name other

open Unlimited

/-- A refused route and a cleared cache leave the table in use; to clear the router does not. -/
example :
    ((empty : RouterSession Nat).tableUsesOf
      [.insert "main" "/:x" 1 true, .find "main" "/a", .insert "main" "/:*" 2 false,
        .clearCache globalCache, .table "main", .clear "main", .table "main",
        .findAll "main" "/a"]).filterMap (fun
      | .lookup _ t reports => some (t.id, t.value.version, reports.length)
      | _ => none) = [(1, 1, 1), (1, 1, 0), (2, 2, 1), (2, 2, 0)] := by decide

end RouterSession

end PatternRouter
