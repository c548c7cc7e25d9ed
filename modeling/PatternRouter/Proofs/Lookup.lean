import PatternRouter.Router.Basic
import PatternRouter.Proofs.CacheValidity
import PatternRouter.Proofs.TableOrder

namespace PatternRouter

variable {α : Type}

/-- The shape of the pattern with this source. -/
def shapeOf (source : String) : Shape :=
  match Pattern.parse source with
  | .ok nodes => nodes.map Node.kind
  | .error _ => []

theorem Pattern.shape_of_compile [SizeLimit] {source : String} {p : Pattern}
    (h : Pattern.compile source = .ok p) : p.shape = shapeOf source := by
  obtain ⟨nodes, hn, -, rfl⟩ := Pattern.compile_eq_ok.1 h
  rw [shapeOf, hn]

namespace RouteHit

def place (h : RouteHit α) : Place := ⟨h.index, shapeOf h.source⟩

def Before (a b : RouteHit α) : Prop := comparePlaces a.place b.place = .lt

end RouteHit

/-- Whether a hit is a route of a list whose pattern matches a path, with its own captures. -/
def Matches [SizeLimit] (rs : List (String × α)) (path : String) (h : RouteHit α) : Prop :=
  rs[h.index]? = some (h.source, h.data) ∧
    ∃ p, Pattern.compile h.source = .ok p ∧ p.capture? (Path.normalize path) = some h.params

/-- All routes of a list that match a path, each once, the most specific first. -/
structure IsLookup [SizeLimit] (rs : List (String × α)) (path : String) (hs : List (RouteHit α)) :
    Prop where
  mem_iff : ∀ h, h ∈ hs ↔ Matches rs path h
  once : (hs.map RouteHit.index).Nodup
  ordered : hs.Pairwise RouteHit.Before

/-- Whether a hit is the most specific one of a kind. -/
structure IsFirst (P : RouteHit α → Prop) (h : RouteHit α) : Prop where
  holds : P h
  before : ∀ k, P k → k = h ∨ h.Before k

/-- What a lookup of the most specific match comes to. -/
def IsFound [SizeLimit] (rs : List (String × α)) (path : String) : Option (RouteHit α) → Prop
  | some h => IsFirst (Matches rs path) h
  | none => ∀ h, ¬Matches rs path h

/-- All routes of a list with their compiled patterns, the most specific first. -/
structure IsTable [SizeLimit] (rs : List (String × α)) (t : RouteTable) : Prop where
  mem_iff : ∀ e, e ∈ t.entries ↔
    ∃ source data, rs[e.index]? = some (source, data) ∧ Pattern.compile source = .ok e.pattern
  ordered : t.entries.Pairwise Ranked.Before

theorem IsTable.compile_eq [SizeLimit] {rs : List (String × α)} {t : RouteTable}
    (ht : IsTable rs t) {e : Ranked}
    (he : e ∈ t.entries) {source : String} {data : α} (h : rs[e.index]? = some (source, data)) :
    Pattern.compile source = .ok e.pattern := by
  obtain ⟨source', data', same, compiled⟩ := (ht.mem_iff e).1 he
  obtain ⟨rfl, rfl⟩ := Prod.mk.inj (Option.some.inj (h.symm.trans same))
  exact compiled

theorem Matches.eq_of_index [SizeLimit] {rs : List (String × α)} {path : String} {h k : RouteHit α}
    (hh : Matches rs path h) (hk : Matches rs path k) (hi : h.index = k.index) : h = k := by
  obtain ⟨i, source, data, params⟩ := h
  obtain ⟨j, source', data', params'⟩ := k
  obtain rfl : i = j := hi
  obtain ⟨hroute, p, hp, hparams⟩ := hh
  obtain ⟨kroute, q, hq, kparams⟩ := hk
  have same := Option.some.inj (hroute.symm.trans kroute)
  obtain ⟨rfl, rfl⟩ := Prod.mk.inj same
  obtain rfl := Except.ok.inj (hp.symm.trans hq)
  obtain rfl := Option.some.inj (hparams.symm.trans kparams)
  rfl

theorem IsFirst.not_before {P : RouteHit α → Prop} {h k : RouteHit α} (hh : IsFirst P h)
    (hk : P k) : ¬k.Before h := by
  intro lt
  rcases hh.before k hk with rfl | gt
  · exact comparePlaces_irrefl _ lt
  · exact comparePlaces_asymm gt lt

theorem IsFirst.unique {P : RouteHit α → Prop} {h k : RouteHit α} (hh : IsFirst P h)
    (hk : IsFirst P k) : h = k := by
  rcases hh.before k hk.holds with same | lt
  · exact same.symm
  · exact absurd lt (hk.not_before hh.holds)

namespace IsLookup

variable [SizeLimit] {rs : List (String × α)} {path : String} {hs : List (RouteHit α)}

theorem eq_nil_iff (h : IsLookup rs path hs) : hs = [] ↔ ∀ k, ¬Matches rs path k := by
  rw [List.eq_nil_iff_forall_not_mem]
  exact forall_congr' fun k => not_congr (h.mem_iff k)

theorem isFirst_of_find? (h : IsLookup rs path hs) {q : RouteHit α → Bool} {k : RouteHit α}
    (hk : hs.find? q = some k) : IsFirst (fun k => Matches rs path k ∧ q k = true) k := by
  obtain ⟨hq, before, after, rfl, none⟩ := List.find?_eq_some_iff_append.1 hk
  refine ⟨⟨(h.mem_iff k).1 (by simp), hq⟩, ?_⟩
  rintro j ⟨hj, hqj⟩
  rcases List.mem_append.1 ((h.mem_iff j).2 hj) with hj | hj
  · have miss := none j hj
    rw [hqj] at miss
    cases miss
  · rcases List.mem_cons.1 hj with rfl | hj
    · exact .inl rfl
    · exact .inr (List.rel_of_pairwise_cons (List.pairwise_append.1 h.ordered).2.1 hj)

theorem find?_eq_some_iff (h : IsLookup rs path hs) {q : RouteHit α → Bool} {k : RouteHit α} :
    hs.find? q = some k ↔ IsFirst (fun k => Matches rs path k ∧ q k = true) k := by
  constructor
  · exact h.isFirst_of_find?
  · intro hk
    have mem : k ∈ hs := (h.mem_iff k).2 hk.holds.1
    have found : (hs.find? q).isSome = true := List.find?_isSome.2 ⟨k, mem, hk.holds.2⟩
    obtain ⟨j, hj⟩ := Option.isSome_iff_exists.1 found
    rw [hj, (h.isFirst_of_find? hj).unique hk]

theorem find?_eq_none_iff (h : IsLookup rs path hs) {q : RouteHit α → Bool} :
    hs.find? q = none ↔ ∀ k, Matches rs path k → ¬q k = true := by
  rw [List.find?_eq_none]
  exact forall_congr' fun k => imp_congr_left (h.mem_iff k)

theorem head?_eq_some_iff (h : IsLookup rs path hs) {k : RouteHit α} :
    hs.head? = some k ↔ IsFirst (Matches rs path) k := by
  have all : hs.find? (fun _ => true) = hs.head? := by cases hs <;> rfl
  have every : (fun k => Matches rs path k ∧ true = true) = Matches rs path := by simp
  rw [← all, h.find?_eq_some_iff, every]

/-- There is one order for the matches of a path. -/
theorem unique {ks : List (RouteHit α)} (h : IsLookup rs path hs) (k : IsLookup rs path ks) :
    hs = ks := by
  have members : ∀ a, a ∈ hs ↔ a ∈ ks := fun a => (h.mem_iff a).trans (k.mem_iff a).symm
  have distinct : ∀ l : List (RouteHit α), (l.map RouteHit.index).Nodup → l.Nodup := by
    intro l once
    exact (List.pairwise_map.1 once).imp fun ne same => ne (congrArg RouteHit.index same)
  have perm : hs.Perm ks :=
    (List.perm_ext_iff_of_nodup (distinct hs h.once) (distinct ks k.once)).2 members
  apply List.Perm.eq_of_pairwise ?_ h.ordered k.ordered perm
  intro a b _ _ lt gt
  exact absurd gt (comparePlaces_asymm lt)

theorem isFound_head? (h : IsLookup rs path hs) : IsFound rs path hs.head? := by
  cases hk : hs.head? with
  | none => exact h.eq_nil_iff.1 (List.head?_eq_none_iff.1 hk)
  | some k => exact h.head?_eq_some_iff.1 hk

end IsLookup

namespace Router

/-- What every router keeps to, whatever is done with it. -/
structure Valid [SizeLimit] (r : Router α) : Prop where
  compiled : ∀ t ∈ r.routes, Pattern.compile t.pattern.value.source = .ok t.pattern.value
  /-- A table that was kept is of an earlier version, or it is the table of the routes. -/
  current : ∀ t, r.memo = some t →
    t.value.version ≤ r.version ∧ (t.value.version = r.version → t.value = r.build)

theorem valid_withCache [SizeLimit] (cache : String) : (withCache cache : Router α).Valid :=
  ⟨fun _ ht => absurd ht List.not_mem_nil, fun _ ht => by cases ht⟩

theorem valid_clear [SizeLimit] {r : Router α} : r.clear.Valid :=
  ⟨fun _ ht => absurd ht List.not_mem_nil, fun _ ht => by cases ht⟩

theorem length_toList (r : Router α) : r.toList.length = r.size := List.length_map _

theorem workspace_valid_insert [SizeLimit] (r : Router α) {w : Workspace} (hw : w.Valid)
    (source : String) (data : α) : (r.insert source data w).2.Valid := by
  have valid := Workspace.valid_request hw r.cache source
  unfold insert
  split <;> next hq => rwa [hq] at valid

/-- A registration is refused as its pattern is, and adds the route at the end otherwise. -/
theorem insert_cases [SizeLimit] {r : Router α} (hr : r.Valid) {w : Workspace} (hw : w.Valid)
    (source : String) (data : α) :
    (∃ e w', Pattern.compile source = .error e ∧ w'.Valid ∧
      r.insert source data w = (.error e, w')) ∨
    (∃ p r' w', Pattern.compile source = .ok p ∧ w'.Valid ∧ r'.Valid ∧
      r'.toList = r.toList ++ [(source, data)] ∧ r.insert source data w = (.ok r', w')) := by
  have valid := Workspace.valid_request hw r.cache source
  have value := Workspace.map_value_request hw r.cache source
  generalize hq : w.request r.cache source = q at valid value
  obtain ⟨e | p, w'⟩ := q
  · exact .inl ⟨e, w', value.symm, valid, by rw [insert, hq]⟩
  have compiled : Pattern.compile source = .ok p.value := value.symm
  have given := Pattern.source_of_compile compiled
  refine .inr ⟨p.value, _, w', compiled, valid, ?_, ?_, by rw [insert, hq]⟩
  · constructor
    · intro t ht
      rcases List.mem_append.1 ht with ht | ht
      · exact hr.compiled t ht
      · obtain rfl := List.mem_singleton.1 ht
        rw [given]
        exact compiled
    · -- A table that was kept is now of an earlier version, so that it says nothing.
      intro t ht
      have bound := (hr.current t ht).1
      refine ⟨Nat.le_succ_of_le bound, fun same => ?_⟩
      have next : t.value.version = r.version + 1 := same
      omega
  · rw [toList, List.map_append, List.map_singleton, given]
    rfl

theorem table_value [SizeLimit] {r : Router α} (hr : r.Valid) (w : Workspace) :
    (r.table w).1.value = r.build := by
  unfold table
  split
  · next t ht =>
    split
    · next hv => exact (hr.current t ht).2 hv
    · rfl
  · rfl

/-- The table that was kept is used if it is of the version of the router, and else a new one. -/
theorem table_kept_or_rebuilt (r : Router α) (w : Workspace) :
    (∃ t, r.memo = some t ∧ t.value.version = r.version ∧ r.table w = (t, r, w)) ∨
      (∀ t, r.memo = some t → t.value.version ≠ r.version) ∧ r.table w = r.rebuild w := by
  cases hm : r.memo with
  | none =>
    have rebuilt : r.table w = r.rebuild w := by simp only [table, hm]
    exact .inr ⟨nofun, rebuilt⟩
  | some t =>
    by_cases hv : t.value.version = r.version
    · have same : r.table w = (t, r, w) := by simp only [table, hm, hv, if_true]
      exact .inl ⟨t, rfl, hv, same⟩
    · have rebuilt : r.table w = r.rebuild w := by simp only [table, hm, hv, if_false]
      refine .inr ⟨fun x hx => ?_, rebuilt⟩
      rwa [← Option.some.inj hx]

theorem table_cases (r : Router α) (w : Workspace) :
    (r.table w).2 = (r, w) ∨ r.table w = r.rebuild w := by
  rcases r.table_kept_or_rebuilt w with ⟨t, -, -, kept⟩ | ⟨-, rebuilt⟩
  · exact .inl (congrArg Prod.snd kept)
  · exact .inr rebuilt

theorem routes_table (r : Router α) (w : Workspace) : (r.table w).2.1.routes = r.routes := by
  rcases r.table_cases w with h | h
  · rw [h]
  · rw [h]
    rfl

theorem toList_table (r : Router α) (w : Workspace) : (r.table w).2.1.toList = r.toList := by
  rw [toList, routes_table, toList]

theorem valid_table [SizeLimit] {r : Router α} (hr : r.Valid) (w : Workspace) :
    (r.table w).2.1.Valid := by
  rcases r.table_cases w with h | h <;> rw [h]
  · exact hr
  · refine ⟨hr.compiled, ?_⟩
    intro t ht
    obtain rfl := Option.some.inj ht
    exact ⟨Nat.le_refl _, fun _ => rfl⟩

theorem workspace_valid_table [SizeLimit] (r : Router α) {w : Workspace} (hw : w.Valid) :
    (r.table w).2.2.Valid := by
  rcases r.table_cases w with h | h <;> rw [h]
  · exact hw
  · exact hw

theorem findAll_eq [SizeLimit] {r : Router α} (hr : r.Valid) (path : String) (w : Workspace) :
    (r.findAll path w).1 = (r.build.hits path).filterMap r.routeHit? := by
  have same : (r.table w).2.1.routeHit? = r.routeHit? := by
    funext h
    rw [routeHit?, routes_table, routeHit?]
  change ((r.table w).1.value.hits path).filterMap (r.table w).2.1.routeHit? = _
  rw [table_value hr, same]

theorem mem_build {r : Router α} {e : Ranked} :
    e ∈ r.build.entries ↔ ∃ t, r.routes[e.index]? = some t ∧ t.pattern.value = e.pattern := by
  rw [build, RouteTable.mem_ofPatterns, List.getElem?_map, Option.map_eq_some_iff]

theorem index_lt_of_mem_build {r : Router α} {e : Ranked} (he : e ∈ r.build.entries) :
    e.index < r.routes.length := by
  obtain ⟨t, ht, -⟩ := mem_build.1 he
  exact (List.getElem?_eq_some_iff.1 ht).1

theorem getElem?_toList (r : Router α) (i : Nat) :
    r.toList[i]? = r.routes[i]?.map fun t => (t.pattern.value.source, t.data) := by
  rw [toList, List.getElem?_map]

theorem exists_compile_of_mem [SizeLimit] {r : Router α} (hr : r.Valid) {source : String} {data : α}
    (listed : (source, data) ∈ r.toList) : ∃ p, Pattern.compile source = .ok p := by
  obtain ⟨t, ht, pair⟩ := List.mem_map.1 listed
  obtain ⟨rfl, rfl⟩ := Prod.mk.inj pair
  exact ⟨_, hr.compiled t ht⟩

theorem isTable_build [SizeLimit] {r : Router α} (hr : r.Valid) : IsTable r.toList r.build := by
  refine ⟨fun e => ?_, RouteTable.ofPatterns_ordered ..⟩
  rw [mem_build, getElem?_toList]
  constructor
  · rintro ⟨t, ht, hp⟩
    refine ⟨t.pattern.value.source, t.data, by rw [ht]; rfl, ?_⟩
    rw [← hp]
    exact hr.compiled t (List.mem_of_getElem? ht)
  · rintro ⟨source, data, hroute, hp⟩
    obtain ⟨t, ht, pair⟩ := Option.map_eq_some_iff.1 hroute
    obtain ⟨rfl, rfl⟩ := Prod.mk.inj pair
    have compiled := hr.compiled t (List.mem_of_getElem? ht)
    exact ⟨t, ht, Except.ok.inj (compiled.symm.trans hp)⟩

theorem routeHit?_eq_some_iff {r : Router α} {path : String} {e : Ranked} {h : RouteHit α} :
    (e.hit? path).bind r.routeHit? = some h ↔
      h.index = e.index ∧ e.pattern.capture? path = some h.params ∧
        r.toList[h.index]? = some (h.source, h.data) := by
  rw [getElem?_toList]
  constructor
  · intro hh
    obtain ⟨k, hk, hr⟩ := Option.bind_eq_some_iff.1 hh
    obtain ⟨params, hp, rfl⟩ := Option.map_eq_some_iff.1 hk
    obtain ⟨t, ht, rfl⟩ := Option.map_eq_some_iff.1 hr
    refine ⟨rfl, hp, ?_⟩
    rw [ht]
    rfl
  · rintro ⟨hi, hp, hroute⟩
    obtain ⟨t, ht, pair⟩ := Option.map_eq_some_iff.1 hroute
    obtain ⟨hs, hd⟩ := Prod.mk.inj pair
    simp [Ranked.hit?, hp, routeHit?, ← hi, ht, hs, hd]

theorem findAll_eq_filterMap [SizeLimit] {r : Router α} (hr : r.Valid) (path : String)
    (w : Workspace) :
    (r.findAll path w).1 =
      r.build.entries.filterMap fun e => (e.hit? (Path.normalize path)).bind r.routeHit? := by
  rw [findAll_eq hr, RouteTable.hits, List.filterMap_filterMap]

theorem mem_findAll [SizeLimit] {r : Router α} (hr : r.Valid) (path : String) (w : Workspace)
    (h : RouteHit α) : h ∈ (r.findAll path w).1 ↔ Matches r.toList path h := by
  have table := isTable_build hr
  rw [findAll_eq_filterMap hr, List.mem_filterMap]
  constructor
  · rintro ⟨e, he, hh⟩
    obtain ⟨hi, hp, hroute⟩ := routeHit?_eq_some_iff.1 hh
    exact ⟨hroute, e.pattern, table.compile_eq he (hi ▸ hroute), hp⟩
  · rintro ⟨hroute, p, hp, hparams⟩
    have listed := (table.mem_iff ⟨h.index, p⟩).2 ⟨h.source, h.data, hroute, hp⟩
    exact ⟨_, listed, routeHit?_eq_some_iff.2 ⟨rfl, hparams, hroute⟩⟩

theorem findAll_ordered [SizeLimit] {r : Router α} (hr : r.Valid) (path : String) (w : Workspace) :
    (r.findAll path w).1.Pairwise RouteHit.Before := by
  have table := isTable_build hr
  have place : ∀ {e h}, e ∈ r.build.entries →
      (e.hit? (Path.normalize path)).bind r.routeHit? = some h → h.place = e.place := by
    intro e h he hh
    obtain ⟨hi, -, hroute⟩ := routeHit?_eq_some_iff.1 hh
    have compiled := table.compile_eq he (hi ▸ hroute)
    rw [RouteHit.place, Ranked.place, hi, Pattern.shape_of_compile compiled]
  rw [findAll_eq_filterMap hr, List.pairwise_filterMap]
  refine table.ordered.imp_of_mem ?_
  intro e f he hf lt h hh k hk
  rw [RouteHit.Before, place he hh, place hf hk]
  exact lt

/-- A lookup finds all routes that match, each once, the most specific first. -/
theorem isLookup_findAll [SizeLimit] {r : Router α} (hr : r.Valid) (path : String) (w : Workspace) :
    IsLookup r.toList path (r.findAll path w).1 := by
  have mem := mem_findAll hr path w
  have ordered := findAll_ordered hr path w
  refine ⟨mem, ?_, ordered⟩
  refine List.pairwise_map.2 (ordered.imp_of_mem ?_)
  intro h k hh hk lt same
  obtain rfl := ((mem h).1 hh).eq_of_index ((mem k).1 hk) same
  exact comparePlaces_irrefl h.place lt

end Router

end PatternRouter
