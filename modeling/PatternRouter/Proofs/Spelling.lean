import PatternRouter.Proofs.CaseBlindness
import PatternRouter.Proofs.Registry
import PatternRouter.Proofs.ReverseRouting

namespace PatternRouter

variable {α : Type}

/-- A route that matches a path, with the places of its values in the path. -/
structure SpannedHit (α : Type) where
  index : Nat
  source : String
  data : α
  values : List (String × Span)

/-- The match with the values that stand at its places in a path. -/
def SpannedHit.on (h : SpannedHit α) (path : String) : RouteHit α :=
  ⟨h.index, h.source, h.data, paramsAt path h.values⟩

def SpannedHit.Within (h : SpannedHit α) (path : String) : Prop :=
  ∀ v ∈ h.values, v.2.Inside path.toList

namespace Router

variable [SizeLimit]

/-- A route of the table matches all spellings of a path or none, with its values at the same
places. -/
theorem exists_spannedHit {r : Router α} (hr : r.Valid) {e : Ranked} (he : e ∈ r.build.entries)
    (path : String) : ∃ o : Option (SpannedHit α), (∀ h ∈ o, h.Within path) ∧ ∀ other : String,
      caselessText path.toList other.toList = true →
        (e.hit? other).bind r.routeHit? = o.map (·.on other) := by
  obtain ⟨t, ht, same⟩ := mem_build.1 he
  have compiled := hr.compiled t (List.mem_of_getElem? ht)
  rw [same] at compiled
  obtain ⟨spans, inside, captured⟩ := Pattern.exists_spans compiled path
  refine ⟨spans.map fun es => ⟨e.index, e.pattern.source, t.data, es⟩, ?_, ?_⟩
  · intro h hh
    obtain ⟨es, hes, rfl⟩ := Option.map_eq_some_iff.1 hh
    exact inside es hes
  · intro other h
    rw [Ranked.hit?, captured other h]
    cases spans with
    | none => rfl
    | some es =>
      change r.routes[e.index]?.map _ = _
      rw [ht, ← same]
      rfl

theorem exists_spannedHits {r : Router α} (hr : r.Valid) (path : String) (es : List Ranked)
    (hes : ∀ e ∈ es, e ∈ r.build.entries) :
    ∃ hits : List (SpannedHit α), (∀ h ∈ hits, h.Within path) ∧ ∀ other : String,
      caselessText path.toList other.toList = true →
        (es.filterMap fun e => (e.hit? other).bind r.routeHit?) = hits.map (·.on other) := by
  induction es with
  | nil => exact ⟨[], nofun, fun _ _ => rfl⟩
  | cons e es ih =>
    obtain ⟨o, within, first⟩ := exists_spannedHit hr (hes e (List.mem_cons_self ..)) path
    obtain ⟨hits, all, later⟩ := ih fun f hf => hes f (List.mem_cons_of_mem _ hf)
    refine ⟨o.toList ++ hits, ?_, ?_⟩
    · intro h hh
      rcases List.mem_append.1 hh with hh | hh
      · exact within h (Option.mem_toList.1 hh)
      · exact all h hh
    · intro other h
      rw [List.filterMap_cons, first other h, later other h]
      cases o <;> rfl

theorem findAll_spannedHits {r : Router α} (hr : r.Valid) (path : String) :
    ∃ hits : List (SpannedHit α), (∀ h ∈ hits, h.Within (Path.normalize path)) ∧
      ∀ other : String, caselessText path.toList other.toList = true → ∀ w,
        (r.findAll other w).1 = hits.map (·.on (Path.normalize other)) := by
  obtain ⟨hits, within, same⟩ :=
    exists_spannedHits hr (Path.normalize path) r.build.entries fun _ he => he
  refine ⟨hits, within, ?_⟩
  intro other h w
  rw [findAll_eq_filterMap hr]
  exact same (Path.normalize other) (caselessText_normalize h)

end Router

theorem textThen_congr {s t : List Char} (h : caselessText s t = true) (k : Continuation) :
    textThen t k = textThen s k := by
  induction s generalizing t with
  | nil =>
    obtain rfl := caselessText_nil h
    rfl
  | cons c s ih =>
    obtain ⟨d, t, rfl, hd, ht⟩ := caselessText_cons h
    rw [textThen, textThen, ih ht]
    funext u
    cases u with
    | nil => rfl
    | cons x u =>
      have same : caseless d x = caseless c x :=
        Bool.eq_iff_iff.2 ⟨caseless_trans hd, caseless_trans (caseless_symm hd)⟩
      change (if caseless d x = true then textThen s k u else none) = _
      rw [same]
      rfl

namespace Node.Respelled

theorem refl (n : Node) : n.Respelled n := by
  cases n with
  | literal text => exact .literal (caselessText_refl _)
  | named name optional => exact .named name optional
  | rest => exact .rest

theorem kind {n m : Node} (h : n.Respelled m) : m.kind = n.kind := by
  cases h <;> rfl

theorem eval {n m : Node} (h : n.Respelled m) (first : Bool) (k : Continuation) :
    m.eval first k = n.eval first k := by
  cases h with
  | literal same => rw [Node.eval, Node.eval, textThen_congr same]
  | named => rfl
  | rest => rfl

end Node.Respelled

section

variable {nodes spelled : List Node} (h : List.Forall₂ Node.Respelled nodes spelled)

include h

theorem evalNodes_respelled : evalNodes spelled = evalNodes nodes := by
  induction h with
  | nil => rfl
  | cons hn _ ih => rw [evalNodes, evalNodes, ih, hn.eval]

theorem runNodes_respelled : runNodes spelled = runNodes nodes := by
  cases h with
  | nil => rfl
  | cons hn later => rw [runNodes, runNodes, evalNodes_respelled later, hn.eval]

theorem bindGroups_respelled (gs : List (Option String)) (q : Params) :
    bindGroups spelled gs q = bindGroups nodes gs q := by
  induction h generalizing gs q with
  | nil => rfl
  | cons hn _ ih =>
    rw [bindGroups, bindGroups, hn.parameter?]
    split
    · exact ih gs q
    · exact ih _ _

theorem map_kind_respelled : spelled.map Node.kind = nodes.map Node.kind := by
  induction h with
  | nil => rfl
  | cons hn _ ih => rw [List.map_cons, List.map_cons, ih, hn.kind]

end

/-- Whether letter case makes no difference to the limit on the size of expressions. -/
def SizeLimit.IsCaseless [SizeLimit] : Prop :=
  ∀ nodes spelled, List.Forall₂ Node.Respelled nodes spelled →
    SizeLimit.admits (Expression.textOf spelled) = SizeLimit.admits (Expression.textOf nodes)

/-- Whether two patterns differ in one segment alone, which is a literal in both, and there at most
in letter case. -/
inductive Respelling (source other : String) : Prop where
  | at (before after : List (List Char)) {text spelling : List Char} :
      segments source.toList = before ++ text :: after →
      segments other.toList = before ++ spelling :: after →
      segmentNode? after.isEmpty text = some (.literal (String.ofList text)) →
      segmentNode? after.isEmpty spelling = some (.literal (String.ofList spelling)) →
      caselessText text spelling = true → Respelling source other

theorem Respelling.symm {source other : String} (h : Respelling source other) :
    Respelling other source := by
  obtain ⟨before, after, hs, ho, ht, hsp, same⟩ := h
  exact .at before after ho hs hsp ht (caselessText_symm same)

theorem segmentNodes?_respelled {text spelling : List Char} (before after : List (List Char))
    (ht : segmentNode? after.isEmpty text = some (.literal (String.ofList text)))
    (hs : segmentNode? after.isEmpty spelling = some (.literal (String.ofList spelling)))
    (same : caselessText text spelling = true) {nodes : List Node}
    (h : segmentNodes? (before ++ text :: after) = some nodes) :
    ∃ spelled, segmentNodes? (before ++ spelling :: after) = some spelled ∧
      List.Forall₂ Node.Respelled nodes spelled := by
  induction before generalizing nodes with
  | nil =>
    obtain ⟨n, ns, hn, hns, rfl⟩ := segmentNodes?_cons_eq_some.1 h
    obtain rfl := Option.some.inj (ht.symm.trans hn)
    have read := segmentNodes?_cons_eq_some.2 ⟨_, ns, hs, hns, rfl⟩
    refine ⟨_, read, .cons (.literal ?_) (List.forall₂_same.2 fun n _ => .refl n)⟩
    rw [String.toList_ofList, String.toList_ofList]
    exact same
  | cons p before ih =>
    have ends : (before ++ spelling :: after).isEmpty = (before ++ text :: after).isEmpty := by
      cases before <;> rfl
    rw [List.cons_append] at h ⊢
    obtain ⟨n, ns, hn, hns, rfl⟩ := segmentNodes?_cons_eq_some.1 h
    rw [← ends] at hn
    obtain ⟨ms, hms, later⟩ := ih hns
    exact ⟨n :: ms, segmentNodes?_cons_eq_some.2 ⟨n, ms, hn, hms, rfl⟩, .cons (.refl n) later⟩

namespace Respelling

variable {source other : String}

theorem parse (h : Respelling source other) {nodes : List Node}
    (hp : Pattern.parse source = .ok nodes) :
    ∃ spelled, Pattern.parse other = .ok spelled ∧ List.Forall₂ Node.Respelled nodes spelled := by
  obtain ⟨before, after, hs, ho, ht, hsp, same⟩ := h
  rw [Pattern.parse_eq_ok, splitSlash_normalizeText, hs, if_neg (by simp)] at hp
  obtain ⟨spelled, read, all⟩ := segmentNodes?_respelled before after ht hsp same hp
  refine ⟨spelled, ?_, all⟩
  rw [Pattern.parse_eq_ok, splitSlash_normalizeText, ho, if_neg (by simp)]
  exact read

theorem exists_compile [SizeLimit] (caseless : SizeLimit.IsCaseless)
    (h : Respelling source other) {p : Pattern} (hp : Pattern.compile source = .ok p) :
    ∃ q, Pattern.compile other = .ok q := by
  obtain ⟨nodes, read, small, -⟩ := Pattern.compile_eq_ok.1 hp
  obtain ⟨spelled, read', all⟩ := h.parse read
  rw [← caseless nodes spelled all] at small
  exact ⟨_, Pattern.compile_eq_ok.2 ⟨spelled, read', small, rfl⟩⟩

theorem compile [SizeLimit] (h : Respelling source other) {p q : Pattern}
    (hp : Pattern.compile source = .ok p) (hq : Pattern.compile other = .ok q) :
    q.shape = p.shape ∧ ∀ path, q.capture? path = p.capture? path := by
  obtain ⟨nodes, read, -, rfl⟩ := Pattern.compile_eq_ok.1 hp
  obtain ⟨spelled, read', -, rfl⟩ := Pattern.compile_eq_ok.1 hq
  obtain ⟨_, again, all⟩ := h.parse read
  obtain rfl := Except.ok.inj (read'.symm.trans again)
  refine ⟨map_kind_respelled all, ?_⟩
  intro path
  rw [Pattern.capture?_of_compile hq, Pattern.capture?_of_compile hp, runNodes_respelled all]
  congr 1
  funext gs
  exact bindGroups_respelled all ..

end Respelling

/-- The same match where the route at a place is from another source. -/
def RouteHit.respell (i : Nat) (source : String) (h : RouteHit α) : RouteHit α :=
  if h.index = i then { h with source := source } else h

theorem RouteHit.index_respell (i : Nat) (source : String) (h : RouteHit α) :
    (h.respell i source).index = h.index := by
  unfold respell
  split <;> rfl

namespace Respelling

variable [SizeLimit] {source other path : String} {rs : List (String × α)} {i : Nat} {data : α}
  {k : RouteHit α}

theorem matches_respell (h : Respelling source other)
    (hi : rs[i]? = some (source, data)) {q : Pattern} (hq : Pattern.compile other = .ok q)
    (hk : Matches rs path k) :
    Matches (rs.set i (other, data)) path (k.respell i other) ∧
      (k.respell i other).place = k.place := by
  obtain ⟨listed, p, hp, captured⟩ := hk
  by_cases at_i : k.index = i
  · rw [at_i, hi] at listed
    obtain ⟨rfl, rfl⟩ := Prod.mk.inj (Option.some.inj listed)
    obtain ⟨shape, same⟩ := h.compile hp hq
    rw [RouteHit.respell, if_pos at_i]
    refine ⟨⟨?_, q, hq, (same _).trans captured⟩, ?_⟩
    · have bound := (List.getElem?_eq_some_iff.1 hi).1
      change (rs.set i _)[k.index]? = _
      rw [at_i, List.getElem?_set_self bound]
    · rw [Pattern.shape_of_compile hp, Pattern.shape_of_compile hq] at shape
      exact congrArg (Place.mk k.index) shape
  · rw [RouteHit.respell, if_neg at_i]
    refine ⟨⟨?_, p, hp, captured⟩, rfl⟩
    rw [List.getElem?_set_ne (Ne.symm at_i)]
    exact listed

theorem respell_respell (hi : rs[i]? = some (source, data)) (hk : Matches rs path k) :
    (k.respell i other).respell i source = k := by
  by_cases at_i : k.index = i
  · have listed := hk.1
    rw [at_i, hi] at listed
    obtain ⟨rfl, -⟩ := Prod.mk.inj (Option.some.inj listed)
    rw [RouteHit.respell, RouteHit.index_respell, if_pos at_i, RouteHit.respell, if_pos at_i]
  · rw [RouteHit.respell, RouteHit.index_respell, if_neg at_i, RouteHit.respell, if_neg at_i]

theorem isLookup_respell (h : Respelling source other)
    (hi : rs[i]? = some (source, data)) {p q : Pattern} (hp : Pattern.compile source = .ok p)
    (hq : Pattern.compile other = .ok q) {hs : List (RouteHit α)} (look : IsLookup rs path hs) :
    IsLookup (rs.set i (other, data)) path (hs.map (RouteHit.respell i other)) := by
  obtain ⟨bound, at_i⟩ := List.getElem?_eq_some_iff.1 hi
  have hi' : (rs.set i (other, data))[i]? = some (other, data) := List.getElem?_set_self bound
  have back : (rs.set i (other, data)).set i (source, data) = rs := by
    rw [List.set_set, ← at_i, List.set_getElem_self]
  refine ⟨?_, ?_, ?_⟩
  · intro k
    rw [List.mem_map]
    constructor
    · intro mem
      obtain ⟨j, hj, rfl⟩ := mem
      exact (h.matches_respell hi hq ((look.mem_iff j).1 hj)).1
    · -- A match of the new list is spelled back, and is then one of the old list.
      intro hk
      have found := (h.symm.matches_respell hi' hp hk).1
      rw [back] at found
      exact ⟨_, (look.mem_iff _).2 found, respell_respell hi' hk⟩
  · have places : (hs.map (RouteHit.respell i other)).map RouteHit.index =
        hs.map RouteHit.index := by
      rw [List.map_map]
      exact List.map_congr_left fun k _ => k.index_respell i other
    rw [places]
    exact look.once
  · apply List.pairwise_map.2
    apply look.ordered.imp_of_mem
    intro j k hj hk lt
    have place := (h.matches_respell hi hq ((look.mem_iff j).1 hj)).2
    have place' := (h.matches_respell hi hq ((look.mem_iff k).1 hk)).2
    rw [RouteHit.Before, place, place']
    exact lt

end Respelling

/-- Letter case shows in values alone. All spellings of a path are found to match the same routes in
the same order, with the values of the same parameters at the same places of the normalized path,
and each of these values is spelled as the path is. A pattern with one literal segment in another
spelling is accepted as well, as far as the limit on the size of expressions takes no notice of
letter case, and captures the same from every path; a router with the one in the place of the other
finds the same routes with the same parameters. -/
theorem spelling_shows_in_values_only [SizeLimit] [Describe α] :
    (∀ (as : List (RouterStep α)) (name path : String),
      let s := ((RouterSession.empty : RouterSession α).run as).2
      ∃ hits : List (SpannedHit α), (∀ h ∈ hits, h.Within (Path.normalize path)) ∧
        ∀ other : String, caselessText path.toList other.toList = true →
          caselessText (Path.normalize path).toList (Path.normalize other).toList = true ∧
          (s.step (.findAll name other)).1 =
            .foundAll (hits.map (·.on (Path.normalize other)))) ∧
    ∀ source other : String, Respelling source other →
      (SizeLimit.IsCaseless → ∀ p, Pattern.compile source = .ok p →
        ∃ q, Pattern.compile other = .ok q) ∧
      (∀ p q, Pattern.compile source = .ok p → Pattern.compile other = .ok q →
        ∀ path, q.capture? path = p.capture? path) ∧
      ∀ (as bs : List (RouterStep α)) (name name' : String) (i : Nat) (data : α),
        let s := ((RouterSession.empty : RouterSession α).run as).2
        let s' := ((RouterSession.empty : RouterSession α).run bs).2
        let rs := (Registry.empty : Registry α).run as name
        rs[i]? = some (source, data) → Registry.empty.run bs name' = rs.set i (other, data) →
          ∀ path, ∃ hits, (s.step (.findAll name path)).1 = .foundAll hits ∧
            (s'.step (.findAll name' path)).1 =
              .foundAll (hits.map (RouteHit.respell i other)) := by
  constructor
  · intro as name path s
    have kept := RouterSession.keeps_run (RouterSession.keeps_empty (α := α)) as
    obtain ⟨hits, within, same⟩ := Router.findAll_spannedHits (kept.valid name) path
    refine ⟨hits, within, ?_⟩
    intro other h
    exact ⟨caselessText_normalize h, congrArg RouterReply.foundAll (same other h s.workspace)⟩
  · intro source other h
    refine ⟨?_, ?_, ?_⟩
    · intro caseless p hp
      exact h.exists_compile caseless hp
    · intro p q hp hq
      exact (h.compile hp hq).2
    · intro as bs name name' i data s s' rs hi replaced path
      have kept := RouterSession.keeps_run (RouterSession.keeps_empty (α := α)) as
      have kept' := RouterSession.keeps_run (RouterSession.keeps_empty (α := α)) bs
      have look := Router.isLookup_findAll (kept.valid name) path s.workspace
      have look' := Router.isLookup_findAll (kept'.valid name') path s'.workspace
      have routes := kept.routes name
      have routes' := (kept'.routes name').trans replaced
      have listed : (source, data) ∈ (s.router name).toList :=
        routes ▸ List.mem_of_getElem? hi
      have listed' : (other, data) ∈ (s'.router name').toList :=
        routes' ▸ List.mem_set (List.getElem?_eq_some_iff.1 hi).1 _
      obtain ⟨p, hp⟩ := Router.exists_compile_of_mem (kept.valid name) listed
      obtain ⟨q, hq⟩ := Router.exists_compile_of_mem (kept'.valid name') listed'
      rw [routes] at look
      rw [routes'] at look'
      have same := look'.unique (h.isLookup_respell hi hp hq look)
      exact ⟨_, rfl, congrArg RouterReply.foundAll same⟩

open Unlimited

/-- The Kelvin sign is a spelling of a letter of one byte; a route is found by either. -/
theorem spelling_shows_in_values_only_users :
    let as : List (RouterStep Nat) := [.insert "r" "/users/:id" 1 true]
    let bs : List (RouterStep Nat) := [.insert "r" "/USERS/:id" 1 true]
    let s := (RouterSession.empty.run as).2
    let s' := (RouterSession.empty.run bs).2
    (∃ hits : List (SpannedHit Nat),
      (s.step (.findAll "r" "/users/Kim")).1 = .foundAll (hits.map (·.on "users/Kim")) ∧
      (s.step (.findAll "r" "/Users/\u212AIm")).1 = .foundAll (hits.map (·.on "Users/\u212AIm"))) ∧
    (∃ q, Pattern.compile "/USERS/:id" = .ok q) ∧
    ∃ hits, hits.map RouteHit.params = [⟨[("id", "Kim")]⟩] ∧
      (s.step (.findAll "r" "/users/Kim")).1 = .foundAll hits ∧
      (s'.step (.findAll "r" "/users/Kim")).1 =
        .foundAll (hits.map (RouteHit.respell 0 "/USERS/:id")) := by
  intro as bs s s'
  obtain ⟨paths, patterns⟩ := spelling_shows_in_values_only (α := Nat)
  have small : segments "/users/:id".toList = [] ++ "users".toList :: [":id".toList] := rfl
  have large : segments "/USERS/:id".toList = [] ++ "USERS".toList :: [":id".toList] := rfl
  have respelled : Respelling "/users/:id" "/USERS/:id" :=
    .at [] _ small large rfl rfl (by decide)
  obtain ⟨accepted, -, routers⟩ := patterns _ _ respelled
  refine ⟨?_, accepted (fun _ _ _ => rfl) _ rfl, ?_⟩
  · obtain ⟨hits, -, same⟩ := paths as "r" "/users/Kim"
    exact ⟨hits, (same "/users/Kim" (by decide)).2, (same "/Users/\u212AIm" (by decide)).2⟩
  · obtain ⟨hits, found, found'⟩ := routers as bs "r" "r" 0 1 rfl rfl "/users/Kim"
    have known : (s.step (.findAll "r" "/users/Kim")).1 =
        .foundAll [⟨0, "/users/:id", 1, ⟨[("id", "Kim")]⟩⟩] := rfl
    obtain rfl := RouterReply.foundAll.inj (known.symm.trans found)
    exact ⟨_, rfl, found, found'⟩

end PatternRouter
