import Mathlib.Logic.Equiv.Basic
import PatternRouter.Proofs.Dispatch
import PatternRouter.Proofs.HttpRegistry

namespace PatternRouter

variable {α : Type}

/-- A way to put routes in another order that keeps the order among the routes of each shape. -/
structure Rearrangement (rs rs' : List (String × α)) where
  place : Equiv.Perm Nat
  moved : ∀ i, rs'[place i]? = rs[i]?
  keeps : ∀ i j, ∀ t ∈ rs[i]?, ∀ u ∈ rs[j]?, shapeOf t.1 = shapeOf u.1 → i < j → place i < place j

def Rearrangement.swap (t u : String × α) (h : shapeOf t.1 ≠ shapeOf u.1) :
    Rearrangement [t, u] [u, t] where
  place := Equiv.swap 0 1
  moved := by
    intro i
    match i with
    | 0 => simp
    | 1 => simp
    | i + 2 => simp [Equiv.swap_apply_of_ne_of_ne]
  keeps := by
    intro i j a ha b hb same lt
    match i, j with
    | 0, 1 =>
      obtain rfl := Option.some.inj ha
      obtain rfl := Option.some.inj hb
      exact absurd same h
    | 0, j + 2 => cases hb
    | i + 1, j + 2 => cases hb
    | i + 1, 1 => omega
    | i, 0 => omega

def RouteHit.moveIndex (f : Nat → Nat) (h : RouteHit α) : RouteHit α :=
  { h with index := f h.index }

def Selection.moveIndex (f : Nat → Nat) (c : Selection α) : Selection α :=
  { c with index := f c.index }

def Resolution.moveIndex (f : Nat → Nat) : Resolution α → Resolution α
  | matched c => matched (c.moveIndex f)
  | preflight c => preflight (c.moveIndex f)
  | notFound => notFound
  | methodNotAllowed => methodNotAllowed

namespace Rearrangement

variable [SizeLimit] {rs rs' : List (String × α)} {path : String}

theorem matches_moveIndex (σ : Rearrangement rs rs') (h : RouteHit α) :
    Matches rs' path (h.moveIndex σ.place) ↔ Matches rs path h := by
  rw [Matches, Matches, RouteHit.moveIndex, σ.moved]

theorem before_moveIndex (σ : Rearrangement rs rs') {h k : RouteHit α} (hh : Matches rs path h)
    (hk : Matches rs path k) (lt : h.Before k) :
    (h.moveIndex σ.place).Before (k.moveIndex σ.place) := by
  apply comparePlaces_eq_lt_iff.2
  rcases comparePlaces_eq_lt_iff.1 lt with shorter | ⟨same, later⟩
  · exact .inl shorter
  · exact .inr ⟨same, σ.keeps _ _ _ hk.1 _ hh.1 same.symm later⟩

/-- The matches of a path are the same, each at its new place. -/
theorem isLookup_moveIndex (σ : Rearrangement rs rs') {hs : List (RouteHit α)}
    (look : IsLookup rs path hs) : IsLookup rs' path (hs.map (RouteHit.moveIndex σ.place)) := by
  refine ⟨?_, ?_, ?_⟩
  · intro k
    have back : k = (k.moveIndex σ.place.symm).moveIndex σ.place := by
      simp [RouteHit.moveIndex]
    rw [List.mem_map]
    constructor
    · intro mem
      obtain ⟨h, hh, same⟩ := mem
      rw [← same, σ.matches_moveIndex]
      exact (look.mem_iff h).1 hh
    · intro hk
      rw [back, σ.matches_moveIndex] at hk
      exact ⟨_, (look.mem_iff _).2 hk, back.symm⟩
  · have places : (hs.map (RouteHit.moveIndex σ.place)).map RouteHit.index =
        (hs.map RouteHit.index).map σ.place := by
      simp [RouteHit.moveIndex]
    rw [places]
    apply List.pairwise_map.2
    exact look.once.imp fun ne same => ne (σ.place.injective same)
  · apply List.pairwise_map.2
    apply look.ordered.imp_of_mem
    intro h k hh hk lt
    exact σ.before_moveIndex ((look.mem_iff h).1 hh) ((look.mem_iff k).1 hk) lt

end Rearrangement

namespace HttpRouter

variable {r r' : HttpRouter α} {f : Nat → Nat}

theorem select_moveIndex (hd : r'.defaultCors = r.defaultCors) (hp : r.provider = none)
    (hp' : r'.provider = none) (m : Method) (headers : Headers) (h : RouteHit (Endpoint α)) :
    r'.select m headers (h.moveIndex f) = (r.select m headers h).moveIndex f := by
  obtain ⟨i, source, ⟨method, data, cors⟩, params⟩ := h
  cases cors <;> simp [select_eq, hd, hp, hp', Selection.moveIndex, RouteHit.moveIndex]

theorem firstOf?_moveIndex (m : Method) (hs : List (RouteHit (Endpoint α))) :
    firstOf? m (hs.map (RouteHit.moveIndex f)) = (firstOf? m hs).map (RouteHit.moveIndex f) := by
  rw [firstOf?, List.find?_map]
  rfl

/-- Without a provider the places of the matches have no say in the choice among them. -/
theorem choose_moveIndex (hd : r'.defaultCors = r.defaultCors) (hp : r.provider = none)
    (hp' : r'.provider = none) (m : Method) (headers : Headers)
    (hs : List (RouteHit (Endpoint α))) :
    r'.choose m headers (hs.map (RouteHit.moveIndex f)) = (r.choose m headers hs).moveIndex f := by
  have moved := select_moveIndex (f := f) hd hp hp' m headers
  have asked : (announcedMethod? m headers).bind
      (firstOf? · (hs.map (RouteHit.moveIndex f))) =
      ((announcedMethod? m headers).bind (firstOf? · hs)).map (RouteHit.moveIndex f) := by
    cases announcedMethod? m headers with
    | none => rfl
    | some t => exact firstOf?_moveIndex t hs
  rw [choose_eq, choose_eq, List.isEmpty_map, firstOf?_moveIndex, asked]
  split
  · rfl
  · cases firstOf? m hs with
    | some h => simp [Resolution.moveIndex, moved]
    | none =>
      cases (announcedMethod? m headers).bind (firstOf? · hs) with
      | some h => simp [Resolution.moveIndex, moved]
      | none => rfl

end HttpRouter

section

variable {rs rs' : List (String × α)} {r r' : Router α}

theorem findAll_rearranged [SizeLimit] (hr : r.Valid) (hr' : r'.Valid) (hl : r.toList = rs)
    (hl' : r'.toList = rs') (σ : Rearrangement rs rs') (path : String) (w w' : Workspace) :
    (r'.findAll path w').1 = (r.findAll path w).1.map (RouteHit.moveIndex σ.place) := by
  have look := Router.isLookup_findAll hr path w
  have look' := Router.isLookup_findAll hr' path w'
  rw [hl] at look
  rw [hl'] at look'
  exact look'.unique (σ.isLookup_moveIndex look)

end

/-- Two runs in which the same routes were registered in another order, those of one shape in the
same order, find the same routes with the same parameters on every path, and resolve every request
alike where the default policy is the same and no provider is installed. -/
theorem rearranged_routes_alike [SizeLimit] [Describe α] :
    (∀ (as bs : List (RouterStep α)) (name other path : String),
      let s := ((RouterSession.empty : RouterSession α).run as).2
      let s' := ((RouterSession.empty : RouterSession α).run bs).2
      ∀ σ : Rearrangement ((Registry.empty.run as) name) ((Registry.empty.run bs) other),
        ∃ hs, (s.step (.findAll name path)).1 = .foundAll hs ∧
          (s'.step (.findAll other path)).1 =
            .foundAll (hs.map (RouteHit.moveIndex σ.place))) ∧
    ∀ (s s' : HttpSession α) (as bs : List (HttpStep α)), s.Reachable → s'.Reachable →
      let g := s.router.registry.run as
      let g' := s'.router.registry.run bs
      let t := (s.run as).2
      let t' := (s'.run bs).2
      g'.defaultCors = g.defaultCors → g.provider = none → g'.provider = none →
        ∀ (σ : Rearrangement g.routes g'.routes) (m : Method) (path : String) (headers : Headers),
          (t'.router.resolve m path headers t'.workspace).1 =
            (t.router.resolve m path headers t.workspace).1.moveIndex σ.place := by
  constructor
  · intro as bs name other path s s' σ
    have kept := RouterSession.keeps_run (RouterSession.keeps_empty (α := α)) as
    have kept' := RouterSession.keeps_run (RouterSession.keeps_empty (α := α)) bs
    have moved := findAll_rearranged (kept.valid name) (kept'.valid other) (kept.routes name)
      (kept'.routes other) σ path s.workspace s'.workspace
    exact ⟨_, rfl, congrArg RouterReply.foundAll moved⟩
  · intro s s' as bs hs hs' g g' t t' hd hp hp' σ m path headers
    have valid := HttpSession.valid_run hs.valid as
    have valid' := HttpSession.valid_run hs'.valid bs
    have kept : t.router.registry = g := HttpSession.registry_run hs.valid as
    have kept' : t'.router.registry = g' := HttpSession.registry_run hs'.valid bs
    have moved := findAll_rearranged valid.routes valid'.routes
      (congrArg HttpRegistry.routes kept) (congrArg HttpRegistry.routes kept') σ path
      t.workspace t'.workspace
    rw [← kept, ← kept'] at hd
    rw [← kept] at hp
    rw [← kept'] at hp'
    change HttpRouter.choose _ m headers (t'.router.routes.findAll path t'.workspace).1 = _
    rw [moved]
    exact HttpRouter.choose_moveIndex hd hp hp' m headers _

open Unlimited

theorem rearranged_routes_alike_post :
    let get : HttpStep Nat := .insert "GET" "/:x" 1 none true
    let post : HttpStep Nat := .insert "POST" "/b" 2 none true
    let t := (HttpSession.empty.run [get, post]).2
    let t' := (HttpSession.empty.run [post, get]).2
    ∃ c, (t.router.resolve Method.post "/b" [] t.workspace).1 = .matched c ∧ c.index = 1 ∧
      (t'.router.resolve Method.post "/b" [] t'.workspace).1 =
        .matched (c.moveIndex (Equiv.swap 0 1)) := by
  intro get post t t'
  let σ := Rearrangement.swap ("/:x", (⟨Method.get, 1, none⟩ : Endpoint Nat))
    ("/b", ⟨Method.post, 2, none⟩) (by decide)
  have alike := (rearranged_routes_alike (α := Nat)).2 _ _ [get, post] [post, get] .empty .empty
    rfl rfl rfl σ Method.post "/b" []
  exact ⟨_, rfl, rfl, alike⟩

end PatternRouter
