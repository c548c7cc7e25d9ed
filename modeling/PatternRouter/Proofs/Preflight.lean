import PatternRouter.Proofs.Dispatch

namespace PatternRouter

variable {α : Type}

/-- The route of a selection with its captures, whatever policy is in force. -/
def Selection.hit (c : Selection α) : RouteHit (Method × α) :=
  ⟨c.index, c.source, (c.method, c.data), c.params⟩

/-- What a resolution comes to, whatever policy is in force. -/
def Resolution.target (d : Resolution α) : Outcome × Option (RouteHit (Method × α)) :=
  (d.outcome, d.selection?.map Selection.hit)

theorem Selection.IsOf.hit_eq {c k : Selection α} {h : RouteHit (Endpoint α)} (hc : c.IsOf h)
    (hk : k.IsOf h) : c.hit = k.hit := by
  simp only [hit, hc.index, hc.method, hc.source, hc.data, hc.params, hk.index, hk.method,
    hk.source, hk.data, hk.params]

theorem Announces.unique {m t t' : Method} {headers : Headers} (ht : Announces m headers t)
    (ht' : Announces m headers t') : t = t' := by
  have first := announcedMethod?_eq_some_iff.2 ht
  have second := announcedMethod?_eq_some_iff.2 ht'
  exact Option.some.inj (first.symm.trans second)

theorem not_announces_nil (m t : Method) : ¬Announces m [] t := by
  intro announced
  obtain ⟨-, v, first, -⟩ := announced
  cases first

/-- Only the first announcement counts. -/
theorem announces_congr {headers others : Headers}
    (h : others.first? requestMethodHeader = headers.first? requestMethodHeader) (m t : Method) :
    Announces m headers t ↔ Announces m others t := by
  rw [Announces, Announces, h]

namespace IsResolution

variable [SizeLimit] {rs : List (String × Endpoint α)} {m : Method} {path : String}
    {headers : Headers}
  {d : Resolution α} {c : Selection α} {t : Method} {h : RouteHit (Endpoint α)}

theorem isFirst_of_matched (hd : IsResolution rs m path headers (.matched c)) :
    ∃ h, IsFirst (MatchesAs rs path m) h ∧ c.IsOf h := by
  cases hd with
  | @matched h c first hc => exact ⟨h, first, hc⟩

theorem isFirst_of_preflight (hd : IsResolution rs m path headers (.preflight c))
    (ht : Announces m headers t) : ∃ h, IsFirst (MatchesAs rs path t) h ∧ c.IsOf h := by
  cases hd with
  | @preflight t' h c other ht' first hc =>
    obtain rfl := ht'.unique ht
    exact ⟨h, first, hc⟩

theorem matched_of_isFirst (hd : IsResolution rs m path headers d)
    (first : IsFirst (MatchesAs rs path m) h) : ∃ c, d = .matched c ∧ c.IsOf h := by
  obtain ⟨c, rfl⟩ := hd.matched_iff.2 ⟨h, first.holds⟩
  obtain ⟨k, first', hc⟩ := hd.isFirst_of_matched
  obtain rfl := first.unique first'
  exact ⟨c, rfl, hc⟩

theorem preflight_of_isFirst (hd : IsResolution rs m path headers d)
    (free : ∀ h, ¬MatchesAs rs path m h) (ht : Announces m headers t)
    (first : IsFirst (MatchesAs rs path t) h) : ∃ c, d = .preflight c ∧ c.IsOf h := by
  obtain ⟨c, rfl⟩ := hd.preflight_iff.2 ⟨free, t, ht, h, first.holds⟩
  obtain ⟨k, first', hc⟩ := hd.isFirst_of_preflight ht
  obtain rfl := first.unique first'
  exact ⟨c, rfl, hc⟩

/-- Of the headers of a request only what they announce bears on its route. -/
theorem target_eq {others : Headers} {d' : Resolution α} (hd : IsResolution rs m path headers d)
    (hd' : IsResolution rs m path others d')
    (same : ∀ t, Announces m headers t ↔ Announces m others t) : d'.target = d.target := by
  cases hd with
  | notFound miss => rw [hd'.notFound_iff.2 miss]
  | matched first hc =>
    obtain ⟨k, rfl, hk⟩ := hd'.matched_of_isFirst first
    simp [Resolution.target, Resolution.outcome, Resolution.selection?, hk.hit_eq hc]
  | preflight free ht first hc =>
    obtain ⟨k, rfl, hk⟩ := hd'.preflight_of_isFirst free ((same _).1 ht) first
    simp [Resolution.target, Resolution.outcome, Resolution.selection?, hk.hit_eq hc]
  | methodNotAllowed hm free miss =>
    have no_other : ∀ t, Announces m others t → ∀ h, ¬MatchesAs rs path t h := by
      intro t ht
      exact miss t ((same t).2 ht)
    rw [hd'.methodNotAllowed_iff.2 ⟨⟨_, hm⟩, free, no_other⟩]

end IsResolution

namespace HttpSession

/-- Where no route takes `OPTIONS`, a preflight is resolved to the route of the request that it
announces, or fails as that request does. Headers other than the first announcement have no say in
this. -/
theorem preflight_resolves_as_announced [SizeLimit] [Describe α] {s : HttpSession α}
    (hs : s.Reachable) {path : String}
    (free : ∀ h, ¬MatchesAs s.router.routes.toList path Method.options h) {t : Method}
    {headers : Headers} (announced : Announces Method.options headers t) :
    let resolve (m : Method) (hd : Headers) := (s.router.resolve m path hd s.workspace).1
    let preflight := resolve Method.options headers
    (∀ i q, (∃ c, preflight = .preflight c ∧ c.index = i ∧ c.params = q) ↔
      ∀ others, ∃ c, resolve t others = .matched c ∧ c.index = i ∧ c.params = q) ∧
    (preflight = .notFound ↔ resolve t [] = .notFound) ∧
    (preflight = .methodNotAllowed ↔ resolve t [] = .methodNotAllowed) ∧
    ∀ others : Headers,
      others.first? requestMethodHeader = headers.first? requestMethodHeader →
      (resolve Method.options others).target = preflight.target := by
  intro resolve preflight
  have resolves : ∀ m hd, IsResolution s.router.routes.toList m path hd (resolve m hd) :=
    fun m hd => HttpRouter.isResolution_resolve hs.valid.routes m path hd s.workspace
  have hp : IsResolution s.router.routes.toList Method.options path headers preflight :=
    resolves Method.options headers
  have plain := resolves t []
  refine ⟨?_, ?_, ?_, ?_⟩
  · intro i q
    constructor
    · intro found others
      obtain ⟨c, hc, rfl, rfl⟩ := found
      rw [hc] at hp
      obtain ⟨h, first, of_hit⟩ := hp.isFirst_of_preflight announced
      obtain ⟨k, matched, same_hit⟩ := (resolves t others).matched_of_isFirst first
      have same := same_hit.hit_eq of_hit
      exact ⟨k, matched, congrArg RouteHit.index same, congrArg RouteHit.params same⟩
    · intro all
      obtain ⟨c, hc, rfl, rfl⟩ := all []
      rw [hc] at plain
      obtain ⟨h, first, of_hit⟩ := plain.isFirst_of_matched
      obtain ⟨k, found, same_hit⟩ := hp.preflight_of_isFirst free announced first
      have same := same_hit.hit_eq of_hit
      exact ⟨k, found, congrArg RouteHit.index same, congrArg RouteHit.params same⟩
  · rw [hp.notFound_iff, plain.notFound_iff]
  · rw [hp.methodNotAllowed_iff, plain.methodNotAllowed_iff]
    constructor
    · intro refused
      obtain ⟨some_match, -, miss⟩ := refused
      exact ⟨some_match, miss t announced, fun t' ht' => absurd ht' (not_announces_nil t t')⟩
    · intro refused
      obtain ⟨some_match, none_of_method, -⟩ := refused
      refine ⟨some_match, free, ?_⟩
      intro t' ht'
      rwa [ht'.unique announced]
  · intro others same
    exact hp.target_eq (resolves Method.options others) (announces_congr same Method.options)

open Unlimited

/-- A preflight for a `POST` to `/a` is resolved to the second route, not to the more specific first
one. -/
theorem preflight_resolves_as_announced_post :
    ∃ (s : HttpSession Nat) (c : Selection Nat) (headers : Headers),
      s.Reachable ∧ headers.first? requestMethodHeader = some " post" ∧
      (∀ h, ¬MatchesAs s.router.routes.toList "/a" Method.options h) ∧
      (s.router.resolve Method.options "/a" headers s.workspace).1 = .preflight c ∧
      c.index = 1 ∧ c.params = ⟨[("x", "a")]⟩ ∧
      ∀ others, ∃ k, (s.router.resolve Method.post "/a" others s.workspace).1 = .matched k ∧
        k.index = 1 ∧ k.params = ⟨[("x", "a")]⟩ := by
  let headers : Headers := [⟨originHeader, "here"⟩, ⟨requestMethodHeader, " post"⟩]
  have first : Reachable (empty.step (.insert "GET" "/a" 1 none true)).2 := .step _ .empty
  have both := Reachable.step (.insert "POST" "/:x" 2 none true) first
  have look := Router.isLookup_findAll both.valid.routes "/a" Workspace.empty
  have free := (HttpRouter.firstOf?_eq_none_iff look (m := Method.options)).1 rfl
  have announced : Announces Method.options headers Method.post :=
    ⟨rfl, " post", rfl, by decide, by decide⟩
  have ⟨same_route, _⟩ := preflight_resolves_as_announced both free announced
  exact ⟨_, _, headers, both, rfl, free, rfl, rfl, rfl, (same_route 1 _).1 ⟨_, rfl, rfl, rfl⟩⟩

end HttpSession

end PatternRouter
