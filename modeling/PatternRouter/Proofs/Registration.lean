import PatternRouter.Proofs.HttpRegistry
import PatternRouter.Proofs.NewRoute
import PatternRouter.Proofs.Preflight

namespace PatternRouter

variable {α : Type}

namespace HttpRouter

section

variable {rs : List (String × Endpoint α)} {t : String × Endpoint α} {path : String}
  {hs hs' : List (RouteHit (Endpoint α))}

theorem firstOf?_concat_of_ne [SizeLimit] (look : IsLookup rs path hs)
    (look' : IsLookup (rs ++ [t]) path hs') {m : Method} (hm : m ≠ t.2.method) :
    firstOf? m hs' = firstOf? m hs := by
  have same : MatchesAs (rs ++ [t]) path m = MatchesAs rs path m := by
    funext h
    apply propext
    rw [MatchesAs, MatchesAs, matches_concat]
    constructor
    · intro matched
      obtain ⟨old | ⟨new, hi⟩, method⟩ := matched
      · exact ⟨old, method⟩
      · have data : h.data = t.2 := congrArg Prod.snd (data_of_index_eq_length new hi)
        rw [data] at method
        exact absurd method.symm hm
    · intro matched
      exact ⟨.inl matched.1, matched.2⟩
  apply Option.ext
  intro h
  rw [firstOf?_eq_some_iff look', firstOf?_eq_some_iff look, same]

theorem firstOf?_concat [SizeLimit] (look : IsLookup rs path hs)
    (look' : IsLookup (rs ++ [t]) path hs')
    (free : firstOf? t.2.method hs = none) {h : RouteHit (Endpoint α)}
    (hm : Matches (rs ++ [t]) path h) (hi : h.index = rs.length) :
    firstOf? t.2.method hs' = some h := by
  have data : h.data = t.2 := congrArg Prod.snd (data_of_index_eq_length hm hi)
  have none_old := (firstOf?_eq_none_iff look).1 free
  apply (firstOf?_eq_some_iff look').2
  refine ⟨⟨hm, by rw [data]⟩, ?_⟩
  intro k hk
  rcases matches_concat.1 hk.1 with old | ⟨new, hj⟩
  · exact absurd ⟨old, hk.2⟩ (none_old k)
  · exact .inl (new.eq_of_index hm (hj.trans hi.symm))

end

theorem choose_of_registry {t : String × Endpoint α} {r r' : HttpRouter α}
    (h : r'.registry = r.registry.add t) : r'.choose = r.choose :=
  choose_congr (congrArg HttpRegistry.defaultCors h) (congrArg HttpRegistry.provider h)

end HttpRouter

/-- Whether a resolution is a preflight for the route at an index, with its own captures. -/
def Resolution.PreflightsTo [SizeLimit] (d : Resolution α) (rs : List (String × Endpoint α))
    (path : String) (i : Nat) : Prop :=
  ∃ c h, d = .preflight c ∧ c.IsOf h ∧ Matches rs path h ∧ h.index = i

namespace HttpRouter

variable [SizeLimit]

section

variable {rs : List (String × Endpoint α)} {t : String × Endpoint α} {path : String}
  {hs hs' : List (RouteHit (Endpoint α))} {r : HttpRouter α} {m : Method} {headers : Headers}
  {p : Pattern}

theorem choose_matched_concat (look : IsLookup rs path hs)
    (look' : IsLookup (rs ++ [t]) path hs') (hm : m ≠ t.2.method) {c : Selection α}
    (hd : r.choose m headers hs = .matched c) : r.choose m headers hs' = .matched c := by
  rw [choose_eq_matched_iff] at hd ⊢
  rwa [firstOf?_concat_of_ne look look' hm]

theorem choose_preflight_concat (look : IsLookup rs path hs)
    (look' : IsLookup (rs ++ [t]) path hs') (hm : m ≠ t.2.method) {c : Selection α}
    (hd : r.choose m headers hs = .preflight c) {u : Method} (hu : Announces m headers u)
    (other : u ≠ t.2.method) : r.choose m headers hs' = .preflight c := by
  obtain ⟨free, v, h, hv, first, hc⟩ := choose_eq_preflight_iff.1 hd
  obtain rfl := hu.unique hv
  apply choose_eq_preflight_iff.2
  rw [firstOf?_concat_of_ne look look' hm]
  exact ⟨free, u, h, hu, by rwa [firstOf?_concat_of_ne look look' other], hc⟩

theorem preflightsTo_concat (look : IsLookup rs path hs) (look' : IsLookup (rs ++ [t]) path hs')
    (hm : m ≠ t.2.method) (hp : Pattern.compile t.1 = .ok p) (hit : p.Accepts path)
    (free : firstOf? m hs = none) (free' : firstOf? t.2.method hs = none)
    (announced : Announces m headers t.2.method) :
    (r.choose m headers hs').PreflightsTo (rs ++ [t]) path rs.length := by
  obtain ⟨h, new, hi⟩ := (exists_matches_concat hp).2 hit
  have first := firstOf?_concat look look' free' new hi
  refine ⟨r.select m headers h, h, ?_, isOf_select .., new, hi⟩
  apply choose_eq_preflight_iff.2
  rw [firstOf?_concat_of_ne look look' hm]
  exact ⟨free, _, h, announced, first, rfl⟩

theorem methodNotAllowed_concat (look : IsLookup rs path hs)
    (look' : IsLookup (rs ++ [t]) path hs') (hm : m ≠ t.2.method) (full : hs' ≠ [])
    (free : firstOf? m hs = none) (free' : ∀ u, Announces m headers u → firstOf? u hs = none)
    (other : ¬Announces m headers t.2.method) :
    r.choose m headers hs' = .methodNotAllowed := by
  apply choose_eq_methodNotAllowed_iff.2
  rw [firstOf?_concat_of_ne look look' hm]
  refine ⟨full, free, ?_⟩
  intro u hu
  have different : u ≠ t.2.method := by
    intro same
    rw [same] at hu
    exact other hu
  rw [firstOf?_concat_of_ne look look' different]
  exact free' u hu

theorem choose_concat_of_methodNotAllowed (look : IsLookup rs path hs)
    (look' : IsLookup (rs ++ [t]) path hs') (hm : m ≠ t.2.method)
    (hp : Pattern.compile t.1 = .ok p) (hd : r.choose m headers hs = .methodNotAllowed) :
    (Announces m headers t.2.method → p.Accepts path →
      (r.choose m headers hs').PreflightsTo (rs ++ [t]) path rs.length) ∧
    (¬(Announces m headers t.2.method ∧ p.Accepts path) →
      r.choose m headers hs' = .methodNotAllowed) := by
  obtain ⟨-, free, free'⟩ := choose_eq_methodNotAllowed_iff.1 hd
  constructor
  · intro announced hit
    exact preflightsTo_concat look look' hm hp hit free (free' _ announced) announced
  · intro unanswered
    by_cases hit : p.Accepts path
    · have other : ¬Announces m headers t.2.method := fun announced => unanswered ⟨announced, hit⟩
      have full := look'.ne_nil_of_accepts hp hit
      exact methodNotAllowed_concat look look' hm full free free' other
    · rwa [look.eq_of_not_accepts look' hp hit]

theorem choose_concat_of_notFound (look : IsLookup rs path hs)
    (look' : IsLookup (rs ++ [t]) path hs') (hm : m ≠ t.2.method)
    (hp : Pattern.compile t.1 = .ok p) (hd : r.choose m headers hs = .notFound) :
    (p.Accepts path → Announces m headers t.2.method →
      (r.choose m headers hs').PreflightsTo (rs ++ [t]) path rs.length) ∧
    (p.Accepts path → ¬Announces m headers t.2.method →
      r.choose m headers hs' = .methodNotAllowed) ∧
    (¬p.Accepts path → r.choose m headers hs' = .notFound) := by
  obtain rfl := choose_eq_notFound_iff.1 hd
  refine ⟨?_, ?_, ?_⟩
  · intro hit announced
    exact preflightsTo_concat look look' hm hp hit rfl rfl announced
  · intro hit other
    have full := look'.ne_nil_of_accepts hp hit
    exact methodNotAllowed_concat look look' hm full rfl (fun _ _ => rfl) other
  · intro miss
    rwa [look.eq_of_not_accepts look' hp miss]

end

end HttpRouter

namespace HttpSession

/-- A new route leaves the requests of other methods to the routes that they had, save that a
preflight which announces its method comes to it where no route answered. -/
theorem registration_bears_on_own_method [SizeLimit] [Describe α] {s : HttpSession α}
    (hs : s.Reachable) {a : HttpStep α} {t : String × Endpoint α} (ha : a.route? = some t) {n : Nat}
    (done : (s.step a).1 = .changed n) {m : Method} (hm : m ≠ t.2.method) (path : String)
    (headers : Headers) :
    let s' := (s.step a).2
    let d := (s.router.resolve m path headers s.workspace).1
    let d' := (s'.router.resolve m path headers s'.workspace).1
    let rs := s'.router.routes.toList
    let i := s.router.size
    ∃ p, Pattern.compile t.1 = .ok p ∧
      (∀ c, d = .matched c → d' = .matched c) ∧
      (∀ c u, d = .preflight c → Announces m headers u → u ≠ t.2.method → d' = .preflight c) ∧
      (d = .methodNotAllowed →
        (Announces m headers t.2.method → p.Accepts path → d'.PreflightsTo rs path i) ∧
        (¬(Announces m headers t.2.method ∧ p.Accepts path) → d' = .methodNotAllowed)) ∧
      (d = .notFound →
        (p.Accepts path → Announces m headers t.2.method → d'.PreflightsTo rs path i) ∧
        (p.Accepts path → ¬Announces m headers t.2.method → d' = .methodNotAllowed) ∧
        (¬p.Accepts path → d' = .notFound)) := by
  intro s' d d' rs i
  obtain ⟨⟨p, hp⟩, added⟩ := registry_of_changed hs.valid ha done
  have routes : rs = s.router.routes.toList ++ [t] := congrArg HttpRegistry.routes added
  have length : i = s.router.routes.toList.length := (Router.length_toList _).symm
  have look := Router.isLookup_findAll hs.valid.routes path s.workspace
  have look' := Router.isLookup_findAll (valid_step hs.valid a).routes path s'.workspace
  have chosen : d' = s.router.choose m headers (s'.router.routes.findAll path s'.workspace).1 := by
    rw [← HttpRouter.choose_of_registry added]
    rfl
  have before : d = s.router.choose m headers (s.router.routes.findAll path s.workspace).1 := rfl
  -- Both answers are choices of one router among matches, the later of which are those of one route
  -- more.
  generalize (s.router.routes.findAll path s.workspace).1 = old at look before
  generalize (s'.router.routes.findAll path s'.workspace).1 = new at look' chosen
  change IsLookup rs path new at look'
  rw [routes] at look' ⊢
  rw [chosen, before, length]
  refine ⟨p, hp, ?_, ?_, ?_, ?_⟩
  · intro c
    exact HttpRouter.choose_matched_concat look look' hm
  · intro c u hc hu
    exact HttpRouter.choose_preflight_concat look look' hm hc hu
  · exact HttpRouter.choose_concat_of_methodNotAllowed look look' hm hp
  · exact HttpRouter.choose_concat_of_notFound look look' hm hp

open Unlimited

/-- A new route for `POST` leaves a `GET` to its own route and answers a preflight that was
refused. -/
theorem registration_bears_on_own_method_post :
    ∃ (s s' : HttpSession Nat) (headers : Headers) (c : Selection Nat), s.Reachable ∧
      s' = (s.step (.insert "POST" "/:x" 2 none true)).2 ∧
      (s.router.resolve Method.get "/a" [] s.workspace).1 = .matched c ∧
      (s'.router.resolve Method.get "/a" [] s'.workspace).1 = .matched c ∧
      (s.router.resolve Method.options "/a" headers s.workspace).1 = .methodNotAllowed ∧
      (s'.router.resolve Method.options "/a" headers s'.workspace).1.PreflightsTo
        s'.router.routes.toList "/a" 1 := by
  let headers : Headers := [⟨requestMethodHeader, "post"⟩]
  have first : Reachable (empty.step (.insert "GET" "/a" 1 none true)).2 := .step _ .empty
  have announced : Announces Method.options headers Method.post :=
    ⟨rfl, "post", rfl, by decide, by decide⟩
  have compiled : Pattern.compile "/:x" = .ok ⟨"/:x", [.named "x" false], _, _⟩ :=
    Pattern.compile_eq_ok.2 ⟨[.named "x" false], rfl, by decide, rfl⟩
  let t : String × Endpoint Nat := ("/:x", ⟨Method.post, 2, none⟩)
  have ht : HttpStep.route? (.insert "POST" "/:x" 2 none true) = some t := rfl
  have bears (m : Method) (hm : m ≠ Method.post) :=
    @registration_bears_on_own_method Nat _ _ _ first _ t ht 2 rfl m hm "/a"
  obtain ⟨-, -, kept, -⟩ := bears Method.get (by decide) []
  obtain ⟨p, hp, -, -, refused, -⟩ := bears Method.options (by decide) headers
  obtain rfl := Except.ok.inj (hp.symm.trans compiled)
  have preflight := (refused rfl).1 announced rfl
  exact ⟨_, _, headers, _, first, rfl, rfl, kept _ rfl, rfl, preflight⟩

end HttpSession

end PatternRouter
