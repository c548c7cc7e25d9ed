import PatternRouter.Proofs.HttpStates

namespace PatternRouter

variable {α : Type}

theorem Method.ofText?_eq_some_iff {s : String} {t : Method} :
    Method.ofText? s = some t ↔
      t.name = String.ofList ((trimBlank s.toList).map Char.toUpper) := by
  unfold ofText? ofName?
  constructor
  · intro h
    split at h
    · obtain rfl := Option.some.inj h
      rfl
    · cases h
  · intro h
    obtain ⟨name, valid⟩ := t
    obtain rfl : name = _ := h
    rw [dif_pos valid]

/-- Whether a request is a preflight that announces a method. -/
def Announces (m : Method) (headers : Headers) (t : Method) : Prop :=
  m = Method.options ∧ ∃ v, headers.first? requestMethodHeader = some v ∧
    isPlainValue v.toList = true ∧
    t.name = String.ofList ((trimBlank v.toList).map Char.toUpper)

theorem announcedMethod?_eq_some_iff {m t : Method} {headers : Headers} :
    announcedMethod? m headers = some t ↔ Announces m headers t := by
  unfold announcedMethod? Announces
  by_cases hm : m = Method.options
  · rw [if_pos hm]
    cases hv : headers.first? requestMethodHeader with
    | none => simp
    | some v =>
      by_cases plain : isPlainValue v.toList = true
      · simp [hm, plain, Method.ofText?_eq_some_iff]
      · simp [plain]
  · simp [hm]

/-- Whether a selection is the route of a hit, with what its own pattern captures. -/
structure Selection.IsOf (c : Selection α) (h : RouteHit (Endpoint α)) : Prop where
  index : c.index = h.index
  method : c.method = h.data.method
  source : c.source = h.source
  data : c.data = h.data.data
  params : c.params = h.params

/-- The matches whose route has a method. -/
def MatchesAs [SizeLimit] (rs : List (String × Endpoint α)) (path : String) (m : Method)
    (h : RouteHit (Endpoint α)) : Prop :=
  Matches rs path h ∧ h.data.method = m

/-- What a request comes to at a list of routes. -/
inductive IsResolution [SizeLimit] (rs : List (String × Endpoint α)) (m : Method) (path : String)
    (headers : Headers) : Resolution α → Prop where
  | notFound : (∀ h, ¬Matches rs path h) → IsResolution rs m path headers .notFound
  | matched {h c} : IsFirst (MatchesAs rs path m) h → c.IsOf h →
      IsResolution rs m path headers (.matched c)
  | preflight {t h c} : (∀ h, ¬MatchesAs rs path m h) → Announces m headers t →
      IsFirst (MatchesAs rs path t) h → c.IsOf h → IsResolution rs m path headers (.preflight c)
  | methodNotAllowed {h} : Matches rs path h → (∀ h, ¬MatchesAs rs path m h) →
      (∀ t, Announces m headers t → ∀ h, ¬MatchesAs rs path t h) →
      IsResolution rs m path headers .methodNotAllowed

namespace HttpRouter

theorem isOf_select (r : HttpRouter α) (m : Method) (headers : Headers)
    (h : RouteHit (Endpoint α)) : (r.select m headers h).IsOf h := by
  rw [select_eq]
  split <;> exact ⟨rfl, rfl, rfl, rfl, rfl⟩

section

variable [SizeLimit] {rs : List (String × Endpoint α)} {path : String}
    {hs : List (RouteHit (Endpoint α))}

theorem firstOf?_eq_some_iff (look : IsLookup rs path hs) {m : Method}
    {h : RouteHit (Endpoint α)} : firstOf? m hs = some h ↔ IsFirst (MatchesAs rs path m) h := by
  have same : (fun k : RouteHit (Endpoint α) =>
      Matches rs path k ∧ decide (k.data.method = m) = true) = MatchesAs rs path m := by
    funext k
    simp [MatchesAs]
  rw [firstOf?, look.find?_eq_some_iff, same]

theorem firstOf?_eq_none_iff (look : IsLookup rs path hs) {m : Method} :
    firstOf? m hs = none ↔ ∀ h, ¬MatchesAs rs path m h := by
  rw [firstOf?, look.find?_eq_none_iff]
  simp [MatchesAs]

theorem isResolution_choose (look : IsLookup rs path hs) (r : HttpRouter α) (m : Method)
    (headers : Headers) : IsResolution rs m path headers (r.choose m headers hs) := by
  rw [choose_eq]
  split
  · next empty => exact .notFound (look.eq_nil_iff.1 (List.isEmpty_iff.1 empty))
  · next some_match =>
    split
    · next h first =>
      exact .matched ((firstOf?_eq_some_iff look).1 first) (isOf_select ..)
    · next none =>
      have other := (firstOf?_eq_none_iff look).1 none
      split
      · next h first =>
        obtain ⟨t, announced, first⟩ := Option.bind_eq_some_iff.1 first
        exact .preflight other (announcedMethod?_eq_some_iff.1 announced)
          ((firstOf?_eq_some_iff look).1 first) (isOf_select ..)
      · next none =>
        obtain ⟨h, mem⟩ := List.exists_mem_of_ne_nil hs (mt List.isEmpty_iff.2 some_match)
        refine .methodNotAllowed ((look.mem_iff h).1 mem) other ?_
        intro t announced
        have miss := Option.bind_eq_none_iff.1 none t (announcedMethod?_eq_some_iff.2 announced)
        exact (firstOf?_eq_none_iff look).1 miss

end

section

variable {r : HttpRouter α} {m : Method} {headers : Headers} {hs : List (RouteHit (Endpoint α))}

theorem choose_eq_notFound_iff : r.choose m headers hs = .notFound ↔ hs = [] := by
  rw [choose_eq]
  split
  · next empty => simp [List.isEmpty_iff.1 empty]
  · next full =>
    have ne : hs ≠ [] := by simpa using full
    split
    · simp [ne]
    · split <;> simp [ne]

theorem choose_eq_matched_iff {c : Selection α} :
    r.choose m headers hs = .matched c ↔
      ∃ h, firstOf? m hs = some h ∧ r.select m headers h = c := by
  rw [choose_eq]
  split
  · next empty =>
    rw [List.isEmpty_iff.1 empty]
    simp [firstOf?]
  · split
    · next h first => simp [first]
    · next none =>
      split <;> simp [none]

theorem choose_eq_preflight_iff {c : Selection α} :
    r.choose m headers hs = .preflight c ↔ firstOf? m hs = none ∧
      ∃ t h, Announces m headers t ∧ firstOf? t hs = some h ∧ r.select m headers h = c := by
  simp only [← announcedMethod?_eq_some_iff]
  rw [choose_eq]
  split
  · next empty =>
    rw [List.isEmpty_iff.1 empty]
    simp [firstOf?]
  · split
    · next h first => simp [first]
    · next none =>
      cases announced : announcedMethod? m headers with
      | none => simp
      | some t =>
        cases first : firstOf? t hs with
        | none => simp [first]
        | some h => simp [none, first]

theorem choose_eq_methodNotAllowed_iff :
    r.choose m headers hs = .methodNotAllowed ↔ hs ≠ [] ∧ firstOf? m hs = none ∧
      ∀ t, Announces m headers t → firstOf? t hs = none := by
  simp only [← announcedMethod?_eq_some_iff]
  rw [choose_eq]
  split
  · next empty => simp [List.isEmpty_iff.1 empty]
  · next full =>
    have ne : hs ≠ [] := by simpa using full
    split
    · next h first => simp [first]
    · next none =>
      cases announced : announcedMethod? m headers with
      | none => simp [ne, none]
      | some t =>
        cases first : firstOf? t hs with
        | none => simp [ne, none, first]
        | some h => simp [first]

end

/-- A valid router resolves every request as its routes say, whatever the caches hold. -/
theorem isResolution_resolve [SizeLimit] {r : HttpRouter α} (hr : r.routes.Valid) (m : Method)
    (path : String) (headers : Headers) (w : Workspace) :
    IsResolution r.routes.toList m path headers (r.resolve m path headers w).1 :=
  isResolution_choose (Router.isLookup_findAll hr path w) { r with routes := _ } m headers

end HttpRouter

namespace IsResolution

variable [SizeLimit] {rs : List (String × Endpoint α)} {m : Method} {path : String}
    {headers : Headers}
  {d : Resolution α}

theorem notFound_iff (hd : IsResolution rs m path headers d) :
    d = .notFound ↔ ∀ h, ¬Matches rs path h := by
  cases hd with
  | notFound miss => simpa using miss
  | @matched h c first hc => simpa using ⟨h, first.holds.1⟩
  | @preflight t h c other ht first hc => simpa using ⟨h, first.holds.1⟩
  | @methodNotAllowed h hm other miss => simpa using ⟨h, hm⟩

theorem matched_iff (hd : IsResolution rs m path headers d) :
    (∃ c, d = .matched c) ↔ ∃ h, MatchesAs rs path m h := by
  cases hd with
  | notFound miss => simpa using fun h hm => miss h hm.1
  | @matched h c first hc => simpa using ⟨h, first.holds⟩
  | preflight other ht first hc => simpa using other
  | methodNotAllowed hm other miss => simpa using other

theorem preflight_iff (hd : IsResolution rs m path headers d) :
    (∃ c, d = .preflight c) ↔ (∀ h, ¬MatchesAs rs path m h) ∧
      ∃ t, Announces m headers t ∧ ∃ h, MatchesAs rs path t h := by
  cases hd with
  | notFound miss =>
    refine ⟨nofun, ?_⟩
    rintro ⟨-, t, -, h, hm⟩
    exact absurd hm.1 (miss h)
  | @matched h c first hc =>
    refine ⟨nofun, ?_⟩
    intro ⟨other, _⟩
    exact absurd first.holds (other h)
  | @preflight t h c other ht first hc =>
    exact ⟨fun _ => ⟨other, t, ht, h, first.holds⟩, fun _ => ⟨c, rfl⟩⟩
  | methodNotAllowed hm other miss =>
    refine ⟨nofun, ?_⟩
    rintro ⟨-, t, ht, h, hm⟩
    exact absurd hm (miss t ht h)

theorem methodNotAllowed_iff (hd : IsResolution rs m path headers d) :
    d = .methodNotAllowed ↔ (∃ h, Matches rs path h) ∧ (∀ h, ¬MatchesAs rs path m h) ∧
      ∀ t, Announces m headers t → ∀ h, ¬MatchesAs rs path t h := by
  cases hd with
  | notFound miss =>
    refine ⟨nofun, ?_⟩
    rintro ⟨⟨h, hm⟩, -⟩
    exact absurd hm (miss h)
  | @matched h c first hc =>
    refine ⟨nofun, ?_⟩
    intro ⟨_, other, _⟩
    exact absurd first.holds (other h)
  | @preflight t h c other ht first hc =>
    refine ⟨nofun, ?_⟩
    intro ⟨_, _, miss⟩
    exact absurd first.holds (miss t ht h)
  | @methodNotAllowed h hm other miss => exact ⟨fun _ => ⟨⟨h, hm⟩, other, miss⟩, fun _ => rfl⟩

end IsResolution

namespace HttpSession

/-- A request is resolved by the routes that match its path: to none if there are none, else to the
most specific one of its method, else to the most specific one of the method that a preflight
announces. -/
theorem resolve_selects_first [SizeLimit] [Describe α] {s : HttpSession α} (hs : s.Reachable)
    (m : Method) (path : String) (headers : Headers) :
    let rs := s.router.routes.toList
    let d := (s.router.resolve m path headers s.workspace).1
    (d = .notFound ↔ ∀ h, ¬Matches rs path h) ∧
    ((∃ c, d = .matched c) ↔ ∃ h, MatchesAs rs path m h) ∧
    ((∃ c, d = .preflight c) ↔ (∀ h, ¬MatchesAs rs path m h) ∧
      ∃ t, Announces m headers t ∧ ∃ h, MatchesAs rs path t h) ∧
    (d = .methodNotAllowed ↔ (∃ h, Matches rs path h) ∧ (∀ h, ¬MatchesAs rs path m h) ∧
      ∀ t, Announces m headers t → ∀ h, ¬MatchesAs rs path t h) ∧
    (∀ c, d = .matched c → ∃ h, IsFirst (MatchesAs rs path m) h ∧ c.IsOf h) ∧
    (∀ c, d = .preflight c →
      ∃ t h, Announces m headers t ∧ IsFirst (MatchesAs rs path t) h ∧ c.IsOf h) := by
  intro rs d
  have hd : IsResolution rs m path headers d :=
    HttpRouter.isResolution_resolve hs.valid.routes m path headers s.workspace
  refine ⟨hd.notFound_iff, hd.matched_iff, hd.preflight_iff, hd.methodNotAllowed_iff, ?_, ?_⟩
  · intro c same
    rw [same] at hd
    cases hd with
    | @matched h c first hc => exact ⟨h, first, hc⟩
  · intro c same
    rw [same] at hd
    cases hd with
    | @preflight t h c other ht first hc => exact ⟨t, h, ht, first, hc⟩

open Unlimited

theorem resolve_selects_first_of_method :
    ∃ (s : HttpSession Nat) (c : Selection Nat), s.Reachable ∧
      (s.router.resolve Method.post "/a" [] s.workspace).1 = .matched c ∧
      c.index = 1 ∧ c.params = ⟨[("x", "a")]⟩ ∧
      ∃ h, IsFirst (MatchesAs s.router.routes.toList "/a" Method.post) h ∧ c.IsOf h := by
  have first : Reachable (empty.step (.insert "GET" "/a" 1 none true)).2 := .step _ .empty
  have both := Reachable.step (.insert "POST" "/:x" 2 none true) first
  have ⟨_, _, _, _, matched, _⟩ := resolve_selects_first both Method.post "/a" []
  exact ⟨_, _, both, rfl, rfl, rfl, matched _ rfl⟩

end HttpSession

end PatternRouter
