import Mathlib.Data.List.Nodup
import PatternRouter.Proofs.Registry
import PatternRouter.Proofs.TrailingRest

namespace PatternRouter

variable {α : Type}

section

variable {rs : List (String × α)} {t : String × α} {p : Pattern} {path : String}

theorem matches_concat [SizeLimit] {h : RouteHit α} :
    Matches (rs ++ [t]) path h ↔
      Matches rs path h ∨ Matches (rs ++ [t]) path h ∧ h.index = rs.length := by
  by_cases old : h.index < rs.length
  · have route : (rs ++ [t])[h.index]? = rs[h.index]? := List.getElem?_append_left old
    have other : h.index ≠ rs.length := by omega
    simp [Matches, route, other]
  · have none : rs[h.index]? = none := List.getElem?_eq_none (by omega)
    have never : ¬Matches rs path h := by simp [Matches, none]
    simp only [never, false_or, iff_self_and]
    intro hm
    have bound := (List.getElem?_eq_some_iff.1 hm.1).1
    rw [List.length_append, List.length_singleton] at bound
    omega

theorem data_of_index_eq_length [SizeLimit] {h : RouteHit α} (hm : Matches (rs ++ [t]) path h)
    (hi : h.index = rs.length) : (h.source, h.data) = t := by
  have route := hm.1
  rw [hi, List.getElem?_concat_length] at route
  exact (Option.some.inj route).symm

theorem exists_matches_concat [SizeLimit] (hp : Pattern.compile t.1 = .ok p) :
    (∃ h, Matches (rs ++ [t]) path h ∧ h.index = rs.length) ↔ p.Accepts path := by
  rw [Pattern.Accepts, Option.isSome_iff_exists]
  constructor
  · intro found
    obtain ⟨h, hm, hi⟩ := found
    obtain ⟨q, hq, captured⟩ := hm.2
    have source : h.source = t.1 := congrArg Prod.fst (data_of_index_eq_length hm hi)
    rw [source] at hq
    obtain rfl := Except.ok.inj (hp.symm.trans hq)
    exact ⟨_, captured⟩
  · intro captured
    obtain ⟨params, captured⟩ := captured
    exact ⟨⟨rs.length, t.1, t.2, params⟩, ⟨List.getElem?_concat_length, p, hp, captured⟩, rfl⟩

theorem IsLookup.eq_of_not_accepts [SizeLimit] {hs hs' : List (RouteHit α)}
    (look : IsLookup rs path hs)
    (look' : IsLookup (rs ++ [t]) path hs') (hp : Pattern.compile t.1 = .ok p)
    (miss : ¬p.Accepts path) : hs' = hs := by
  have same : Matches (rs ++ [t]) path = Matches rs path := by
    funext h
    apply propext
    rw [matches_concat, or_iff_left]
    intro new
    exact miss ((exists_matches_concat hp).1 ⟨h, new⟩)
  have members := look'.mem_iff
  rw [same] at members
  exact IsLookup.unique ⟨members, look'.once, look'.ordered⟩ look

theorem IsLookup.ne_nil_of_accepts [SizeLimit] {hs : List (RouteHit α)}
    (look : IsLookup (rs ++ [t]) path hs)
    (hp : Pattern.compile t.1 = .ok p) (hit : p.Accepts path) : hs ≠ [] := by
  intro empty
  obtain ⟨h, new, -⟩ := (exists_matches_concat hp).2 hit
  exact look.eq_nil_iff.1 empty h new

theorem Matches.index_lt [SizeLimit] {h : RouteHit α} (hm : Matches rs path h) :
    h.index < rs.length :=
  (List.getElem?_eq_some_iff.1 hm.1).1

/-- A new route comes after an older one just if that one is more specific. -/
theorem RouteHit.before_iff_of_index_lt {h k : RouteHit α} (older : h.index < k.index) :
    h.Before k ↔ compareShapes (shapeOf h.source) (shapeOf k.source) = .lt := by
  rw [RouteHit.Before, comparePlaces_eq_lt_iff]
  have first : ¬k.place.index < h.place.index := Nat.not_lt_of_gt older
  simp only [first, and_false, or_false]
  rfl

theorem IsLookup.of_concat [SizeLimit] {more less : List (RouteHit α)} {new : RouteHit α}
    (look : IsLookup (rs ++ [t]) path (more ++ new :: less)) (hi : new.index = rs.length) :
    IsLookup rs path (more ++ less) := by
  have sub : (more ++ less).Sublist (more ++ new :: less) :=
    (List.Sublist.refl more).append (List.sublist_cons_self new less)
  have once := look.once
  rw [List.map_append, List.map_cons, List.nodup_middle, ← List.map_append, List.nodup_cons] at once
  refine ⟨?_, once.2, look.ordered.sublist sub⟩
  intro h
  constructor
  · intro mem
    rcases matches_concat.1 ((look.mem_iff h).1 (sub.subset mem)) with old | ⟨-, last⟩
    · exact old
    · have same : h.index ∈ (more ++ less).map RouteHit.index := List.mem_map_of_mem mem
      rw [last, ← hi] at same
      exact absurd same once.1
  · intro hm
    have mem := (look.mem_iff h).2 (matches_concat.2 (.inl hm))
    rw [List.mem_append, List.mem_cons] at mem
    rcases mem with mem | rfl | mem
    · exact List.mem_append_left less mem
    · exact absurd hm.index_lt (by omega)
    · exact List.mem_append_right more mem

/-- A lookup of the longer list is the old one with the new route at its place. -/
theorem IsLookup.exists_split [SizeLimit] {hs hs' : List (RouteHit α)} (look : IsLookup rs path hs)
    (look' : IsLookup (rs ++ [t]) path hs') (hp : Pattern.compile t.1 = .ok p) {params : Params}
    (captured : p.capture? (Path.normalize path) = some params) :
    ∃ more less, hs = more ++ less ∧ hs' = more ++ ⟨rs.length, t.1, t.2, params⟩ :: less ∧
      (∀ h ∈ more, compareShapes (shapeOf h.source) p.shape = .lt) ∧
      ∀ h ∈ less, compareShapes (shapeOf h.source) p.shape ≠ .lt := by
  let new : RouteHit α := ⟨rs.length, t.1, t.2, params⟩
  have matched : Matches (rs ++ [t]) path new := ⟨List.getElem?_concat_length, p, hp, captured⟩
  obtain ⟨more, less, rfl⟩ := List.append_of_mem ((look'.mem_iff new).2 matched)
  have old := look'.of_concat rfl
  have before : ∀ h ∈ more ++ less,
      h.Before new ↔ compareShapes (shapeOf h.source) p.shape = .lt := by
    intro h mem
    have older : h.index < new.index := ((old.mem_iff h).1 mem).index_lt
    rw [Pattern.shape_of_compile hp, RouteHit.before_iff_of_index_lt older]
  obtain ⟨-, later, earlier⟩ := List.pairwise_append.1 look'.ordered
  refine ⟨more, less, look.unique old, rfl, ?_, ?_⟩
  · intro h mem
    exact (before h (List.mem_append_left less mem)).1 (earlier h mem new (List.mem_cons_self ..))
  · intro h mem
    have after : new.Before h := List.rel_of_pairwise_cons later mem
    exact (not_congr (before h (List.mem_append_right more mem))).1 (comparePlaces_asymm after)

end

namespace RouterSession

/-- After a route was registered, a lookup finds what it found before and, where the new pattern
matches, the new route besides: after the matches that are more specific than it, and before those
that are as specific or less. -/
theorem insertion_extends_lookups [SizeLimit] [Describe α] (as : List (RouterStep α))
    (name source : String) (data : α) (strict : Bool) {n : Nat}
    (done : (((empty : RouterSession α).run as).2.step (.insert name source data strict)).1 =
      .inserted n) :
    let s := ((empty : RouterSession α).run as).2
    let s' := (s.step (.insert name source data strict)).2
    let i := (s.router name).size
    ∃ p, Pattern.compile source = .ok p ∧ ∀ path, ∃ hs,
      (s.step (.findAll name path)).1 = .foundAll hs ∧ (∀ h ∈ hs, h.index < i) ∧
        match p.capture? (Path.normalize path) with
        | none => (s'.step (.findAll name path)).1 = .foundAll hs
        | some params => ∃ more less, hs = more ++ less ∧
            (s'.step (.findAll name path)).1 =
              .foundAll (more ++ ⟨i, source, data, params⟩ :: less) ∧
            (∀ h ∈ more, compareShapes (shapeOf h.source) p.shape = .lt) ∧
            ∀ h ∈ less, compareShapes (shapeOf h.source) p.shape ≠ .lt := by
  intro s s' i
  have kept : s.Keeps (Registry.empty.run as) := keeps_run keeps_empty as
  have kept' := keeps_step kept (.insert name source data strict)
  have answer := answers_step kept (.insert name source data strict)
  rw [done] at answer
  cases hp : Pattern.compile source with
  | error e =>
    simp only [Registry.Answers, hp] at answer
    cases answer
  | ok p =>
    simp only [Registry.step, hp] at kept'
    have routes : (s'.router name).toList = (s.router name).toList ++ [(source, data)] := by
      rw [kept'.routes, kept.routes, Registry.set, if_pos rfl]
    refine ⟨p, rfl, fun path => ?_⟩
    have look := Router.isLookup_findAll (kept.valid name) path s.workspace
    have look' := Router.isLookup_findAll (kept'.valid name) path s'.workspace
    rw [routes] at look'
    have size : (s.router name).toList.length = i := Router.length_toList _
    refine ⟨_, rfl, fun h mem => ?_, ?_⟩
    · rw [← size]
      exact ((look.mem_iff h).1 mem).index_lt
    · split
      · next missed =>
        have miss : ¬p.Accepts path := by simp [Pattern.Accepts, missed]
        exact congrArg RouterReply.foundAll (look.eq_of_not_accepts look' hp miss)
      · next params captured =>
        obtain ⟨more, less, before, after, shapes⟩ := look.exists_split look' hp captured
        rw [size] at after
        exact ⟨more, less, before, congrArg RouterReply.foundAll after, shapes⟩

open Unlimited

theorem insertion_extends_lookups_between :
    let s := ((empty : RouterSession Nat).run
      [.insert "main" "/a/:x" 1 true, .insert "main" "/a/b" 2 true]).2
    let s' := (s.step (.insert "main" "/a/:y" 3 true)).2
    (s.step (.insert "main" "/a/:y" 3 true)).1 = .inserted 3 ∧
      ∃ more less, (s.step (.findAll "main" "/a/b")).1 = .foundAll (more ++ less) ∧
        (s'.step (.findAll "main" "/a/b")).1 =
          .foundAll (more ++ ⟨2, "/a/:y", 3, ⟨[("y", "b")]⟩⟩ :: less) ∧
        (∀ h ∈ more, compareShapes (shapeOf h.source) [.literal, .required] = .lt) ∧
        ∀ h ∈ less, compareShapes (shapeOf h.source) [.literal, .required] ≠ .lt := by
  intro s s'
  have compiled : Pattern.compile "/a/:y" =
      .ok ⟨"/a/:y", [.literal "a", .named "y" false], _, _⟩ :=
    Pattern.compile_eq_ok.2 ⟨[.literal "a", .named "y" false], rfl, rfl, rfl⟩
  have done : (s.step (.insert "main" "/a/:y" 3 true)).1 = .inserted 3 := rfl
  obtain ⟨p, hp, grown⟩ := insertion_extends_lookups _ _ _ _ _ done
  obtain rfl := Except.ok.inj (hp.symm.trans compiled)
  obtain ⟨hs, found, -, more, less, rfl, found', shapes⟩ := grown "/a/b"
  exact ⟨done, more, less, found, found', shapes⟩

example :
    (((empty : RouterSession Nat).run
      [.insert "main" "/a/:x" 1 true, .insert "main" "/a/b" 2 true, .insert "main" "/a/:y" 3 true,
        .findAll "main" "/a/b"]).1.getLast?.map fun
      | .foundAll hs => hs.map RouteHit.index
      | _ => []) = some [1, 2, 0] := by decide

end RouterSession

end PatternRouter
