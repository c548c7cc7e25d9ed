import PatternRouter.Router.Table
import PatternRouter.Proofs.Specificity

namespace PatternRouter

/-- Whether one pattern is tried before another. -/
def Ranked.Before (a b : Ranked) : Prop := comparePlaces a.place b.place = .lt

theorem insertRanked_perm (e : Ranked) (xs : List Ranked) :
    (insertRanked e xs).Perm (e :: xs) := by
  induction xs with
  | nil => exact .refl _
  | cons x xs ih =>
    rw [insertRanked]
    split
    · exact .refl _
    · exact (ih.cons x).trans (.swap ..)

theorem sortRanked_perm (es : List Ranked) : (sortRanked es).Perm es := by
  have step : ∀ (es t : List Ranked),
      (es.foldl (fun t e => insertRanked e t) t).Perm (t ++ es) := by
    intro es
    induction es with
    | nil => intro t; simp
    | cons e es ih =>
      intro t
      have moved : (e :: t ++ es).Perm (t ++ e :: es) := List.perm_middle.symm
      exact (ih _).trans (((insertRanked_perm e t).append_right es).trans moved)
  exact step es []

theorem insertRanked_ordered {e : Ranked} {xs : List Ranked} (hxs : xs.Pairwise Ranked.Before)
    (he : ∀ x ∈ xs, e.place ≠ x.place) : (insertRanked e xs).Pairwise Ranked.Before := by
  induction xs with
  | nil => simp [insertRanked]
  | cons x xs ih =>
    obtain ⟨hx, hxs⟩ := List.pairwise_cons.1 hxs
    rw [insertRanked]
    split
    · next lt =>
      refine List.pairwise_cons.2 ⟨?_, List.pairwise_cons.2 ⟨hx, hxs⟩⟩
      intro y hy
      rcases List.mem_cons.1 hy with rfl | hy
      · exact lt
      · exact Std.TransCmp.lt_trans lt (hx y hy)
    · next ge =>
      have gt : comparePlaces e.place x.place = .gt := by
        cases h : comparePlaces e.place x.place with
        | lt => exact absurd h ge
        | eq => exact absurd (Std.LawfulEqCmp.eq_of_compare h) (he x (List.mem_cons_self ..))
        | gt => rfl
      refine List.pairwise_cons.2 ⟨?_, ih hxs fun y hy => he y (List.mem_cons_of_mem _ hy)⟩
      intro y hy
      rcases List.mem_cons.1 ((insertRanked_perm e xs).mem_iff.1 hy) with rfl | hy
      · exact Std.OrientedCmp.lt_of_gt gt
      · exact hx y hy

theorem sortRanked_ordered {es : List Ranked} (h : (es.map Ranked.place).Nodup) :
    (sortRanked es).Pairwise Ranked.Before := by
  have step : ∀ (es t : List Ranked), ((t ++ es).map Ranked.place).Nodup →
      t.Pairwise Ranked.Before →
      (es.foldl (fun t e => insertRanked e t) t).Pairwise Ranked.Before := by
    intro es
    induction es with
    | nil => exact fun t _ ht => ht
    | cons e es ih =>
      intro t hd ht
      have moved : (insertRanked e t ++ es).Perm (t ++ e :: es) :=
        ((insertRanked_perm e t).append_right es).trans List.perm_middle.symm
      refine ih _ ((moved.map _).nodup_iff.2 hd) (insertRanked_ordered ht ?_)
      intro x hx same
      rw [List.map_append, List.nodup_append] at hd
      exact hd.2.2 x.place (List.mem_map_of_mem hx) e.place (by simp) same.symm
  exact step es [] h .nil

/-- Entries can be in order in one way only. -/
theorem eq_of_ordered {es fs : List Ranked} (same : es.Perm fs) (he : es.Pairwise Ranked.Before)
    (hf : fs.Pairwise Ranked.Before) : es = fs := by
  apply same.eq_of_pairwise ?_ he hf
  intro a b _ _ lt gt
  exact absurd gt (comparePlaces_asymm lt)

/-- To put entries in place one by one comes to the same as to sort them by merging. -/
theorem sortRanked_eq_mergeSort {es : List Ranked} (h : (es.map Ranked.place).Nodup) :
    sortRanked es = es.mergeSort fun a b => (comparePlaces a.place b.place).isLE := by
  have perm := List.mergeSort_perm es fun a b => (comparePlaces a.place b.place).isLE
  have total : ∀ a b : Ranked,
      ((comparePlaces a.place b.place).isLE || (comparePlaces b.place a.place).isLE) = true := by
    intro a b
    have swap : comparePlaces b.place a.place = (comparePlaces a.place b.place).swap :=
      Std.OrientedCmp.eq_swap
    rw [swap]
    cases comparePlaces a.place b.place <;> rfl
  have merged := List.pairwise_mergeSort (fun _ _ _ => Std.TransCmp.isLE_trans) total es
  have distinct := List.pairwise_map.1 ((perm.map Ranked.place).nodup_iff.2 h)
  apply eq_of_ordered ((sortRanked_perm es).trans perm.symm) (sortRanked_ordered h)
  refine merged.imp₂ ?_ distinct
  intro a b le ne
  cases hc : comparePlaces a.place b.place with
  | lt => exact hc
  | eq => exact absurd (Std.LawfulEqCmp.eq_of_compare hc) ne
  | gt => rw [hc] at le; cases le

namespace RouteTable

theorem ofPatterns_perm (version : Nat) (ps : List Pattern) :
    (ofPatterns version ps).entries.Perm (ps.zipIdx.map fun p => ⟨p.2, p.1⟩) := sortRanked_perm _

theorem map_index_ofPatterns_perm (version : Nat) (ps : List Pattern) :
    ((ofPatterns version ps).entries.map Ranked.index).Perm (List.range ps.length) := by
  have perm := (ofPatterns_perm version ps).map Ranked.index
  have indices : ps.zipIdx.map Prod.snd = List.range ps.length := by
    rw [List.zipIdx_map_snd, List.range_eq_range']
  rw [List.map_map] at perm
  rw [← indices]
  exact perm

theorem nodup_places (ps : List Pattern) :
    ((ps.zipIdx.map fun p => (⟨p.2, p.1⟩ : Ranked)).map Ranked.place).Nodup := by
  have indices : ps.zipIdx.Pairwise fun a b => a.2 ≠ b.2 := by
    apply List.pairwise_map.1
    rw [← List.Nodup, List.zipIdx_map_snd]
    exact List.nodup_range'
  rw [List.map_map]
  exact List.pairwise_map.2 (indices.imp fun ne same => ne (congrArg Place.index same))

/-- The entries of a table are the patterns under their registration indices. -/
theorem mem_ofPatterns {version : Nat} {ps : List Pattern} {e : Ranked} :
    e ∈ (ofPatterns version ps).entries ↔ ps[e.index]? = some e.pattern := by
  rw [(ofPatterns_perm version ps).mem_iff, List.mem_map]
  constructor
  · rintro ⟨⟨p, i⟩, hp, rfl⟩
    exact List.mem_zipIdx_iff_getElem?.1 hp
  · intro h
    exact ⟨(e.pattern, e.index), List.mem_zipIdx_iff_getElem?.2 h, rfl⟩

theorem ofPatterns_ordered (version : Nat) (ps : List Pattern) :
    (ofPatterns version ps).entries.Pairwise Ranked.Before := sortRanked_ordered (nodup_places ps)

theorem lt_of_before {version : Nat} {ps : List Pattern} {i j : Nat} {e f : Ranked}
    (hi : (ofPatterns version ps).entries[i]? = some e)
    (hj : (ofPatterns version ps).entries[j]? = some f) (before : e.Before f) : i < j := by
  obtain ⟨bound, rfl⟩ := List.getElem?_eq_some_iff.1 hi
  obtain ⟨bound', rfl⟩ := List.getElem?_eq_some_iff.1 hj
  have sorted := List.pairwise_iff_getElem.1 (ofPatterns_ordered version ps)
  rcases Nat.lt_trichotomy i j with lt | rfl | gt
  · exact lt
  · exact absurd before (comparePlaces_irrefl _)
  · have after := sorted j i bound' bound gt
    exact absurd after (comparePlaces_asymm before)

theorem lt_iff_before {version : Nat} {ps : List Pattern} {i j : Nat} {e f : Ranked}
    (hi : (ofPatterns version ps).entries[i]? = some e)
    (hj : (ofPatterns version ps).entries[j]? = some f) : i < j ↔ e.Before f := by
  constructor
  · intro lt
    obtain ⟨bound, rfl⟩ := List.getElem?_eq_some_iff.1 hi
    obtain ⟨bound', rfl⟩ := List.getElem?_eq_some_iff.1 hj
    exact List.pairwise_iff_getElem.1 (ofPatterns_ordered version ps) i j bound bound' lt
  · exact lt_of_before hi hj

/-- A table holds each pattern once, under the number of patterns before it in the list. Of two
entries the more specific one stands first, and of two of one shape the one of the later pattern.
The same entries can stand so in no other way. -/
theorem ofPatterns_only_order (version : Nat) (ps : List Pattern) :
    let entries := (ofPatterns version ps).entries
    let pairs := ps.zipIdx.map fun p => (⟨p.2, p.1⟩ : Ranked)
    entries.Perm pairs ∧ (entries.map Ranked.index).Perm (List.range ps.length) ∧
      (∀ e, e ∈ entries ↔ ps[e.index]? = some e.pattern) ∧
      (∀ (i j : Nat) (e f : Ranked), entries[i]? = some e → entries[j]? = some f →
        (i < j ↔ comparePlaces e.place f.place = .lt) ∧
        (e.pattern.shape = f.pattern.shape → (i < j ↔ f.index < e.index))) ∧
      ∀ others : List Ranked, others.Perm pairs →
        (∀ (i j : Nat) (e f : Ranked), others[i]? = some e → others[j]? = some f → i < j →
          comparePlaces e.place f.place = .lt) → others = entries := by
  intro entries pairs
  refine ⟨ofPatterns_perm version ps, map_index_ofPatterns_perm version ps,
    fun _ => mem_ofPatterns, ?_, ?_⟩
  · intro i j e f hi hj
    have first : i < j ↔ comparePlaces e.place f.place = .lt := lt_iff_before hi hj
    refine ⟨first, ?_⟩
    intro same
    have tie : compareShapes e.place.shape f.place.shape = .eq := compareShapes_eq_eq_iff.2 same
    rw [first, comparePlaces, tie, Ordering.then]
    exact Nat.compare_eq_lt
  · intro others perm ordered
    have sorted : others.Pairwise Ranked.Before := by
      apply List.pairwise_iff_getElem.2
      intro i j bound bound' lt
      exact ordered i j _ _ (List.getElem?_eq_getElem bound) (List.getElem?_eq_getElem bound') lt
    exact eq_of_ordered (perm.trans (ofPatterns_perm version ps).symm) sorted
      (ofPatterns_ordered version ps)

open Unlimited

/-- Of two parameters in one place the later one is tried first, and a literal before both. -/
example :
    (["/a/:x", "/a/b", "/a/:y"].mapM Pattern.compile).toOption.map
      (fun ps => (ofPatterns 0 ps).entries.map Ranked.index) = some [1, 2, 0] := by decide

end RouteTable

end PatternRouter
