import PatternRouter.Proofs.SegmentMatching

namespace PatternRouter

theorem overwrite_of_notMem {name value : String} {es : List (String × String)}
    (h : name ∉ es.map Prod.fst) : overwrite name value es = es ++ [(name, value)] := by
  induction es with
  | nil => rfl
  | cons e es ih =>
    simp only [List.map_cons, List.mem_cons, not_or] at h
    have other : ¬e.1 = name := fun same => h.1 same.symm
    rw [overwrite, if_neg other, ih h.2, List.cons_append]

/-- A name that is new goes to the end if it has a value, and changes nothing otherwise. -/
theorem Params.entries_set_of_notMem {p : Params} {name : String}
    (h : name ∉ p.entries.map Prod.fst) (o : Option String) :
    (p.set name o).entries = p.entries ++ (o.map (name, ·)).toList := by
  cases o with
  | some value => exact overwrite_of_notMem h
  | none =>
    have unset : p.entries.eraseP (·.1 == name) = p.entries := by
      apply List.eraseP_of_forall_not
      intro e he same
      have mem := List.mem_map_of_mem (f := Prod.fst) he
      rw [beq_iff_eq.1 same] at mem
      exact h mem
    simpa [Params.set] using unset

theorem Params.contains_iff {p : Params} {name : String} :
    p.contains name = true ↔ name ∈ p.entries.map Prod.fst := by
  rw [contains, get?, List.lookup_isSome_iff, List.mem_map]
  constructor
  · intro found
    obtain ⟨e, he, same⟩ := found
    exact ⟨e, he, (beq_iff_eq.1 same).symm⟩
  · intro found
    obtain ⟨e, he, rfl⟩ := found
    exact ⟨e, he, beq_self_eq_true e.1⟩

theorem lookup_eq_none_of_notMem {name : String} {es : List (String × String)}
    (h : name ∉ es.map Prod.fst) : es.lookup name = none := by
  apply List.lookup_eq_none_iff.2
  intro e he
  apply bne_iff_ne.2
  rintro rfl
  exact h (List.mem_map_of_mem he)

namespace Bindings

/-- What is handed over of a binding: its name and value, if it has a value. -/
def pair? (b : String × Option (List Char)) : Option (String × String) :=
  b.2.map fun v => (b.1, String.ofList v)

theorem mem_of_mem_pairs {name : String} {bs : Bindings}
    (h : name ∈ (bs.filterMap pair?).map Prod.fst) : name ∈ bs.map Prod.fst := by
  obtain ⟨e, he, rfl⟩ := List.mem_map.1 h
  obtain ⟨b, hb, same⟩ := List.mem_filterMap.1 he
  obtain ⟨v, -, rfl⟩ := Option.map_eq_some_iff.1 same
  exact List.mem_map_of_mem hb

theorem entries_params {bs : Bindings} (h : (bs.map Prod.fst).Nodup) :
    bs.params.entries = bs.filterMap pair? := by
  have fold : ∀ (cs : Bindings) (p : Params), (cs.map Prod.fst).Nodup →
      (∀ name ∈ cs.map Prod.fst, name ∉ p.entries.map Prod.fst) →
      (cs.foldl (fun p b => p.set b.1 (b.2.map String.ofList)) p).entries =
        p.entries ++ cs.filterMap pair? := by
    intro cs
    induction cs with
    | nil => intro p _ _; simp
    | cons b cs ih =>
      intro p hd hp
      simp only [List.map_cons, List.nodup_cons] at hd
      have step := Params.entries_set_of_notMem (hp b.1 (by simp)) (b.2.map String.ofList)
      have later : ∀ name ∈ cs.map Prod.fst,
          name ∉ (p.set b.1 (b.2.map String.ofList)).entries.map Prod.fst := by
        intro name hn mem
        rw [step, List.map_append, List.mem_append] at mem
        rcases mem with mem | mem
        · exact hp name (by simp [hn]) mem
        · cases hb : b.2 with
          | none => simp [hb] at mem
          | some v =>
            have same : name = b.1 := by simpa [hb] using mem
            exact hd.1 (same ▸ hn)
      rw [List.foldl_cons, ih _ hd.2 later, step, List.append_assoc]
      cases hb : b.2 <;> simp [pair?, hb]
  have all := fold bs Params.empty h (by simp [Params.empty])
  simpa [params, Params.empty] using all

theorem lookup_pairs {bs : Bindings} (h : (bs.map Prod.fst).Nodup) {name : String}
    {o : Option (List Char)} (hb : (name, o) ∈ bs) :
    (bs.filterMap pair?).lookup name = o.map String.ofList := by
  induction bs with
  | nil => cases hb
  | cons b bs ih =>
    simp only [List.map_cons, List.nodup_cons] at h
    rcases List.mem_cons.1 hb with rfl | hb
    · cases o with
      | some v => simp [pair?]
      | none =>
        rw [List.filterMap_cons_none rfl]
        exact lookup_eq_none_of_notMem fun mem => h.1 (mem_of_mem_pairs mem)
    · have other : (name == b.1) = false := by
        apply beq_false_of_ne
        rintro rfl
        exact h.1 (List.mem_map.2 ⟨_, hb, rfl⟩)
      cases hv : b.2 with
      | none => simpa [pair?, hv] using ih h.2 hb
      | some v => simpa [pair?, hv, List.lookup_cons, other] using ih h.2 hb

theorem get?_params {bs : Bindings} (h : (bs.map Prod.fst).Nodup) {name : String}
    {o : Option (List Char)} (hb : (name, o) ∈ bs) :
    bs.params.get? name = o.map String.ofList := by
  rw [Params.get?, entries_params h, lookup_pairs h hb]

end Bindings

end PatternRouter
