import Mathlib.Data.List.Nodup

namespace PatternRouter

variable {β : Type} {l : List (String × β)} {key : String}

theorem lookup_eq_none_iff_notMem : l.lookup key = none ↔ ∀ v, (key, v) ∉ l := by
  rw [List.lookup_eq_none_iff]
  constructor
  · intro other v mem
    simpa using other (key, v) mem
  · intro miss p mem
    rw [bne_iff_ne]
    rintro rfl
    exact miss p.2 mem

theorem lookup_eq_some_iff_mem (h : (l.map Prod.fst).Nodup) {v : β} :
    l.lookup key = some v ↔ (key, v) ∈ l := by
  constructor
  · intro found
    obtain ⟨before, after, rfl, -⟩ := List.lookup_eq_some_iff.1 found
    simp
  · intro mem
    obtain ⟨before, after, rfl⟩ := List.append_of_mem mem
    refine List.lookup_eq_some_iff.2 ⟨before, after, rfl, ?_⟩
    intro p hp
    rw [bne_iff_ne]
    rintro rfl
    rw [List.map_append, List.map_cons, List.nodup_append] at h
    exact h.2.2 _ (List.mem_map_of_mem hp) _ List.mem_cons_self rfl

theorem lookup_concat_eq_some_iff (new : l.lookup key = none) {v found : β} {other : String} :
    (l ++ [(key, v)]).lookup other = some found ↔
      (other = key ∧ v = found) ∨ l.lookup other = some found := by
  rw [List.lookup_append, List.lookup_cons]
  by_cases here : other = key
  · simp [here, new]
  · simp [here, beq_eq_false_iff_ne.2 here]

theorem nodup_keys_concat (h : (l.map Prod.fst).Nodup) (new : l.lookup key = none) (v : β) :
    ((l ++ [(key, v)]).map Prod.fst).Nodup := by
  rw [List.map_append, List.nodup_append]
  refine ⟨h, by simp, ?_⟩
  intro a ha b hb same
  obtain ⟨e, he, rfl⟩ := List.mem_map.1 ha
  obtain rfl : b = key := by simpa using hb
  exact lookup_eq_none_iff_notMem.1 new e.2 (same ▸ he)

end PatternRouter
