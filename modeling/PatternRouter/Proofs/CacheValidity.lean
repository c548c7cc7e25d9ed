import PatternRouter.Router.Workspace
import PatternRouter.Proofs.NodeMatching

namespace PatternRouter

theorem lookup_cons_eraseP {β : Type} (name other : String) (v : β) (l : List (String × β)) :
    ((name, v) :: l.eraseP (·.1 == name)).lookup other =
      if other = name then some v else l.lookup other := by
  by_cases h : other = name
  · simp [h]
  rw [if_neg h, List.lookup_cons, beq_eq_false_iff_ne.2 h]
  induction l with
  | nil => rfl
  | cons e l ih =>
    by_cases he : e.1 = name
    · have miss : (other == e.1) = false := by simpa [he] using h
      rw [List.eraseP_cons_of_pos (by simpa using he), List.lookup_cons, miss]
    · rw [List.eraseP_cons_of_neg (by simpa using he), List.lookup_cons, List.lookup_cons]
      cases other == e.1
      · exact ih
      · rfl

theorem Pattern.source_of_compile [SizeLimit] {source : String} {p : Pattern}
    (h : Pattern.compile source = .ok p) : p.source = source := by
  obtain ⟨nodes, -, -, rfl⟩ := Pattern.compile_eq_ok.1 h
  rfl

namespace Cache

variable [SizeLimit]

def Valid (c : Cache) : Prop := ∀ e ∈ c.entries, Pattern.compile e.1 = .ok e.2.value

theorem valid_empty : Cache.empty.Valid := fun _ he => absurd he List.not_mem_nil

theorem compile_of_get? {c : Cache} (hc : c.Valid) {source : String} {p : Shared Pattern}
    (h : c.get? source = some p) : Pattern.compile source = .ok p.value := by
  obtain ⟨l, r, hl, -⟩ := List.lookup_eq_some_iff.1 h
  exact hc (source, p) (by simp [hl])

theorem map_value_request {c : Cache} (hc : c.Valid) (source : String) (log : Journal) :
    (c.request source log).1.map Shared.value = Pattern.compile source := by
  unfold request
  split
  · next hit h => exact (compile_of_get? hc h).symm
  · split
    · next e h => exact h.symm
    · next p h => exact h.symm

theorem valid_request {c : Cache} (hc : c.Valid) (source : String) (log : Journal) :
    (c.request source log).2.1.Valid := by
  unfold request
  split
  · exact hc
  · split
    · exact hc
    · next p h =>
      intro e he
      rcases List.mem_append.1 he with he | he
      · exact hc e he
      · obtain rfl := List.mem_singleton.1 he
        exact h

theorem valid_requestAll {c : Cache} (hc : c.Valid) (sources : List String) (log : Journal) :
    (c.requestAll sources log).2.1.Valid := by
  induction sources generalizing c log with
  | nil => exact hc
  | cons s ss ih =>
    have one := valid_request hc s log
    rw [requestAll]
    split
    · next e c' log' h =>
      rw [h] at one
      exact one
    · next p c' log' h =>
      rw [h] at one
      have rest := ih one log'
      split
      · next e c'' log'' h' =>
        rw [h'] at rest
        exact rest
      · next ps c'' log'' h' =>
        rw [h'] at rest
        exact rest

end Cache

namespace Workspace

def Valid [SizeLimit] (w : Workspace) : Prop := ∀ name, (w.cache name).Valid

theorem valid_empty [SizeLimit] : Workspace.empty.Valid := fun _ => Cache.valid_empty

theorem cache_setCache (w : Workspace) (name other : String) (c : Cache) :
    (w.setCache name c).cache other = if other = name then c else w.cache other := by
  rw [cache, setCache, lookup_cons_eraseP]
  split <;> rfl

theorem valid_setCache [SizeLimit] {w : Workspace} (hw : w.Valid) (name : String) {c : Cache}
    (hc : c.Valid) : (w.setCache name c).Valid := by
  intro other
  rw [cache_setCache]
  split
  · exact hc
  · exact hw other

theorem valid_clearCache [SizeLimit] {w : Workspace} (hw : w.Valid) (name : String) :
    (w.clearCache name).Valid := valid_setCache hw name Cache.valid_empty

theorem valid_report [SizeLimit] {w : Workspace} (hw : w.Valid) (e : Event) :
    (w.report e).Valid := hw

theorem valid_request [SizeLimit] {w : Workspace} (hw : w.Valid) (name source : String) :
    (w.request name source).2.Valid :=
  valid_setCache (w := { w with journal := _ }) hw name (Cache.valid_request (hw name) source _)

theorem map_value_request [SizeLimit] {w : Workspace} (hw : w.Valid) (name source : String) :
    (w.request name source).1.map Shared.value = Pattern.compile source :=
  Cache.map_value_request (hw name) source w.journal

theorem valid_compileSorted [SizeLimit] {w : Workspace} (hw : w.Valid) (name : String)
    (sources : List String) : (w.compileSorted name sources).2.Valid :=
  valid_setCache (w := { w with journal := _ }) hw name
    (Cache.valid_requestAll (hw name) sources _)

end Workspace

end PatternRouter
