import Mathlib.Data.List.Induction
import PatternRouter.Event

namespace PatternRouter

variable {β : Type} {us : List β} {u : β}

/-- A history with one more entry is taken apart at this one or at an older one. -/
theorem concat_eq_append_cons_iff {before after : List β} {v : β} :
    us ++ [u] = before ++ v :: after ↔
      us = before ∧ u = v ∧ after = [] ∨
        ∃ between, us = before ++ v :: between ∧ after = between ++ [u] := by
  constructor
  · intro split
    rcases List.eq_nil_or_concat after with rfl | ⟨between, last, rfl⟩
    · obtain ⟨same, single⟩ := List.append_inj' split rfl
      exact .inl ⟨same, List.head_eq_of_cons_eq single, rfl⟩
    · rw [List.concat_eq_append, ← List.cons_append, ← List.append_assoc] at split
      obtain ⟨same, single⟩ := List.append_inj' split rfl
      obtain rfl := List.head_eq_of_cons_eq single
      exact .inr ⟨between, same, List.concat_eq_append⟩
  · rintro (⟨rfl, rfl, rfl⟩ | ⟨between, rfl, rfl⟩)
    · rfl
    · rw [List.append_assoc, List.cons_append]

theorem exists_mem_concat_iff {P : β → Prop} :
    (∃ v ∈ us ++ [u], P v) ↔ (∃ v ∈ us, P v) ∨ P u := by
  simp only [List.mem_append, List.mem_singleton, or_and_right, exists_or, exists_eq_left]

/-- Whether something was done and nothing after it undid it. -/
def Since (P Q : β → Prop) (us : List β) : Prop :=
  ∃ before u after, us = before ++ u :: after ∧ P u ∧ ∀ v ∈ after, ¬Q v

theorem not_since_nil {P Q : β → Prop} : ¬Since P Q [] := by
  rintro ⟨before, u, after, none, -⟩
  simp at none

theorem Since.exists_mem {P Q : β → Prop} (h : Since P Q us) : ∃ v ∈ us, P v := by
  obtain ⟨before, v, after, rfl, done, -⟩ := h
  exact ⟨v, by simp, done⟩

theorem since_concat_iff {P Q : β → Prop} :
    Since P Q (us ++ [u]) ↔ P u ∨ Since P Q us ∧ ¬Q u := by
  constructor
  · rintro ⟨before, v, after, split, done, kept⟩
    rcases concat_eq_append_cons_iff.1 split with ⟨-, rfl, -⟩ | ⟨between, rfl, rfl⟩
    · exact .inl done
    · rw [List.forall_mem_append, List.forall_mem_singleton] at kept
      exact .inr ⟨⟨before, v, between, rfl, done, kept.1⟩, kept.2⟩
  · rintro (done | ⟨⟨before, v, after, rfl, done, kept⟩, other⟩)
    · exact ⟨us, u, [], rfl, done, List.forall_mem_nil _⟩
    · refine ⟨before, v, after ++ [u], by simp, done, ?_⟩
      rw [List.forall_mem_append, List.forall_mem_singleton]
      exact ⟨kept, other⟩

/-- Whether each entry is one that may follow those before it. -/
def EachFollows (F : List β → β → Prop) (us : List β) : Prop :=
  ∀ before u after, us = before ++ u :: after → F before u

namespace EachFollows

variable {F : List β → β → Prop}

theorem nil : EachFollows F [] := by
  intro before u after none
  simp at none

theorem concat (h : EachFollows F us) (follows : F us u) : EachFollows F (us ++ [u]) := by
  intro before v after split
  rcases concat_eq_append_cons_iff.1 split with ⟨rfl, rfl, -⟩ | ⟨between, rfl, -⟩
  · exact follows
  · exact h before v between rfl

theorem of_append {vs : List β} (h : EachFollows F (us ++ vs)) : EachFollows F us := by
  rintro before u after rfl
  exact h before u (after ++ vs) (by simp)

theorem last (h : EachFollows F (us ++ [u])) : F us u := h us u [] rfl

/-- Where each entry gives at most one thing, be it one that was given before under its key or one
unlike all that were given, nothing is given under two keys. -/
theorem eq_of_id {κ τ : Type} (Gives : κ → Shared τ → β → Prop)
    (single : ∀ {u j k x y}, Gives j x u → Gives k y u → k = j ∧ y = x)
    (old_or_new : ∀ {us u j x}, F us u → Gives j x u →
      (∃ v ∈ us, Gives j x v) ∨ ∀ k y, (∃ v ∈ us, Gives k y v) → y.id ≠ x.id)
    (h : EachFollows F us) {j k : κ} {x y : Shared τ} (hx : ∃ v ∈ us, Gives j x v)
    (hy : ∃ v ∈ us, Gives k y v) (same : y.id = x.id) : k = j ∧ y = x := by
  induction us using List.reverseRecOn with
  | nil =>
    obtain ⟨_, none, -⟩ := hx
    cases none
  | append_singleton us u ih =>
    have last := h.last
    rw [exists_mem_concat_iff] at hx hy
    rcases hx, hy with ⟨hx | hx, hy | hy⟩
    · exact ih h.of_append hx hy
    · rcases old_or_new last hy with old | new
      · exact ih h.of_append hx old
      · exact absurd same.symm (new j x hx)
    · rcases old_or_new last hx with old | new
      · exact ih h.of_append old hy
      · exact absurd same (new k y hy)
    · exact single hx hy

end EachFollows

end PatternRouter
