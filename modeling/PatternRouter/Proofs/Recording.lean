namespace PatternRouter

variable {ι β γ : Type}

/-- Whether a computation has this result and notes just these things on the way. -/
def Records (x : StateM (List ι) β) (y : β) (notes : List ι) : Prop :=
  ∀ log, Id.run (x.run log) = (y, log ++ notes)

namespace Records

theorem pure (y : β) : Records (pure y : StateM (List ι) β) y [] := by
  intro log
  rw [List.append_nil]
  rfl

theorem note (n : ι) (y : β) :
    Records (do modify (· ++ [n]); return y : StateM (List ι) β) y [n] := fun _ => rfl

theorem bind {x : StateM (List ι) β} {y : β} {notes later : List ι} (hx : Records x y notes)
    {f : β → StateM (List ι) γ} {z : γ} (hf : Records (f y) z later) :
    Records (x >>= f) z (notes ++ later) := by
  intro log
  change (let r := Id.run (x.run log); Id.run ((f r.1).run r.2)) = _
  rw [hx log, ← List.append_assoc]
  exact hf (log ++ notes)

theorem map {x : StateM (List ι) β} {y : β} {notes : List ι} (hx : Records x y notes)
    (f : β → γ) : Records (do let r ← x; return f r) (f y) notes := by
  have mapped := hx.bind (f := fun r => Pure.pure (f r)) (Records.pure (f y))
  rwa [List.append_nil] at mapped

end Records

end PatternRouter
