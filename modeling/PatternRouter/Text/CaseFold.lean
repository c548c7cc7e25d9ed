import PatternRouter.Text.FoldTable

namespace PatternRouter

/-- The folded form of a character: one character for one character. -/
def foldCase (c : Char) : Char :=
  if c.toNat < 128 then c.toLower
  else match foldRuns.find? (·.covers c.toNat) with
    | some r => Char.ofNat (c.toNat + r.shift).toNat
    | none => c

/-- Whether two characters differ at most in letter case. -/
def caseless (a b : Char) : Bool := a == b || foldCase a == foldCase b

theorem caseless_iff (a b : Char) : caseless a b = true ↔ foldCase a = foldCase b := by
  simp only [caseless, Bool.or_eq_true, beq_iff_eq, or_iff_right_iff_imp]
  rintro rfl; rfl

theorem caseless_refl (a : Char) : caseless a a = true := (caseless_iff a a).2 rfl

theorem caseless_symm {a b : Char} (h : caseless a b = true) : caseless b a = true :=
  (caseless_iff b a).2 ((caseless_iff a b).1 h).symm

theorem caseless_trans {a b c : Char} (h : caseless a b = true) (k : caseless b c = true) :
    caseless a c = true :=
  (caseless_iff a c).2 (((caseless_iff a b).1 h).trans ((caseless_iff b c).1 k))

/-- Whether two texts have the same length and agree up to letter case. -/
def caselessText : List Char → List Char → Bool
  | [], [] => true
  | a :: s, b :: t => caseless a b && caselessText s t
  | _, _ => false

end PatternRouter
