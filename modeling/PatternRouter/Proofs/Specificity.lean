import Mathlib.Data.List.Forall2
import PatternRouter.Pattern.Specificity

namespace PatternRouter

/-- The ranks of a shape, and after them the mark of its end. -/
def endMarked (a : Shape) : List Nat := a.map Node.Kind.rank ++ [4]

theorem rank_lt_endMark (k : Node.Kind) : k.rank < 4 := by
  cases k <;> decide

theorem compareShapes_eq_compare (a b : Shape) :
    compareShapes a b = compare (endMarked a) (endMarked b) := by
  induction a generalizing b with
  | nil =>
    cases b with
    | nil => rfl
    | cons y b =>
      have later : compare 4 y.rank = .gt := Nat.compare_eq_gt.2 (rank_lt_endMark y)
      change Ordering.gt = compare ([4] : List Nat) (y.rank :: endMarked b)
      rw [List.compare_cons_cons, later]
      rfl
  | cons x a ih =>
    cases b with
    | nil =>
      have earlier : compare x.rank 4 = .lt := Nat.compare_eq_lt.2 (rank_lt_endMark x)
      change Ordering.lt = compare (x.rank :: endMarked a) ([4] : List Nat)
      rw [List.compare_cons_cons, earlier]
      rfl
    | cons y b =>
      change (compare x.rank y.rank).then (compareShapes a b) =
        compare (x.rank :: endMarked a) (y.rank :: endMarked b)
      rw [List.compare_cons_cons, ih]

theorem compareShapes_eq_lt {a b : Shape} (h : List.Forall₂ (fun x y => x.rank ≤ y.rank) a b)
    (ne : a ≠ b) : compareShapes a b = .lt := by
  induction h with
  | nil => exact absurd rfl ne
  | @cons x y a b le _ ih =>
    rw [compareShapes]
    rcases Nat.lt_or_eq_of_le le with lt | same
    · rw [Nat.compare_eq_lt.2 lt]
      rfl
    · obtain rfl := Node.Kind.rank_injective same
      have later : a ≠ b := fun rest => ne (congrArg (x :: ·) rest)
      rw [Nat.compare_eq_eq.2 rfl, ih later]
      rfl

theorem endMarked_injective {a b : Shape} (h : endMarked a = endMarked b) : a = b := by
  have ranks : a.map Node.Kind.rank = b.map Node.Kind.rank := List.append_cancel_right h
  exact (List.map_inj_right fun _ _ => Node.Kind.rank_injective).1 ranks

theorem compareShapes_eq_eq_iff {a b : Shape} : compareShapes a b = .eq ↔ a = b := by
  rw [compareShapes_eq_compare, Std.LawfulEqOrd.compare_eq_iff_eq]
  constructor
  · exact endMarked_injective
  · intro same
    rw [same]

/-- Whether what stands at a place of one shape is more specific than what stands there in another;
the end of a shape is less specific than every kind of node. -/
def MoreSpecific : Option Node.Kind → Option Node.Kind → Prop
  | some x, some y => x.rank < y.rank
  | some _, none => True
  | none, _ => False

theorem compareShapes_eq_lt_iff {a b : Shape} :
    compareShapes a b = .lt ↔
      ∃ i : Nat, (∀ j, j < i → a[j]? = b[j]?) ∧ MoreSpecific a[i]? b[i]? := by
  -- The recursion is that of `compareShapes`: a difference at the first place decides, and else the
  -- places of the rest are one further on.
  induction a generalizing b with
  | nil =>
    constructor
    · intro lt
      cases b <;> cases lt
    · rintro ⟨i, -, more⟩
      cases more
  | cons x a ih =>
    cases b with
    | nil =>
      constructor
      · intro _
        exact ⟨0, nofun, trivial⟩
      · intro _
        rfl
    | cons y b =>
      rw [compareShapes, Ordering.then_eq_lt, Nat.compare_eq_lt, Nat.compare_eq_eq, ih]
      constructor
      · rintro (lt | ⟨same, i, alike, more⟩)
        · exact ⟨0, nofun, lt⟩
        · obtain rfl := Node.Kind.rank_injective same
          refine ⟨i + 1, ?_, more⟩
          intro j bound
          cases j with
          | zero => rfl
          | succ j => exact alike j (Nat.lt_of_succ_lt_succ bound)
      · rintro ⟨i, alike, more⟩
        cases i with
        | zero => exact .inl more
        | succ i =>
          have same : some x = some y := alike 0 (Nat.succ_pos i)
          refine .inr ⟨congrArg Node.Kind.rank (Option.some.inj same), i, ?_, more⟩
          intro j bound
          exact alike (j + 1) (Nat.succ_lt_succ bound)

theorem compareShapes_append {a b : Shape} (ne : b ≠ []) : compareShapes (a ++ b) a = .lt := by
  obtain ⟨x, b, rfl⟩ := List.exists_cons_of_ne_nil ne
  refine compareShapes_eq_lt_iff.2 ⟨a.length, ?_, ?_⟩
  · intro j bound
    exact List.getElem?_append_left bound
  · rw [List.getElem?_append_right (Nat.le_refl _), Nat.sub_self, List.getElem?_cons_zero,
      List.getElem?_eq_none (Nat.le_refl _)]
    trivial

theorem compareShapes_eq_compareOn : compareShapes = compareOn endMarked := by
  funext a b
  exact compareShapes_eq_compare a b

instance : Std.TransCmp compareShapes := by
  rw [compareShapes_eq_compareOn]
  infer_instance

instance : Std.LawfulEqCmp compareShapes where
  eq_of_compare := compareShapes_eq_eq_iff.1

theorem comparePlaces_eq_lt_iff {a b : Place} :
    comparePlaces a b = .lt ↔
      compareShapes a.shape b.shape = .lt ∨ a.shape = b.shape ∧ b.index < a.index := by
  rw [comparePlaces, Ordering.then_eq_lt, compareShapes_eq_eq_iff, Nat.compare_eq_lt]

theorem comparePlaces_eq_compareLex :
    comparePlaces = compareLex (compareOn fun p : Place => endMarked p.shape)
      (fun a b => compareOn Place.index b a) := by
  funext a b
  rw [comparePlaces, compareShapes_eq_compare]
  rfl

instance : Std.TransCmp comparePlaces := by
  rw [comparePlaces_eq_compareLex]
  infer_instance

instance : Std.LawfulEqCmp comparePlaces where
  eq_of_compare := by
    intro a b h
    rw [comparePlaces_eq_compareLex, compareLex_eq_eq] at h
    obtain ⟨hs, hi⟩ := h
    have shape : a.shape = b.shape := endMarked_injective (Std.LawfulEqOrd.eq_of_compare hs)
    have index : b.index = a.index := Std.LawfulEqOrd.eq_of_compare hi
    cases a
    cases b
    simp_all

theorem comparePlaces_irrefl (a : Place) : comparePlaces a a ≠ .lt := by
  have same : comparePlaces a a = .eq := Std.ReflCmp.compare_self
  rw [same]
  simp

theorem comparePlaces_asymm {a b : Place} (lt : comparePlaces a b = .lt) :
    comparePlaces b a ≠ .lt := by
  intro gt
  exact comparePlaces_irrefl a (Std.TransCmp.lt_trans lt gt)

/-- Whether a comparison puts all things in one order: it finds equal only what is the same, and
its results agree with each other. -/
structure OrdersAll {α : Type} (cmp : α → α → Ordering) : Prop where
  eq_iff : ∀ a b, cmp a b = .eq ↔ a = b
  swap : ∀ a b, cmp b a = (cmp a b).swap
  trans : ∀ o a b c, cmp a b = o → cmp b c = o → cmp a c = o

theorem ordersAll_of_lawful {α : Type} (cmp : α → α → Ordering) [Std.TransCmp cmp]
    [Std.LawfulEqCmp cmp] : OrdersAll cmp where
  eq_iff _ _ := Std.LawfulEqCmp.compare_eq_iff_eq
  swap _ _ := Std.OrientedCmp.eq_swap
  trans o a b c hab hbc := by
    subst hab
    cases h : cmp a b with
    | lt => exact Std.TransCmp.lt_trans h (hbc.trans h)
    | eq => exact Std.TransCmp.eq_trans h (hbc.trans h)
    | gt => exact Std.TransCmp.gt_trans h (hbc.trans h)

/-- The order of specificity is total, for shapes and for registered patterns. Shapes are compared
at the first place where they differ, where the end of a shape is less specific than any node, so
that a shape comes behind all that continue it. Registered patterns are compared by shape and then
by index, the later one first; only where both coincide are they equal, and of two indices one
always comes first. -/
theorem specificity_orders_all :
    OrdersAll compareShapes ∧
    (∀ a b : Shape, compareShapes a b = .lt ↔
      ∃ i : Nat, (∀ j, j < i → a[j]? = b[j]?) ∧ MoreSpecific a[i]? b[i]?) ∧
    (∀ a b : Shape, b ≠ [] → compareShapes (a ++ b) a = .lt) ∧
    OrdersAll comparePlaces ∧
    (∀ p q : Place, comparePlaces p q = .eq ↔ p.index = q.index ∧ p.shape = q.shape) ∧
    (∀ p q : Place, comparePlaces p q = .lt ↔
      compareShapes p.shape q.shape = .lt ∨ p.shape = q.shape ∧ q.index < p.index) ∧
    ∀ p q : Place, p.index ≠ q.index → (comparePlaces p q = .lt ↔ comparePlaces q p ≠ .lt) := by
  have places : OrdersAll comparePlaces := ordersAll_of_lawful comparePlaces
  refine ⟨ordersAll_of_lawful compareShapes, fun _ _ => compareShapes_eq_lt_iff,
    fun _ _ => compareShapes_append, places, ?_, fun _ _ => comparePlaces_eq_lt_iff, ?_⟩
  · intro p q
    rw [places.eq_iff, Place.mk.injEq]
  · intro p q ne
    constructor
    · exact comparePlaces_asymm
    · intro later
      cases h : comparePlaces p q with
      | lt => rfl
      | eq => exact absurd (congrArg Place.index ((places.eq_iff p q).1 h)) ne
      | gt =>
        have swapped := places.swap p q
        rw [h] at swapped
        exact absurd swapped later

end PatternRouter
