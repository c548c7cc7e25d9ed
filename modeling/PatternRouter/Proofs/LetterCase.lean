import PatternRouter.Text.CaseFold

namespace PatternRouter

theorem mark_lt_shifted {r : FoldRun} (h : r ∈ foldRuns) : (0x2f : Int) < r.first + r.shift := by
  have all : foldRuns.all (fun r => (0x2f : Int) < r.first + r.shift) = true := by decide +kernel
  simpa using List.all_eq_true.1 all r h

theorem toNat_ofNat_eq {n : Nat} {c : Char} (hc : 0 < c.toNat) (h : Char.ofNat n = c) :
    n = c.toNat := by
  subst h
  by_cases hv : n.isValidChar
  · have known : Char.ofNat n = Char.ofNatAux n hv := dif_pos hv
    rw [known]
    rfl
  · have zero : Char.ofNat n = '\x00' := dif_neg hv
    rw [zero] at hc
    exact absurd hc (by decide)

theorem toLower_eq_mark {c d : Char} (hd : d.toNat ≤ 0x2f) (h : c.toLower = d) : c = d := by
  by_cases hu : c.val ≥ 'A'.val ∧ c.val ≤ 'Z'.val
  · have low : 65 ≤ c.toNat := UInt32.le_iff_toNat_le.1 hu.1
    have high : c.toNat ≤ 90 := UInt32.le_iff_toNat_le.1 hu.2
    have sum : (c.val + ('a'.val - 'A'.val)).toNat = c.toNat + 32 := by
      rw [UInt32.toNat_add]
      change (c.toNat + 32) % 2 ^ 32 = c.toNat + 32
      omega
    have lowered : c.toLower.val = c.val + ('a'.val - 'A'.val) := congrArg Char.val (dif_pos hu)
    have val : d.toNat = c.toNat + 32 := by
      rw [← h, ← sum, ← lowered]
      rfl
    omega
  · have same : c.toLower = c := dif_neg hu
    rw [← h, same]

/-- Nothing but the character itself folds to a mark. -/
theorem eq_of_foldCase_eq {c d : Char} (h0 : 0 < d.toNat) (hd : d.toNat ≤ 0x2f)
    (h : foldCase c = d) : c = d := by
  unfold foldCase at h
  split at h
  · exact toLower_eq_mark hd h
  · split at h
    · next r hr =>
      have shifted := mark_lt_shifted (List.mem_of_find?_eq_some hr)
      have covered := List.find?_some hr
      simp only [FoldRun.covers, Bool.and_eq_true, decide_eq_true_eq] at covered
      have val := toNat_ofNat_eq h0 h
      omega
    · exact h

theorem foldCase_mark {d : Char} (hd : d.toNat ≤ 0x2f) : foldCase d = d := by
  have plain : ¬(d.val ≥ 'A'.val ∧ d.val ≤ 'Z'.val) := by
    intro h
    have low : 65 ≤ d.toNat := UInt32.le_iff_toNat_le.1 h.1
    omega
  have same : d.toLower = d := dif_neg plain
  rw [foldCase, if_pos (by omega), same]

theorem caseless_mark {c d : Char} (h0 : 0 < d.toNat) (hd : d.toNat ≤ 0x2f) :
    caseless c d = true ↔ c = d := by
  rw [caseless_iff, foldCase_mark hd]
  constructor
  · exact eq_of_foldCase_eq h0 hd
  · rintro rfl; exact foldCase_mark hd

theorem caseless_slash (c : Char) : caseless c '/' = true ↔ c = '/' :=
  caseless_mark (by decide) (by decide)

theorem slash_caseless (c : Char) : caseless '/' c = true ↔ c = '/' :=
  ⟨fun h => (caseless_slash c).1 (caseless_symm h), fun h => h ▸ caseless_refl '/'⟩

theorem caselessText_refl (s : List Char) : caselessText s s = true := by
  induction s with
  | nil => rfl
  | cons c s ih => simp [caselessText, caseless_refl, ih]

theorem caselessText_symm {s t : List Char} (h : caselessText s t = true) :
    caselessText t s = true := by
  induction s generalizing t with
  | nil =>
    cases t with
    | nil => rfl
    | cons d t => cases h
  | cons c s ih =>
    cases t with
    | nil => cases h
    | cons d t =>
      simp only [caselessText, Bool.and_eq_true] at h ⊢
      exact ⟨caseless_symm h.1, ih h.2⟩

theorem caselessText_trans {s t u : List Char} (h : caselessText s t = true)
    (k : caselessText t u = true) : caselessText s u = true := by
  induction s generalizing t u with
  | nil =>
    cases t with
    | nil => exact k
    | cons d t => cases h
  | cons c s ih =>
    cases t with
    | nil => cases h
    | cons d t =>
      cases u with
      | nil => cases k
      | cons e u =>
        simp only [caselessText, Bool.and_eq_true] at h k ⊢
        exact ⟨caseless_trans h.1 k.1, ih h.2 k.2⟩

theorem mark_mem_of_caselessText {d : Char} (h0 : 0 < d.toNat) (hd : d.toNat ≤ 0x2f)
    {s t : List Char} (h : caselessText s t = true) (hs : d ∈ s) : d ∈ t := by
  induction s generalizing t with
  | nil => simp at hs
  | cons c s ih =>
    cases t with
    | nil => simp [caselessText] at h
    | cons e t =>
      simp only [caselessText, Bool.and_eq_true] at h
      rcases List.mem_cons.1 hs with rfl | hs
      · rw [(caseless_mark h0 hd).1 (caseless_symm h.1)]
        exact List.mem_cons_self ..
      · exact List.mem_cons_of_mem _ (ih h.2 hs)

end PatternRouter
