import PatternRouter.Proofs.Preflight

namespace PatternRouter

variable {α : Type}

theorem toUpper_eq_self_iff {c : Char} : c.toUpper = c ↔ c.isLower = false := by
  unfold Char.isLower Char.toUpper
  split
  · next lower =>
    have changed : c.val + ('A'.val - 'a'.val) ≠ c.val := by grind
    refine iff_of_false (mt (congrArg Char.val) changed) ?_
    simpa using lower
  · next other => simpa using other

theorem isMethodChar_bounds {c : Char} (h : isMethodChar c = true) :
    33 ≤ c.toNat ∧ c.toNat < 127 := by
  rw [isMethodChar, Bool.or_eq_true] at h
  rcases h with h | h
  · unfold Char.isAlphanum Char.isAlpha Char.isUpper Char.isLower Char.isDigit at h
    simp [UInt32.le_iff_toNat_le] at h
    have val : c.val.toNat = c.toNat := Char.toNat_val
    omega
  · have all : ∀ d ∈ methodMarks, 33 ≤ d.toNat ∧ d.toNat < 127 := by simp [methodMarks]
    exact all c (List.contains_iff_mem.1 h)

theorem isBlank_eq_false_of_isMethodChar {c : Char} (h : isMethodChar c = true) :
    isBlank c = false := by
  have bounds := isMethodChar_bounds h
  simp only [isBlank, Bool.or_eq_false_iff, List.contains_eq_mem, decide_eq_false_iff_not,
    List.mem_cons, List.not_mem_nil, or_false, Bool.and_eq_false_iff]
  omega

theorem dropWhile_isBlank {s : List Char} (h : ∀ c ∈ s, isBlank c = false) :
    s.dropWhile isBlank = s := by
  cases s with
  | nil => rfl
  | cons c s => rw [List.dropWhile_cons_of_neg (by simp [h c])]

theorem trimBlank_eq_self {s : List Char} (h : ∀ c ∈ s, isBlank c = false) : trimBlank s = s := by
  have back : ∀ c ∈ s.reverse, isBlank c = false := by simpa using h
  rw [trimBlank, dropWhile_isBlank h, dropWhile_isBlank back, List.reverse_reverse]

namespace Method

def announcement (m : Method) : Headers := [⟨requestMethodHeader, m.name⟩]

theorem isMethodChar_of_mem (m : Method) {c : Char} (h : c ∈ m.name.toList) :
    isMethodChar c = true := by
  have valid := m.valid
  rw [isMethodText, Bool.and_eq_true] at valid
  exact List.all_eq_true.1 valid.2 c h

theorem isPlainValue_name (m : Method) : isPlainValue m.name.toList = true := by
  apply List.all_eq_true.2
  intro c hc
  have bounds := isMethodChar_bounds (m.isMethodChar_of_mem hc)
  have low : 32 ≤ c.toNat := by omega
  simp [low, bounds.2]

theorem trimBlank_name (m : Method) : trimBlank m.name.toList = m.name.toList :=
  trimBlank_eq_self fun _ hc => isBlank_eq_false_of_isMethodChar (m.isMethodChar_of_mem hc)

/-- What a method announces is its name in upper case. -/
theorem announces_announcement_iff {m t : Method} :
    Announces Method.options m.announcement t ↔
      t.name = String.ofList (m.name.toList.map Char.toUpper) := by
  have first : m.announcement.first? requestMethodHeader = some m.name := by
    simp [announcement, Headers.first?]
  simp [Announces, first, m.isPlainValue_name, m.trimBlank_name]

theorem announces_self_iff {m : Method} :
    Announces Method.options m.announcement m ↔ ∀ c ∈ m.name.toList, c.isLower = false := by
  have letters : m.name.toList.map Char.toUpper = m.name.toList ↔
      ∀ c ∈ m.name.toList, c.toUpper = c := by
    simpa using List.map_inj_left (f := Char.toUpper) (g := id) (l := m.name.toList)
  rw [announces_announcement_iff, ← String.toList_inj, String.toList_ofList, eq_comm, letters]
  simp only [toUpper_eq_self_iff]

end Method

namespace HttpSession

/-- Where no route takes `OPTIONS`, the route that takes a method on a path is the one that a
preflight for the method is resolved to, just if the method has no lower-case letters. -/
theorem preflight_of_matched_iff [SizeLimit] [Describe α] {s : HttpSession α} (hs : s.Reachable)
    {path : String} (free : ∀ h, ¬MatchesAs s.router.routes.toList path Method.options h)
    {m : Method} {headers : Headers} {c : Selection α}
    (hc : (s.router.resolve m path headers s.workspace).1 = .matched c) :
    (∃ k, (s.router.resolve Method.options path m.announcement s.workspace).1 = .preflight k ∧
      k.hit = c.hit) ↔ ∀ a ∈ m.name.toList, a.isLower = false := by
  have matched := HttpRouter.isResolution_resolve hs.valid.routes m path headers s.workspace
  have asked := HttpRouter.isResolution_resolve hs.valid.routes Method.options path
    m.announcement s.workspace
  rw [hc] at matched
  obtain ⟨h, first, of_hit⟩ := matched.isFirst_of_matched
  rw [← Method.announces_self_iff]
  constructor
  · intro found
    obtain ⟨k, hk, same⟩ := found
    rw [hk] at asked
    cases asked with
    | @preflight t g k free announced first' of_hit' =>
      -- The route has one method, which is the one announced.
      have route : k.method = c.method := congrArg (fun x => x.data.1) same
      have method : t = m := by
        rw [← first'.holds.2, ← first.holds.2, ← of_hit'.method, ← of_hit.method, route]
      rwa [method] at announced
  · intro announced
    obtain ⟨k, hk, of_hit'⟩ := asked.preflight_of_isFirst free announced first
    exact ⟨k, hk, of_hit'.hit_eq of_hit⟩

section

open Unlimited

/-- A preflight for an extension method in upper case is resolved to its route. -/
theorem preflight_of_matched_iff_purge :
    ∃ (s : HttpSession Nat) (m : Method) (c k : Selection Nat), s.Reachable ∧
      (∀ h, ¬MatchesAs s.router.routes.toList "/a" Method.options h) ∧
      (s.router.resolve m "/a" [] s.workspace).1 = .matched c ∧
      (s.router.resolve Method.options "/a" m.announcement s.workspace).1 = .preflight k ∧
      k.hit = c.hit := by
  have first : Reachable (empty.step (.insert "GET" "/a" 1 none true)).2 := .step _ .empty
  have both := Reachable.step (.insert "PURGE" "/:x" 2 none true) first
  have look := Router.isLookup_findAll both.valid.routes "/a" Workspace.empty
  have free := (HttpRouter.firstOf?_eq_none_iff look (m := Method.options)).1 rfl
  let purge : Method := ⟨"PURGE", by decide⟩
  have resolved := @preflight_of_matched_iff Nat _ _ _ both "/a" free purge [] _ rfl
  have upper : ∀ a ∈ "PURGE".toList, a.isLower = false := by simp
  obtain ⟨k, hk, same⟩ := resolved.2 upper
  exact ⟨_, purge, _, k, both, free, rfl, hk, same⟩

end

open Unlimited

/-- A route for the method `get` cannot be reached by a preflight that announces `get`. -/
theorem lower_case_method_not_preflighted :
    ¬∀ (s : HttpSession Nat) (m : Method) (path : String) (headers : Headers) (c : Selection Nat),
      s.Reachable → m ≠ Method.options →
      (∀ h, ¬MatchesAs s.router.routes.toList path Method.options h) →
      (s.router.resolve m path headers s.workspace).1 = .matched c →
      ∃ k, (s.router.resolve Method.options path [⟨requestMethodHeader, m.name⟩] s.workspace).1 =
        .preflight k ∧ k.index = c.index := by
  intro always
  have typed : Reachable (empty.step (.insert "get" "/a" 1 none true)).2 := .step _ .empty
  have look := Router.isLookup_findAll typed.valid.routes "/a" Workspace.empty
  have free := (HttpRouter.firstOf?_eq_none_iff look (m := Method.options)).1 rfl
  obtain ⟨k, hk, -⟩ := always _ ⟨"get", by decide⟩ "/a" [] _ typed (by decide) free rfl
  cases hk

end HttpSession

end PatternRouter
