import Mathlib.Data.List.Nodup
import PatternRouter.Http.Session
import PatternRouter.Proofs.Announcement

namespace PatternRouter

variable {α : Type}

/-- Whether a text can be sent: each of its bytes is a tab, or neither a control character nor a
delete. -/
def IsSendable (s : String) : Prop := ∀ b ∈ s.toUTF8.data, b = 9 ∨ 32 ≤ b ∧ b ≠ 127

/-- The bytes of a character that takes more than one are no control characters. -/
theorem le_of_mem_utf8EncodeChar {c : Char} (h : 127 < c.toNat) {b : UInt8}
    (hb : b ∈ String.utf8EncodeChar c) : 128 ≤ b.toNat := by
  have large : ¬c.val.toNat ≤ 127 := Nat.not_le.2 h
  simp only [String.utf8EncodeChar, large, if_false] at hb
  split at hb
  · simp only [List.mem_cons, List.not_mem_nil, or_false] at hb
    rcases hb with rfl | rfl <;> rw [UInt8.toNat_ofNat'] <;> omega
  · split at hb
    · simp only [List.mem_cons, List.not_mem_nil, or_false] at hb
      rcases hb with rfl | rfl | rfl <;> rw [UInt8.toNat_ofNat'] <;> omega
    · simp only [List.mem_cons, List.not_mem_nil, or_false] at hb
      rcases hb with rfl | rfl | rfl | rfl <;> rw [UInt8.toNat_ofNat'] <;> omega

theorem isHeaderChar_iff (c : Char) :
    isHeaderChar c = true ↔ ∀ b ∈ String.utf8EncodeChar c, b = 9 ∨ 32 ≤ b ∧ b ≠ 127 := by
  have tab : c = '\t' ↔ c.toNat = 9 := ⟨fun h => h ▸ rfl, fun h => Char.toNat_inj.1 h⟩
  have char : isHeaderChar c = true ↔ c.toNat = 9 ∨ 32 ≤ c.toNat ∧ c.toNat ≠ 127 := by
    simp [isHeaderChar, tab]
  have byte : ∀ b : UInt8, b = 9 ∨ 32 ≤ b ∧ b ≠ 127 ↔
      b.toNat = 9 ∨ 32 ≤ b.toNat ∧ b.toNat ≠ 127 := by
    intro b
    simp only [UInt8.le_iff_toNat_le, ← UInt8.toNat_inj, ne_eq]
    rfl
  simp only [char, byte]
  by_cases h : c.toNat ≤ 127
  · have one : String.utf8EncodeChar c = [UInt8.ofNat c.toNat] := by
      have small : c.val.toNat ≤ 127 := h
      simp only [String.utf8EncodeChar, small, if_true]
      rfl
    have value : (UInt8.ofNat c.toNat).toNat = c.toNat := by
      rw [UInt8.toNat_ofNat']
      omega
    rw [one, List.forall_mem_singleton, value]
  · have many : ∀ b ∈ String.utf8EncodeChar c, 128 ≤ b.toNat :=
      fun b hb => le_of_mem_utf8EncodeChar (by omega) hb
    constructor
    · intro _ b hb
      have := many b hb
      omega
    · omega

/-- A text is a header value by its characters just if it is one by its bytes. -/
theorem isHeaderValue_iff (s : String) : isHeaderValue s.toList = true ↔ IsSendable s := by
  have bytes : s.toUTF8.data = (s.toList.flatMap String.utf8EncodeChar).toArray := by
    rw [← List.data_toByteArray, String.toUTF8_eq_toByteArray, ← String.utf8Encode_toList,
      List.utf8Encode]
  rw [isHeaderValue, List.all_eq_true, IsSendable, bytes]
  simp only [List.mem_toArray, List.mem_flatMap, isHeaderChar_iff]
  constructor
  · rintro all b ⟨c, hc, hb⟩
    exact all c hc b hb
  · intro all c hc b hb
    exact all b ⟨c, hc, hb⟩

theorem isSendable_of_isMethodText {name : String} (h : isMethodText name.toList = true) :
    IsSendable name := by
  rw [← isHeaderValue_iff, isHeaderValue, List.all_eq_true]
  intro c hc
  have bounds := isMethodChar_bounds ((Method.mk name h).isMethodChar_of_mem hc)
  have low : 32 ≤ c.toNat := by omega
  have high : c.toNat ≠ 127 := by omega
  simp [isHeaderChar, low, high]

def Event.isAbout (header : String) : Event → Bool
  | badCorsValue name _ => name == header
  | _ => false

/-- The texts of a rule that a response can carry, each with its header. -/
def CorsRule.texts (rule : CorsRule) (preflight : Bool) : List (String × Option String) :=
  [(allowOriginHeader, rule.allowOrigin),
    if preflight then (allowHeadersHeader, rule.allowHeaders)
    else (exposeHeadersHeader, rule.exposeHeaders)]

/-- The fields for texts one after the other, and what is reported about them. -/
def sendAll (ts : List (String × Option String)) : Headers × List Event :=
  (ts.flatMap fun t => (corsField t.1 t.2).1, ts.flatMap fun t => (corsField t.1 t.2).2)

theorem mem_corsField_iff {name : String} {text : Option String} {h : Header} :
    h ∈ (corsField name text).1 ↔ ∃ v, text = some v ∧ IsSendable v ∧ h = ⟨name, v⟩ := by
  cases text with
  | none => simp [corsField]
  | some v =>
    rw [corsField]
    split
    · next good => simp [(isHeaderValue_iff v).1 good]
    · next bad => simp [mt (isHeaderValue_iff v).2 bad]

theorem mem_warnings_corsField_iff {name : String} {text : Option String} {e : Event} :
    e ∈ (corsField name text).2 ↔
      ∃ v, text = some v ∧ ¬IsSendable v ∧ e = .badCorsValue name v := by
  cases text with
  | none => simp [corsField]
  | some v =>
    rw [corsField]
    split
    · next good => simp [(isHeaderValue_iff v).1 good]
    · next bad => simp [mt (isHeaderValue_iff v).2 bad]

theorem names_corsField (name : String) (value : Option String) :
    ((corsField name value).1.map Header.name).Sublist [name] := by
  unfold corsField
  split
  · exact List.nil_sublist _
  · split
    · exact .refl _
    · exact List.nil_sublist _

theorem filter_corsField (name other : String) (text : Option String) :
    (corsField name text).1.filter (·.name == other) =
      (if name = other then (corsField name text).1 else []) ∧
    (corsField name text).2.filter (Event.isAbout other) =
      if name = other then (corsField name text).2 else [] := by
  cases text with
  | none => simp [corsField]
  | some v =>
    rw [corsField]
    split <;> simp [Event.isAbout, List.filter_singleton]

section

variable {ts : List (String × Option String)} {name v : String}

theorem mem_sendAll_iff : ⟨name, v⟩ ∈ (sendAll ts).1 ↔ (name, some v) ∈ ts ∧ IsSendable v := by
  simp only [sendAll, List.mem_flatMap, mem_corsField_iff]
  constructor
  · rintro ⟨⟨header, text⟩, mem, value, rfl, good, same⟩
    obtain ⟨rfl, rfl⟩ := Header.mk.inj same
    exact ⟨mem, good⟩
  · rintro ⟨mem, good⟩
    exact ⟨_, mem, v, rfl, good, rfl⟩

theorem mem_warnings_sendAll_iff {e : Event} :
    e ∈ (sendAll ts).2 ↔
      ∃ name v, (name, some v) ∈ ts ∧ ¬IsSendable v ∧ e = .badCorsValue name v := by
  simp only [sendAll, List.mem_flatMap, mem_warnings_corsField_iff]
  constructor
  · rintro ⟨⟨header, text⟩, mem, value, rfl, bad, rfl⟩
    exact ⟨header, value, mem, bad, rfl⟩
  · rintro ⟨header, value, mem, bad, rfl⟩
    exact ⟨_, mem, value, rfl, bad, rfl⟩

theorem names_sendAll_sublist (ts : List (String × Option String)) :
    ((sendAll ts).1.map Header.name).Sublist (ts.map Prod.fst) := by
  induction ts with
  | nil => exact .slnil
  | cons t ts ih =>
    rw [sendAll, List.flatMap_cons, List.map_append, List.map_cons]
    exact (names_corsField t.1 t.2).append ih

theorem warnings_about_of_notMem (h : name ∉ ts.map Prod.fst) :
    (sendAll ts).2.filter (Event.isAbout name) = [] := by
  apply List.filter_eq_nil_iff.2
  intro e mem about
  obtain ⟨header, value, given, -, rfl⟩ := mem_warnings_sendAll_iff.1 mem
  obtain rfl : header = name := beq_iff_eq.1 about
  exact h (List.mem_map_of_mem given)

/-- A text that cannot be sent is reported once. -/
theorem warnings_about (distinct : (ts.map Prod.fst).Nodup) (mem : (name, some v) ∈ ts)
    (bad : ¬IsSendable v) :
    (sendAll ts).2.filter (Event.isAbout name) = [.badCorsValue name v] := by
  induction ts with
  | nil => cases mem
  | cons t ts ih =>
    obtain ⟨new, distinct⟩ := List.nodup_cons.1 distinct
    have split : (sendAll (t :: ts)).2.filter (Event.isAbout name) =
        (corsField t.1 t.2).2.filter (Event.isAbout name) ++
          (sendAll ts).2.filter (Event.isAbout name) := List.filter_append ..
    rw [split]
    -- No other text is of the same header, so there is one warning here or one later.
    rcases List.mem_cons.1 mem with rfl | later
    · have reported : (corsField name (some v)).2 = [.badCorsValue name v] := by
        rw [corsField, if_neg (mt (isHeaderValue_iff v).1 bad)]
      rw [warnings_about_of_notMem new, List.append_nil, (filter_corsField ..).2, if_pos rfl,
        reported]
    · have other : t.1 ≠ name := by
        rintro rfl
        exact new (List.mem_map.2 ⟨_, later, rfl⟩)
      rw [(filter_corsField ..).2, if_neg other, List.nil_append, ih distinct later]

end

/-- An enabled policy sends its texts, and then the method of a preflight. -/
theorem CorsPolicy.headers_of_rule {cors : CorsPolicy} {rule : CorsRule}
    (h : cors.rule? = some rule) (preflight : Option Method) :
    cors.headers preflight =
      ((sendAll (rule.texts preflight.isSome)).1 ++
        (preflight.map fun m => ⟨allowMethodsHeader, m.name⟩).toList,
      (sendAll (rule.texts preflight.isSome)).2) := by
  cases preflight with
  | none => simp [headers, h, sendAll, CorsRule.texts, methodField]
  | some m =>
    have sendable := (isHeaderValue_iff _).2 (isSendable_of_isMethodText m.valid)
    simp [headers, h, sendAll, CorsRule.texts, methodField, sendable]

/-- The headers that a policy sends, in their order. -/
def corsHeaders : List String :=
  [allowOriginHeader, allowHeadersHeader, exposeHeadersHeader, allowMethodsHeader]

/-- What the response to a resolved request carries under a rule, and what is reported. -/
structure Resolution.Obeys (d : Resolution α) (c : Selection α) (rule : CorsRule) : Prop where
  methods : ∀ v, ⟨allowMethodsHeader, v⟩ ∈ d.headers.1 ↔
    d.outcome = .preflight ∧ v = c.method.name
  origin : ∀ v, ⟨allowOriginHeader, v⟩ ∈ d.headers.1 ↔ rule.allowOrigin = some v ∧ IsSendable v
  allowed : ∀ v, ⟨allowHeadersHeader, v⟩ ∈ d.headers.1 ↔
    d.outcome = .preflight ∧ rule.allowHeaders = some v ∧ IsSendable v
  exposed : ∀ v, ⟨exposeHeadersHeader, v⟩ ∈ d.headers.1 ↔
    d.outcome = .matched ∧ rule.exposeHeaders = some v ∧ IsSendable v
  /-- A text that cannot be sent is left out and reported once. -/
  reported : ∀ name v, (name, some v) ∈ rule.texts d.isPreflight → ¬IsSendable v →
    name ∉ d.headers.1.map Header.name ∧
      d.headers.2.filter (Event.isAbout name) = [.badCorsValue name v]
  /-- Nothing else is reported. -/
  only : ∀ e ∈ d.headers.2, ∃ name v, (name, some v) ∈ rule.texts d.isPreflight ∧
    ¬IsSendable v ∧ e = .badCorsValue name v

namespace CorsRule

variable {rule : CorsRule} {preflight : Bool} {v : String}

theorem names_texts_sublist (rule : CorsRule) (preflight : Bool) :
    ((rule.texts preflight).map Prod.fst).Sublist
      [allowOriginHeader, allowHeadersHeader, exposeHeadersHeader] := by
  cases preflight
  · exact .cons_cons _ (.cons _ (.cons_cons _ .slnil))
  · exact .cons_cons _ (.cons_cons _ (.cons _ .slnil))

theorem nodup_names_texts (rule : CorsRule) (preflight : Bool) :
    ((rule.texts preflight).map Prod.fst).Nodup :=
  (rule.names_texts_sublist preflight).nodup (by decide)

theorem origin_mem_texts_iff :
    (allowOriginHeader, some v) ∈ rule.texts preflight ↔ rule.allowOrigin = some v := by
  cases preflight <;>
    simp [texts, allowOriginHeader, allowHeadersHeader, exposeHeadersHeader, eq_comm]

theorem allowed_mem_texts_iff :
    (allowHeadersHeader, some v) ∈ rule.texts preflight ↔
      preflight = true ∧ rule.allowHeaders = some v := by
  cases preflight <;>
    simp [texts, allowOriginHeader, allowHeadersHeader, exposeHeadersHeader, eq_comm]

theorem exposed_mem_texts_iff :
    (exposeHeadersHeader, some v) ∈ rule.texts preflight ↔
      preflight = false ∧ rule.exposeHeaders = some v := by
  cases preflight <;>
    simp [texts, allowOriginHeader, allowHeadersHeader, exposeHeadersHeader, eq_comm]

end CorsRule

namespace CorsPolicy

variable {cors : CorsPolicy} {rule : CorsRule} {asked : Option Method}

theorem names_headers_sublist (cors : CorsPolicy) (asked : Option Method) :
    ((cors.headers asked).1.map Header.name).Sublist corsHeaders := by
  cases enabled : cors.rule? with
  | none =>
    rw [headers, enabled]
    exact List.nil_sublist _
  | some rule =>
    have texts := (names_sendAll_sublist (rule.texts asked.isSome)).trans
      (rule.names_texts_sublist asked.isSome)
    rw [headers_of_rule enabled, List.map_append]
    cases asked with
    | none => exact texts.append (List.nil_sublist [allowMethodsHeader])
    | some m => exact texts.append (List.Sublist.refl [allowMethodsHeader])

theorem nodup_headers (cors : CorsPolicy) (preflight : Option Method) :
    ((cors.headers preflight).1.map Header.name).Nodup :=
  (cors.names_headers_sublist preflight).nodup (by decide)

theorem mem_headers_iff (h : cors.rule? = some rule) {name v : String} :
    ⟨name, v⟩ ∈ (cors.headers asked).1 ↔
      (name, some v) ∈ rule.texts asked.isSome ∧ IsSendable v ∨
        ∃ m, asked = some m ∧ name = allowMethodsHeader ∧ v = m.name := by
  rw [headers_of_rule h, List.mem_append, mem_sendAll_iff]
  apply or_congr_right
  cases asked <;> simp

theorem ne_allowMethodsHeader {name : String} {text : Option String}
    (h : (name, text) ∈ rule.texts asked.isSome) : name ≠ allowMethodsHeader := by
  rintro rfl
  have known : allowMethodsHeader ∈ [allowOriginHeader, allowHeadersHeader, exposeHeadersHeader] :=
    (rule.names_texts_sublist _).subset (List.mem_map_of_mem h)
  exact absurd known (by decide)

theorem mem_headers_text_iff (h : cors.rule? = some rule) {name v : String}
    (other : name ≠ allowMethodsHeader) :
    ⟨name, v⟩ ∈ (cors.headers asked).1 ↔
      (name, some v) ∈ rule.texts asked.isSome ∧ IsSendable v := by
  rw [mem_headers_iff h]
  apply or_iff_left
  rintro ⟨m, -, same, -⟩
  exact other same

theorem mem_headers_method_iff (h : cors.rule? = some rule) {v : String} :
    ⟨allowMethodsHeader, v⟩ ∈ (cors.headers asked).1 ↔ ∃ m, asked = some m ∧ v = m.name := by
  rw [mem_headers_iff h]
  simp only [true_and]
  apply or_iff_right
  intro text
  exact ne_allowMethodsHeader text.1 rfl

/-- One text that cannot be sent is left out and reported once, whatever the other texts are. -/
theorem reported_of_not_isSendable (h : cors.rule? = some rule) {name v : String}
    (text : (name, some v) ∈ rule.texts asked.isSome) (bad : ¬IsSendable v) :
    name ∉ (cors.headers asked).1.map Header.name ∧
      (cors.headers asked).2.filter (Event.isAbout name) = [.badCorsValue name v] := by
  have distinct := rule.nodup_names_texts asked.isSome
  constructor
  · intro sent
    obtain ⟨⟨name, value⟩, mem, rfl⟩ := List.mem_map.1 sent
    obtain ⟨text', good⟩ := (mem_headers_text_iff h (ne_allowMethodsHeader text)).1 mem
    have same := List.inj_on_of_nodup_map distinct text' text rfl
    obtain rfl : value = v := Option.some.inj (Prod.mk.inj same).2
    exact bad good
  · rw [headers_of_rule h]
    exact warnings_about distinct text bad

theorem origin_part (cors : CorsPolicy) (asked asked' : Option Method) :
    (cors.headers asked).1.filter (·.name == allowOriginHeader) =
      (cors.headers asked').1.filter (·.name == allowOriginHeader) ∧
    (cors.headers asked).2.filter (Event.isAbout allowOriginHeader) =
      (cors.headers asked').2.filter (Event.isAbout allowOriginHeader) := by
  cases enabled : cors.rule? with
  | none => simp only [headers, enabled, and_self]
  | some rule =>
    have alone : ∀ asked : Option Method,
        (cors.headers asked).1.filter (·.name == allowOriginHeader) =
          (corsField allowOriginHeader rule.allowOrigin).1 ∧
        (cors.headers asked).2.filter (Event.isAbout allowOriginHeader) =
          (corsField allowOriginHeader rule.allowOrigin).2 := by
      intro asked
      rw [headers_of_rule enabled]
      have fields : ((asked.map fun m => (⟨allowMethodsHeader, m.name⟩ : Header)).toList).filter
          (·.name == allowOriginHeader) = [] := by cases asked <;> rfl
      rw [List.filter_append, fields]
      cases preflight : asked.isSome <;>
        simp [sendAll, CorsRule.texts, filter_corsField, allowOriginHeader, allowHeadersHeader,
          exposeHeadersHeader]
    rw [(alone asked).1, (alone asked').1, (alone asked).2, (alone asked').2]
    exact ⟨rfl, rfl⟩

end CorsPolicy

namespace Resolution

variable {d : Resolution α} {c : Selection α}

/-- The method of the route, where the request is a preflight. -/
def asked (d : Resolution α) (c : Selection α) : Option Method :=
  if d.isPreflight then some c.method else none

theorem headers_eq (hc : d.selection? = some c) : d.headers = c.cors.headers (d.asked c) := by
  cases d with
  | matched e =>
    obtain rfl := Option.some.inj hc
    rfl
  | preflight e =>
    obtain rfl := Option.some.inj hc
    rfl
  | notFound => cases hc
  | methodNotAllowed => cases hc

theorem isSome_asked (d : Resolution α) (c : Selection α) : (d.asked c).isSome = d.isPreflight := by
  rw [asked]
  cases d.isPreflight <;> rfl

theorem isPreflight_iff : d.isPreflight = true ↔ d.outcome = .preflight := beq_iff_eq

theorem isPreflight_eq_false_iff (hc : d.selection? = some c) :
    d.isPreflight = false ↔ d.outcome = .matched := by
  cases d with
  | matched e => exact ⟨fun _ => rfl, fun _ => rfl⟩
  | preflight e => exact ⟨nofun, nofun⟩
  | notFound => cases hc
  | methodNotAllowed => cases hc

theorem obeys (hc : d.selection? = some c) {rule : CorsRule} (h : c.cors.rule? = some rule) :
    d.Obeys c rule := by
  have headers := headers_eq hc
  have preflight := isSome_asked d c
  constructor
  case methods =>
    intro v
    rw [headers, CorsPolicy.mem_headers_method_iff h, asked, ← isPreflight_iff]
    cases d.isPreflight <;> simp
  case origin =>
    intro v
    rw [headers, CorsPolicy.mem_headers_text_iff h (by decide), CorsRule.origin_mem_texts_iff]
  case allowed =>
    intro v
    rw [headers, CorsPolicy.mem_headers_text_iff h (by decide), CorsRule.allowed_mem_texts_iff,
      preflight, isPreflight_iff, and_assoc]
  case exposed =>
    intro v
    rw [headers, CorsPolicy.mem_headers_text_iff h (by decide), CorsRule.exposed_mem_texts_iff,
      preflight, isPreflight_eq_false_iff hc, and_assoc]
  case reported =>
    intro name v text bad
    rw [← preflight] at text
    rw [headers]
    exact CorsPolicy.reported_of_not_isSendable h text bad
  case only =>
    intro e mem
    rw [headers, CorsPolicy.headers_of_rule h, preflight] at mem
    exact mem_warnings_sendAll_iff.1 mem

end Resolution

theorem HttpSession.journal_resolve (s : HttpSession α) (m : Method) (path : String)
    (headers : Headers) :
    let r := s.router.resolve m path headers s.workspace
    (s.resolve m path headers).1 = .resolved r.1 r.1.headers.1 ∧
      (s.resolve m path headers).2.workspace.journal.toList =
        r.2.2.journal.toList ++ r.1.headers.2 := by
  intro r
  have fold : ∀ (events : List Event) (w : Workspace),
      (events.foldl Workspace.report w).journal.toList = w.journal.toList ++ events := by
    intro events
    induction events with
    | nil => exact fun w => (List.append_nil _).symm
    | cons e events ih =>
      intro w
      rw [List.foldl_cons, ih, Workspace.report, Array.toList_push, List.append_assoc,
        List.singleton_append]
  exact ⟨rfl, fold _ _⟩

/-- The fields of a response and what is reported about them follow from the policy in force and
from whether the request is a preflight. No header is sent twice, and their order is fixed. A
disabled policy sends nothing. Any other one allows the method of the route to a preflight, and this
is never lost, for each method can be sent. Of its texts each one that belongs to the response is
sent as it is, unless a byte of it cannot be sent; then it is left out and reported once, and the
others are sent all the same. What is sent and reported about the origin is the same for both kinds
of requests. -/
theorem Resolution.headers_obey_policy {d : Resolution α} {c : Selection α}
    (hc : d.selection? = some c) :
    (d.headers.1.map Header.name).Sublist corsHeaders ∧ (d.headers.1.map Header.name).Nodup ∧
    (c.cors = .disabled → d.headers = ([], [])) ∧
    (c.cors = .permissive → d.Obeys c ⟨some "*", some "*", some "*"⟩) ∧
    (∀ rule, c.cors = .custom rule → d.Obeys c rule) ∧
    (∀ m : Method, IsSendable m.name) ∧
    (∀ e e' : Selection α, e.cors = e'.cors →
      (matched e).headers.1.filter (·.name == allowOriginHeader) =
        (preflight e').headers.1.filter (·.name == allowOriginHeader) ∧
      (matched e).headers.2.filter (Event.isAbout allowOriginHeader) =
        (preflight e').headers.2.filter (Event.isAbout allowOriginHeader)) ∧
    ∀ (s : HttpSession α) (m : Method) (path : String) (headers : Headers),
      let r := s.router.resolve m path headers s.workspace
      (s.resolve m path headers).1 = .resolved r.1 r.1.headers.1 ∧
        (s.resolve m path headers).2.workspace.journal.toList =
          r.2.2.journal.toList ++ r.1.headers.2 := by
  refine ⟨?_, ?_, ?_, ?_, ?_, ?_, ?_, HttpSession.journal_resolve⟩
  · rw [headers_eq hc]
    exact c.cors.names_headers_sublist _
  · rw [headers_eq hc]
    exact c.cors.nodup_headers _
  · intro disabled
    rw [headers_eq hc, disabled]
    rfl
  · intro permissive
    exact obeys hc (by rw [permissive, CorsPolicy.rule?])
  · intro rule custom
    exact obeys hc (by rw [custom, CorsPolicy.rule?])
  · intro m
    exact isSendable_of_isMethodText m.valid
  · intro e e' same
    rw [headers, headers, same]
    exact e'.cors.origin_part none (some e'.method)

theorem Resolution.headers_obey_policy_line_feed :
    let purge : Method := ⟨"PURGE", by decide⟩
    let rule : CorsRule := ⟨some "*", some "x-a\nx-b", some "x-c"⟩
    let c : Selection Nat := ⟨0, purge, "/a", 1, Params.empty, .custom rule⟩
    let d : Resolution Nat := .preflight c
    d.selection? = some c ∧
      ⟨allowOriginHeader, "*"⟩ ∈ d.headers.1 ∧ ⟨allowMethodsHeader, "PURGE"⟩ ∈ d.headers.1 ∧
      allowHeadersHeader ∉ d.headers.1.map Header.name ∧
      d.headers.2.filter (Event.isAbout allowHeadersHeader) =
        [.badCorsValue allowHeadersHeader "x-a\nx-b"] := by
  intro purge rule c d
  have chosen : d.selection? = some c := rfl
  obtain ⟨-, -, -, -, custom, -⟩ := headers_obey_policy chosen
  have obeys : d.Obeys c rule := custom rule rfl
  have star : IsSendable "*" := (isHeaderValue_iff _).1 (by decide)
  have bad : ¬IsSendable "x-a\nx-b" := mt (isHeaderValue_iff _).2 (by decide)
  have left_out := obeys.reported allowHeadersHeader _ (by decide) bad
  exact ⟨chosen, (obeys.origin _).2 ⟨rfl, star⟩, (obeys.methods _).2 ⟨rfl, rfl⟩, left_out⟩

end PatternRouter
