import PatternRouter.Config
import PatternRouter.Proofs.DocumentKeys

namespace PatternRouter.Config

inductive IsText (fields : List (String × Toml.Value)) (name : String) : Option String → Prop
  | missing : (∀ v, (name, v) ∉ fields) → IsText fields name none
  | present {s : String} : (name, .string s) ∈ fields → IsText fields name (some s)

/-- The policies that the documented values mean: truth values, and tables in which the fields of
a rule that are there are texts. -/
inductive DocumentedAs : Toml.Value → CorsPolicy → Prop
  | off : DocumentedAs (.boolean false) .disabled
  | on : DocumentedAs (.boolean true) .permissive
  | rule {fields : List (String × Toml.Value)} {rule : CorsRule} :
      IsText fields "allow_origin" rule.allowOrigin →
      IsText fields "allow_headers" rule.allowHeaders →
      IsText fields "expose_headers" rule.exposeHeaders →
      DocumentedAs (.table fields) (.custom rule)

/-- The policies that values mean of which the documentation does not speak: an array of up to
three texts is taken for the fields of a rule in their order, and a date for a table without any
of them. -/
inductive UnforeseenAs : Toml.Value → CorsPolicy → Prop
  | items {texts : List String} : texts.length ≤ 3 →
      UnforeseenAs (.array (texts.map .string)) (.custom ⟨texts[0]?, texts[1]?, texts[2]?⟩)
  | date (text : String) : UnforeseenAs (.datetime text) (.custom .empty)

/-- The default policy of a document by what is documented. -/
def Documented (entries : List (String × Toml.Value)) (cors : CorsPolicy) : Prop :=
  (∀ v, ("default_cors", v) ∉ entries) ∧ cors = .disabled ∨
    ∃ v, ("default_cors", v) ∈ entries ∧ DocumentedAs v cors

/-- A default policy of which the documentation does not speak. -/
def Unforeseen (entries : List (String × Toml.Value)) (cors : CorsPolicy) : Prop :=
  ∃ v, ("default_cors", v) ∈ entries ∧ UnforeseenAs v cors

/-- Whether a text that is a document is read as documented: it gives just the documented policy,
and fails where there is none. -/
def ReadsAsDocumented (text : String) : Prop :=
  ∀ entries, Toml.document? text = some entries →
    (∀ cors, ofText text = .ok ⟨cors⟩ ↔ Documented entries cors) ∧
      ((∀ cors, ¬Documented entries cors) → ofText text = .error .malformed)

section

variable {fields : List (String × Toml.Value)} (h : (fields.map Prod.fst).Nodup)
include h

theorem textField?_eq_some_iff {name : String} {text : Option String} :
    textField? fields name = some text ↔ IsText fields name text := by
  unfold textField?
  constructor
  · intro read
    split at read
    · next free =>
      obtain rfl := Option.some.inj read
      exact .missing (lookup_eq_none_iff_notMem.1 free)
    · next s found =>
      obtain rfl := Option.some.inj read
      exact .present ((lookup_eq_some_iff_mem h).1 found)
    · cases read
  · rintro (free | mem)
    · rw [lookup_eq_none_iff_notMem.2 free]
    · rw [(lookup_eq_some_iff_mem h).2 mem]

theorem ruleOfTable?_eq_some_iff {rule : CorsRule} :
    ruleOfTable? fields = some rule ↔ IsText fields "allow_origin" rule.allowOrigin ∧
      IsText fields "allow_headers" rule.allowHeaders ∧
      IsText fields "expose_headers" rule.exposeHeaders := by
  simp only [← textField?_eq_some_iff h]
  constructor
  · intro read
    obtain ⟨origin, horigin, read⟩ := Option.bind_eq_some_iff.1 read
    obtain ⟨headers, hheaders, read⟩ := Option.bind_eq_some_iff.1 read
    obtain ⟨exposed, hexposed, read⟩ := Option.bind_eq_some_iff.1 read
    obtain rfl := Option.some.inj read
    exact ⟨horigin, hheaders, hexposed⟩
  · rintro ⟨horigin, hheaders, hexposed⟩
    simp only [ruleOfTable?, horigin, hheaders, hexposed]
    rfl

end

theorem ruleOfItems?_eq_some_iff {items : List Toml.Value} {rule : CorsRule} :
    ruleOfItems? items = some rule ↔ ∃ texts : List String, texts.length ≤ 3 ∧
      items = texts.map .string ∧ rule = ⟨texts[0]?, texts[1]?, texts[2]?⟩ := by
  constructor
  · intro read
    unfold ruleOfItems? at read
    split at read
    · exact ⟨[], by simp, rfl, (Option.some.inj read).symm⟩
    · next a => exact ⟨[a], by simp, rfl, (Option.some.inj read).symm⟩
    · next a b => exact ⟨[a, b], by simp, rfl, (Option.some.inj read).symm⟩
    · next a b c => exact ⟨[a, b, c], by simp, rfl, (Option.some.inj read).symm⟩
    · cases read
  · rintro ⟨texts, few, rfl, rfl⟩
    match texts, few with
    | [], _ => rfl
    | [a], _ => rfl
    | [a, b], _ => rfl
    | [a, b, c], _ => rfl

theorem corsOfValue?_eq_some_iff {v : Toml.Value} (h : v.Distinct) {cors : CorsPolicy} :
    corsOfValue? v = some cors ↔ DocumentedAs v cors ∨ UnforeseenAs v cors := by
  constructor
  · intro read
    cases v with
    | boolean b =>
      obtain rfl := Option.some.inj read
      cases b
      · exact .inl .off
      · exact .inl .on
    | table fields =>
      obtain ⟨rule, hrule, rfl⟩ := Option.map_eq_some_iff.1 read
      have keys := (Toml.Value.distinct_table_iff.1 h).1
      obtain ⟨origin, headers, exposed⟩ := (ruleOfTable?_eq_some_iff keys).1 hrule
      exact .inl (.rule origin headers exposed)
    | array items =>
      obtain ⟨rule, hrule, rfl⟩ := Option.map_eq_some_iff.1 read
      obtain ⟨texts, few, rfl, rfl⟩ := ruleOfItems?_eq_some_iff.1 hrule
      exact .inr (.items few)
    | datetime text =>
      obtain rfl := Option.some.inj read
      exact .inr (.date text)
    | string | integer | float => cases read
  · rintro (documented | unforeseen)
    · cases documented with
      | off => rfl
      | on => rfl
      | rule origin headers exposed =>
        have keys := (Toml.Value.distinct_table_iff.1 h).1
        have read := (ruleOfTable?_eq_some_iff keys).2 ⟨origin, headers, exposed⟩
        rw [corsOfValue?, read, Option.map_some]
    · cases unforeseen with
      | items few =>
        rw [corsOfValue?, ruleOfItems?_eq_some_iff.2 ⟨_, few, rfl, rfl⟩, Option.map_some]
      | date text => rfl

theorem DocumentedAs.not_unforeseenAs {v : Toml.Value} {cors other : CorsPolicy}
    (h : DocumentedAs v cors) : ¬UnforeseenAs v other := by
  cases h <;> nofun

section

variable {entries : List (String × Toml.Value)} (h : (Toml.Value.table entries).Distinct)
include h

theorem ofEntries?_eq_some_iff {cors : CorsPolicy} :
    ofEntries? entries = some ⟨cors⟩ ↔ Documented entries cors ∨ Unforeseen entries cors := by
  obtain ⟨keys, values⟩ := Toml.Value.distinct_table_iff.1 h
  unfold ofEntries?
  split
  · next free =>
    have missing := lookup_eq_none_iff_notMem.1 free
    constructor
    · intro read
      obtain rfl := Config.mk.inj (Option.some.inj read)
      exact .inl (.inl ⟨missing, rfl⟩)
    · rintro ((⟨-, rfl⟩ | ⟨v, mem, -⟩) | ⟨v, mem, -⟩)
      · rfl
      · exact absurd mem (missing v)
      · exact absurd mem (missing v)
  · next v found =>
    have mem := (lookup_eq_some_iff_mem keys).1 found
    have means : corsOfValue? v = some cors ↔ DocumentedAs v cors ∨ UnforeseenAs v cors :=
      corsOfValue?_eq_some_iff (values _ mem)
    constructor
    · intro read
      obtain ⟨_, hcors, same⟩ := Option.map_eq_some_iff.1 read
      obtain rfl := Config.mk.inj same
      exact (means.1 hcors).imp (fun documented => .inr ⟨v, mem, documented⟩)
        fun unforeseen => ⟨v, mem, unforeseen⟩
    · have only : ∀ {w}, ("default_cors", w) ∈ entries → w = v := by
        intro w hw
        exact Option.some.inj (((lookup_eq_some_iff_mem keys).2 hw).symm.trans found)
      rintro ((⟨missing, -⟩ | ⟨w, hw, documented⟩) | ⟨w, hw, unforeseen⟩)
      · exact absurd mem (missing v)
      · obtain rfl := only hw
        rw [means.2 (.inl documented), Option.map_some]
      · obtain rfl := only hw
        rw [means.2 (.inr unforeseen), Option.map_some]

theorem Documented.not_unforeseen {cors other : CorsPolicy} (documented : Documented entries cors) :
    ¬Unforeseen entries other := by
  rintro ⟨v, mem, unforeseen⟩
  rcases documented with ⟨missing, -⟩ | ⟨w, hw, documented⟩
  · exact missing v mem
  · have keys := (Toml.Value.distinct_table_iff.1 h).1
    have found := (lookup_eq_some_iff_mem keys).2 mem
    rw [(lookup_eq_some_iff_mem keys).2 hw] at found
    obtain rfl := Option.some.inj found
    exact documented.not_unforeseenAs unforeseen

end

section

variable {text : String} {entries : List (String × Toml.Value)}
  (came : Toml.document? text = some entries)
include came

theorem ofText_eq_ok_iff {c : Config} : ofText text = .ok c ↔ ofEntries? entries = some c := by
  rw [ofText, came, Option.bind_some]
  cases ofEntries? entries <;> simp

theorem ofText_eq_error_iff : ofText text = .error .malformed ↔ ofEntries? entries = none := by
  rw [ofText, came, Option.bind_some]
  cases ofEntries? entries <;> simp

theorem ofText_eq_ok_iff_documented {cors : CorsPolicy} :
    ofText text = .ok ⟨cors⟩ ↔ Documented entries cors ∨ Unforeseen entries cors := by
  rw [ofText_eq_ok_iff came, ofEntries?_eq_some_iff (Toml.distinct_of_document? came)]

theorem ofText_eq_error_of_not_documented (undocumented : ∀ cors, ¬Documented entries cors)
    (foreseen : ∀ cors, ¬Unforeseen entries cors) : ofText text = .error .malformed := by
  rw [ofText_eq_error_iff came, Option.eq_none_iff_forall_ne_some]
  rintro ⟨cors⟩ read
  have distinct := Toml.distinct_of_document? came
  rcases (ofEntries?_eq_some_iff distinct).1 read with documented | unforeseen
  · exact undocumented cors documented
  · exact foreseen cors unforeseen

theorem not_readsAsDocumented {cors : CorsPolicy} (unforeseen : Unforeseen entries cors) :
    ¬ReadsAsDocumented text := by
  intro reads
  have taken := (ofText_eq_ok_iff_documented came).2 (.inr unforeseen)
  have documented := ((reads entries came).1 cors).1 taken
  exact documented.not_unforeseen (Toml.distinct_of_document? came) unforeseen

/-- A document gives the default policy that is documented or else the one that is taken besides,
and fails where there is neither. It is read as documented just if its default policy is no array
of up to three texts and no date. -/
theorem reads_as_documented_iff :
    (∀ cors, ofText text = .ok ⟨cors⟩ ↔ Documented entries cors ∨ Unforeseen entries cors) ∧
      ((∀ cors, ¬Documented entries cors) → (∀ cors, ¬Unforeseen entries cors) →
        ofText text = .error .malformed) ∧
      (ReadsAsDocumented text ↔ ∀ cors, ¬Unforeseen entries cors) := by
  refine ⟨fun cors => ofText_eq_ok_iff_documented came, ?_, ?_, ?_⟩
  · exact ofText_eq_error_of_not_documented came
  · intro reads cors unforeseen
    exact not_readsAsDocumented came unforeseen reads
  · intro foreseen entries' came'
    obtain rfl := Option.some.inj (came.symm.trans came')
    refine ⟨fun cors => ?_, fun undocumented => ?_⟩
    · rw [ofText_eq_ok_iff_documented came, or_iff_left (foreseen cors)]
    · exact ofText_eq_error_of_not_documented came undocumented foreseen

end

theorem reads_as_documented_iff_rule :
    Toml.document? "[default_cors]\nallow_origin = \"*\"" =
        some [("default_cors", .table [("allow_origin", .string "*")])] ∧
      ReadsAsDocumented "[default_cors]\nallow_origin = \"*\"" := by
  have came : Toml.document? "[default_cors]\nallow_origin = \"*\"" =
      some [("default_cors", .table [("allow_origin", .string "*")])] := by
    simp only [Toml.document?, String.reduceToList]
    rfl
  refine ⟨came, (reads_as_documented_iff came).2.2.2 ?_⟩
  rintro cors ⟨v, mem, unforeseen⟩
  obtain rfl : v = .table [("allow_origin", .string "*")] := by simpa using mem
  cases unforeseen

/-- An array is no documented value, and yet one that holds a text is taken for a rule. -/
theorem array_read_as_rule :
    ofText "default_cors = [\"a\"]" = .ok ⟨.custom ⟨some "a", none, none⟩⟩ ∧
      ¬ReadsAsDocumented "default_cors = [\"a\"]" := by
  have came : Toml.document? "default_cors = [\"a\"]" =
      some [("default_cors", .array [.string "a"])] := by
    simp only [Toml.document?, String.reduceToList]
    rfl
  have unforeseen :
      Unforeseen [("default_cors", .array [.string "a"])] (.custom ⟨some "a", none, none⟩) :=
    ⟨_, List.mem_singleton_self _, @UnforeseenAs.items ["a"] (by decide)⟩
  have taken := (ofText_eq_ok_iff_documented came).2 (.inr unforeseen)
  exact ⟨taken, not_readsAsDocumented came unforeseen⟩

end PatternRouter.Config
