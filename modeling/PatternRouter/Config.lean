import PatternRouter.Http.Cors
import PatternRouter.Toml.Document

namespace PatternRouter

/-- Why a configuration cannot be used. -/
inductive ConfigError where
  | unreadable
  /-- The text is no document, or its values have the wrong shape. -/
  | malformed
  deriving DecidableEq, Repr

def ConfigError.message : ConfigError → String
  | unreadable => "failed to read config file"
  | malformed => "failed to parse config"

structure Config where
  defaultCors : CorsPolicy
  deriving DecidableEq, Repr

namespace Config

/-- The text under a key, which may be missing but not be anything else. -/
def textField? (entries : List (String × Toml.Value)) (name : String) : Option (Option String) :=
  match entries.lookup name with
  | none => some none
  | some (.string s) => some (some s)
  | some _ => none

/-- The rule with these texts, as many as there are. -/
def ruleOfItems? : List Toml.Value → Option CorsRule
  | [] => some CorsRule.empty
  | [.string a] => some ⟨some a, none, none⟩
  | [.string a, .string b] => some ⟨some a, some b, none⟩
  | [.string a, .string b, .string c] => some ⟨some a, some b, some c⟩
  | _ => none

/-- The rule with the texts of a table. -/
def ruleOfTable? (entries : List (String × Toml.Value)) : Option CorsRule := do
  let allowOrigin ← textField? entries "allow_origin"
  let allowHeaders ← textField? entries "allow_headers"
  let exposeHeaders ← textField? entries "expose_headers"
  return ⟨allowOrigin, allowHeaders, exposeHeaders⟩

/-- The policy that a value means. A date counts as a table without texts. -/
def corsOfValue? : Toml.Value → Option CorsPolicy
  | .boolean b => some (.ofFlag b)
  | .table entries => (ruleOfTable? entries).map .custom
  | .array items => (ruleOfItems? items).map .custom
  | .datetime _ => some (.custom CorsRule.empty)
  | .string _ => none
  | .integer _ => none
  | .float _ => none

/-- The configuration that the top table of a document means; all keys but `default_cors` are
ignored. -/
def ofEntries? (entries : List (String × Toml.Value)) : Option Config :=
  match entries.lookup "default_cors" with
  | none => some ⟨.disabled⟩
  | some v => (corsOfValue? v).map fun cors => ⟨cors⟩

def ofText (text : String) : Except ConfigError Config :=
  match (Toml.document? text).bind ofEntries? with
  | some c => .ok c
  | none => .error .malformed

/-- Reads the configuration in a file with this content, or in one that does not exist. -/
def load (content : Option ByteArray) : Except ConfigError Config :=
  match content.bind String.fromUTF8? with
  | some text => ofText text
  | none => .error .unreadable

end Config

end PatternRouter
