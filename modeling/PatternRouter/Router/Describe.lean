import PatternRouter.Router.Basic
import PatternRouter.Text.Describe

namespace PatternRouter

instance : Describe Node :=
  ⟨fun
    | .literal text => describeRecord "Literal" [("text", describe text)]
    | .named name optional =>
      describeRecord "Named" [("name", describe name), ("optional", describe optional)]
    | .rest => "Rest"⟩

instance : Describe Node.Kind :=
  ⟨fun
    | .literal => "Literal"
    | .required => "Required"
    | .optional => "Optional"
    | .rest => "Rest"⟩

instance : Describe Expression := ⟨fun x => describeOne "Regex" (describe x.text)⟩

instance : Describe Pattern :=
  ⟨fun p => describeRecord "CompiledPattern"
    [("source", describe p.source), ("nodes", describe p.nodes),
      ("regex", describe p.expression), ("key", describe p.shape)]⟩

instance {α : Type} [Describe α] : Describe (Shared α) := ⟨fun s => describe s.value⟩

instance {α : Type} [Describe α] : Describe (Route α) :=
  ⟨fun r => describeRecord "Route" [("pattern", describe r.pattern), ("data", describe r.data)]⟩

instance : Describe Cache :=
  ⟨fun c => describeRecord "PatternCache"
    [("map", describeMap (c.entries.map fun e => (describe e.1, describe e.2)))]⟩

def Router.describe {α : Type} [Describe α] (r : Router α) (w : Workspace) : String :=
  describeRecord "Router"
    [("routes", PatternRouter.describe r.routes), ("version", PatternRouter.describe r.version),
      ("patterns", PatternRouter.describe (w.cache r.cache)),
      ("table", describeRecord "TableCache"
        [("version", PatternRouter.describe (r.memo.map (·.value.version)))])]

end PatternRouter
