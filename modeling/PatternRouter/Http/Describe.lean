import PatternRouter.Http.Router
import PatternRouter.Router.Describe

namespace PatternRouter

instance : Describe Method := ⟨Method.name⟩

instance : Describe CorsRule :=
  ⟨fun c => describeRecord "CorsRule"
    [("allow_origin", describe c.allowOrigin), ("allow_headers", describe c.allowHeaders),
      ("expose_headers", describe c.exposeHeaders)]⟩

instance : Describe CorsPolicy :=
  ⟨fun
    | .disabled => "Disabled"
    | .permissive => "Permissive"
    | .custom rule => describeOne "Custom" (describe rule)⟩

instance {α : Type} [Describe α] : Describe (Endpoint α) :=
  ⟨fun e => describeRecord "RouteEntry"
    [("method", describe e.method), ("data", describe e.data), ("cors", describe e.cors)]⟩

def HttpRouter.describe {α : Type} [Describe α] (r : HttpRouter α) (w : Workspace) : String :=
  describeRecord "HttpRouter"
    [("routes", r.routes.describe w), ("default_cors", PatternRouter.describe r.defaultCors),
      ("cors_provider", PatternRouter.describe r.provider.isSome)]

end PatternRouter
