import PatternRouter.Config
import PatternRouter.Http.Header
import PatternRouter.Http.Uri

namespace PatternRouter

/-- Why a step was not carried out. -/
inductive Fault where
  | route (e : RouteError)
  /-- A registration that may not fail did, with this message. -/
  | abort (message : String)
  | config (e : ConfigError)
  | method
  | header (e : HeaderError)
  | uri (e : UriError)
  | handler (message : String)
  /-- The step speaks of something that there is not. -/
  | unknown (what : String)
  deriving DecidableEq, Repr

namespace Fault

def message : Fault → String
  | route e => e.message
  | abort message => message
  | config e => e.message
  | method => "invalid HTTP method"
  | header e => e.message
  | uri e => e.message
  | handler message => message
  | unknown what => what

end Fault

end PatternRouter
