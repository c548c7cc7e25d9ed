import PatternRouter.Event
import PatternRouter.Http.Header
import PatternRouter.Http.Method

namespace PatternRouter

/-- The texts of a rule; each is sent as it is, or not at all. -/
structure CorsRule where
  allowOrigin : Option String
  allowHeaders : Option String
  exposeHeaders : Option String
  deriving DecidableEq, Repr

/-- The cross-origin policy of a route. -/
inductive CorsPolicy where
  | disabled
  /-- Every origin and every header is allowed. -/
  | permissive
  | custom (rule : CorsRule)
  deriving DecidableEq, Repr

def allowOriginHeader : String := "access-control-allow-origin"
def allowHeadersHeader : String := "access-control-allow-headers"
def allowMethodsHeader : String := "access-control-allow-methods"
def exposeHeadersHeader : String := "access-control-expose-headers"
def requestMethodHeader : String := "access-control-request-method"
def originHeader : String := "origin"

/-- The field for a text of a rule; a text that is no header value is reported and left out. -/
def corsField (name : String) : Option String → Headers × List Event
  | none => ([], [])
  | some value =>
    if isHeaderValue value.toList then ([⟨name, value⟩], [])
    else ([], [.badCorsValue name value])

/-- The field that allows the method of a preflight. -/
def methodField : Option Method → Headers × List Event
  | none => ([], [])
  | some m =>
    if isHeaderValue m.name.toList then ([⟨allowMethodsHeader, m.name⟩], [])
    else ([], [.badCorsMethod m.name])

namespace CorsRule

def empty : CorsRule := ⟨none, none, none⟩

end CorsRule

namespace CorsPolicy

def ofFlag : Bool → CorsPolicy
  | true => permissive
  | false => disabled

/-- The texts that a policy sends, unless it is disabled. -/
def rule? : CorsPolicy → Option CorsRule
  | disabled => none
  | permissive => some ⟨some "*", some "*", some "*"⟩
  | custom rule => some rule

/-- The fields of a response under a policy, and what is reported on the way. `preflight` is the
method that a preflight asks about, and `none` for every other request. Allowed headers belong to
preflights alone and exposed headers to all other responses. -/
def headers (cors : CorsPolicy) (preflight : Option Method) : Headers × List Event :=
  match cors.rule? with
  | none => ([], [])
  | some rule =>
    let origin := corsField allowOriginHeader rule.allowOrigin
    let second :=
      if preflight.isSome then corsField allowHeadersHeader rule.allowHeaders
      else corsField exposeHeadersHeader rule.exposeHeaders
    let method := methodField preflight
    (origin.1 ++ second.1 ++ method.1, origin.2 ++ second.2 ++ method.2)

end CorsPolicy

/-- The method that a preflight announces, or `none` where the request is no preflight. Only the
first announcement counts, and letter case and white space around it do not matter. -/
def announcedMethod? (method : Method) (headers : Headers) : Option Method :=
  if method = Method.options then
    match headers.first? requestMethodHeader with
    | some value => if isPlainValue value.toList then Method.ofText? value else none
    | none => none
  else none

end PatternRouter
