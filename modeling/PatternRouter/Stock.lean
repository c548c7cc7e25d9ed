import PatternRouter.Service.Basic

/-!
Stock for sessions: providers and handlers by name, and a limit on the size of expressions. No other
module uses them.
-/

namespace PatternRouter

/-- The limit that admits the expressions whose text is at most so long. -/
@[reducible] def SizeLimit.ofLength (most : Nat) : SizeLimit where
  admits text := text.length ≤ most

/-- The parameters as `name=value`, with `&` between them. -/
def Params.query (p : Params) : String :=
  "&".intercalate (p.entries.map fun e => e.1 ++ "=" ++ e.2)

def CorsPolicy.word : CorsPolicy → String
  | disabled => "disabled"
  | permissive => "permissive"
  | custom _ => "custom"

/-- The policy for an origin: its own, and no other, if it is one of the `.example` domain. -/
def corsOfOrigin (origin : String) : CorsPolicy :=
  if ".example".toList.isSuffixOf origin.toList then .custom ⟨some origin, none, none⟩
  else .disabled

namespace PolicyProvider

variable {α : Type}

def const (cors : CorsPolicy) : PolicyProvider α := fun _ _ _ => cors

/-- Lets the origins of one domain in; a request without a readable origin gets the default. -/
def echoOrigin : PolicyProvider α := fun _ headers s =>
  match headers.first? originHeader with
  | some origin => if isPlainValue origin.toList then corsOfOrigin origin else s.cors
  | none => s.cors

/-- Tells in the texts of a rule what it was asked about. -/
def account : PolicyProvider α := fun method headers s =>
  .custom
    ⟨some (method.name ++ " " ++ s.method.name ++ " headers=" ++ toString headers.length),
      some (toString s.index ++ " " ++ s.source ++ " " ++ s.params.query),
      some s.cors.word⟩

def ofName? : String → Option (PolicyProvider α)
  | "permissive" => some (const .permissive)
  | "disabled" => some (const .disabled)
  | "echo_origin" => some echoOrigin
  | "describe" => some account
  | _ => none

end PolicyProvider

namespace Handler

def account (name : String) (request : Request) (params : Params) : String :=
  name ++ "|" ++ request.head.method.name ++ " " ++ request.head.uri.path ++ "|" ++ params.query

def brief (name : String) : Handler := fun request params =>
  .ok ⟨200, [], account name request params⟩

/-- Answers with its account and the body of the request, or fails with its account. -/
def echo (name : String) (status : Nat) (fails : Bool) (headers : Headers) : Handler :=
  fun request params =>
    let told := account name request params
    if fails then .error told else .ok ⟨status, headers, told ++ "|" ++ request.body⟩

end Handler

end PatternRouter
