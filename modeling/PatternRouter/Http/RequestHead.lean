import PatternRouter.Fault

namespace PatternRouter

def Method.parse (name : String) : Except Fault Method :=
  match Method.ofName? name with
  | some m => .ok m
  | none => .error .method

def Headers.parse (pairs : List (String × String)) : Except Fault Headers :=
  (Headers.ofPairs pairs).mapError .header

structure RequestHead where
  method : Method
  uri : Uri
  headers : Headers
  deriving DecidableEq, Repr

/-- The head with these texts; a bad target comes before a bad method, and that before a bad
header field. -/
def RequestHead.parse (method uri : String) (headers : List (String × String)) :
    Except Fault RequestHead := do
  let uri ← (Uri.parse uri).mapError .uri
  let method ← Method.parse method
  let headers ← Headers.parse headers
  return ⟨method, uri, headers⟩

end PatternRouter
