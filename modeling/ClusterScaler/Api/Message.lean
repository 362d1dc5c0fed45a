import ClusterScaler.Json.Basic

/-!
# Requests and responses

HTTP messages as far as the interface looks at them. The type of a response's content follows from
what the content is.
-/

set_option autoImplicit false

namespace ClusterScaler.Api

/-- A request. -/
structure Request where
  method : String
  /-- The path, and a query that is not looked at. -/
  target : String
  contentType : Option String := none
  body : String := ""
  deriving DecidableEq, Repr

/-- The path of a request. -/
def Request.path (r : Request) : String :=
  String.ofList (r.target.toList.takeWhile (fun c => c != '?' && c != '#'))

/-- What a response says. -/
inductive Content where
  | nothing
  | data (value : Json)
  /-- A text of metrics. -/
  | metrics (text : String)
  /-- Why a body was not accepted. -/
  | remark (text : String)

/-- The media type of a content, with its parameters. -/
def Content.mediaType : Content → Option String
  | nothing => none
  | data _ => some "application/json"
  | metrics _ => some "text/plain; version=0.0.4; charset=utf-8"
  | remark _ => some "text/plain; charset=utf-8"

/-- A response. -/
structure Response where
  code : Nat
  content : Content := .nothing
  /-- The methods that the path allows, where the one of the request is none of them. -/
  allow : List String := []
  /-- Whether the content is left out, its type aside. -/
  headOnly : Bool := false

end ClusterScaler.Api
