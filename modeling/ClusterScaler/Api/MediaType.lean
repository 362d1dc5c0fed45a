/-!
# Media types

The names in a `Content-Type` header, and which of them say that a body is JSON: `application/json`
and every application type with the suffix `json`, whatever its parameters.
-/

set_option autoImplicit false

namespace ClusterScaler.Api

/-- A media type without its parameters, in lower case. -/
structure MediaType where
  kind : String
  /-- What follows the slash, up to the suffix. -/
  subtype : String
  /-- What follows the last plus sign. -/
  suffix : Option String
  deriving DecidableEq, Repr

namespace MediaType

/-- The characters of names. -/
def isToken (c : Char) : Bool := c.isAlphanum || "!#$%&'*+-.^_`|~".toList.contains c

/-- The characters of quoted values. -/
def isQuotable (c : Char) : Bool := 32 ≤ c.toNat && c.toNat < 127

/-- How far a list of parameters has been read. -/
inductive ParameterState where
  /-- Before a parameter. -/
  | start
  /-- In its name. -/
  | name
  /-- After the equals sign. -/
  | equals
  /-- In a value without quotes. -/
  | value
  /-- After an opening quote. -/
  | opened
  /-- In a quoted value, which has at least one character. -/
  | quoted
  /-- After a closing quote. -/
  | closed

/-- Read one more character of a list of parameters. -/
def ParameterState.next : ParameterState → Char → Option ParameterState
  | start, c => if c == ' ' then some start else if isToken c then some name else none
  | name, c => if c == '=' then some equals else if isToken c then some name else none
  | equals, c => if c == '"' then some opened else if isToken c then some value else none
  | value, c => if c == ';' then some start else if isToken c then some value else none
  | opened, c => if isQuotable c then some quoted else none
  | quoted, c => if c == '"' then some closed else if isQuotable c then some quoted else none
  | closed, c => if c == ';' then some start else if c == ' ' then some closed else none

/-- Whether a list of parameters may end here. -/
def ParameterState.isEnd : ParameterState → Bool
  | start | equals | value | closed => true
  | name | opened | quoted => false

/-- Whether a text is a list of parameters. -/
def areParameters (cs : List Char) : Bool :=
  (cs.foldlM ParameterState.next .start).any (·.isEnd)

/-- The names of a subtype, divided at its last plus sign; one at the front does not divide. -/
def splitSuffix (cs : List Char) : List Char × Option (List Char) :=
  let suffix := (cs.reverse.takeWhile (· != '+')).reverse
  let front := cs.take (cs.length - suffix.length - 1)
  if suffix.length = cs.length || front.isEmpty then (cs, none) else (front, some suffix)

/-- The media type that a header names. -/
def ofText? (s : String) : Option MediaType :=
  let cs := s.toList.map Char.toLower
  let kind := cs.takeWhile isToken
  match cs.dropWhile isToken with
  | '/' :: rest =>
    let names := rest.takeWhile isToken
    let complete := match rest.dropWhile isToken with
      | [] => true
      | ';' :: parameters => !names.isEmpty && areParameters parameters
      | _ => false
    if kind.isEmpty || !complete then none
    else
      let (subtype, suffix) := splitSuffix names
      some ⟨String.ofList kind, String.ofList subtype, suffix.map String.ofList⟩
  | _ => none

/-- Whether bodies of the type are JSON. -/
def isJson (m : MediaType) : Bool :=
  m.kind == "application" && (m.subtype == "json" || m.suffix == some "json")

end MediaType

end ClusterScaler.Api
