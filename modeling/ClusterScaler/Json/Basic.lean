import ClusterScaler.Table

/-!
# JSON values

Numbers keep apart what a JSON text keeps apart: naturals up to 64 bits, negative integers down to
`-2 ^ 63`, and doubles. The members of an object stand in increasing key order, each key once;
`Json.object` brings any member list into that form.
-/

set_option autoImplicit false

namespace ClusterScaler

/-- A JSON number. -/
inductive JsonNumber where
  /-- A natural number below `2 ^ 64`. -/
  | natural (n : Nat)
  /-- The number `-n`, for `n` from 1 to `2 ^ 63`. -/
  | negative (n : Nat)
  | double (x : Float)
  deriving BEq

/-- The double nearest to a number. -/
def JsonNumber.toFloat : JsonNumber → Float
  | .natural n => n.toFloat
  | .negative n => -(n.toFloat)
  | .double x => x

/-- A JSON value. -/
inductive Json where
  | null
  | bool (b : Bool)
  | num (n : JsonNumber)
  | str (s : String)
  | arr (items : List Json)
  | obj (members : List (String × Json))
  deriving Inhabited

namespace Json

/-- A natural number as a value. -/
def nat (n : Nat) : Json := .num (.natural n)

/-- A double as a value. -/
def double (x : Float) : Json := .num (.double x)

/-- A text or `null`. -/
def optStr : Option String → Json
  | none => .null
  | some s => .str s

/-- The object with the given members; of two with one key the later stays. -/
def object (members : List (String × Json)) : Json := .obj (Table.ofList members).entries

/-- A table as an object. -/
def ofTable {α : Type} (f : α → Json) (t : Table String α) : Json :=
  .obj (t.entries.map (fun e => (e.1, f e.2)))

/-- A list as an array. -/
def ofList {α : Type} (f : α → Json) (xs : List α) : Json := .arr (xs.map f)

/-- The member of an object under `key`. -/
def get? (j : Json) (key : String) : Option Json :=
  match j with
  | .obj members => (members.find? (·.1 == key)).map (·.2)
  | _ => none

mutual

/-- The same value with the members of every object, at any depth, in increasing key order. -/
def canonical : Json → Json
  | .arr items => .arr (canonicalItems items)
  | .obj members => .obj (Table.ofList (canonicalMembers members)).entries
  | j => j

/-- `canonical` on every item. -/
def canonicalItems : List Json → List Json
  | [] => []
  | j :: rest => j.canonical :: canonicalItems rest

/-- `canonical` on the value of every member. -/
def canonicalMembers : List (String × Json) → List (String × Json)
  | [] => []
  | (k, j) :: rest => (k, j.canonical) :: canonicalMembers rest

end

end Json

end ClusterScaler
