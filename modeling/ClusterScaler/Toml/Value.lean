import ClusterScaler.Json.Basic

/-!
# TOML values

What a TOML text denotes, with what is needed to tell whether a later line may extend a table: was
it written in braces, opened by a header, or only implied by a longer header or a dotted key.
-/

set_option autoImplicit false

namespace ClusterScaler

/-- How a table came into being. -/
inductive TableOrigin where
  /-- Written in braces. -/
  | inline
  /-- Implied by a dotted key inside braces. -/
  | inlineDotted
  /-- Opened by a header of its own, or the whole document. -/
  | header
  /-- Implied by a longer header. -/
  | implied
  /-- Implied by a dotted key. -/
  | dotted
  deriving DecidableEq, Repr

/-- Whether a table was implied and not yet opened. -/
def TableOrigin.isImplicit : TableOrigin → Bool
  | .implied | .dotted => true
  | _ => false

/-- Whether a table was implied by a dotted key. -/
def TableOrigin.isDotted : TableOrigin → Bool
  | .dotted | .inlineDotted => true
  | _ => false

/-- A TOML value. The entries of a table stand in the order of the text. -/
inductive Toml where
  | str (s : String)
  | int (n : Int)
  | float (x : Float)
  | bool (b : Bool)
  /-- A date, a time or both, in normal form. -/
  | time (text : String)
  | array (items : List Toml)
  | table (origin : TableOrigin) (entries : List (String × Toml))
  /-- The tables of double-bracket headers, latest first. -/
  | tables (latestFirst : List (List (String × Toml)))
  deriving Inhabited

namespace Toml

/-- The only key of the object that stands for a date or time. -/
def timeKey : String := "$__toml_private_datetime"

/-- An integer as a JSON number. -/
def intNumber (n : Int) : JsonNumber :=
  if n < 0 then .negative n.natAbs else .natural n.natAbs

mutual

/-- The same value in the shape of JSON. Floats stay as they are, even when JSON has no number for
them. -/
def toJson : Toml → Json
  | .str s => .str s
  | .int n => .num (intNumber n)
  | .float x => .num (.double x)
  | .bool b => .bool b
  | .time text => .obj [(timeKey, .str text)]
  | .array items => .arr (itemsToJson items)
  | .table _ entries => Json.object (entriesToJson entries)
  | .tables latestFirst => .arr (tablesToJson latestFirst).reverse

/-- `toJson` on every item. -/
def itemsToJson : List Toml → List Json
  | [] => []
  | t :: rest => toJson t :: itemsToJson rest

/-- `toJson` on the value of every entry. -/
def entriesToJson : List (String × Toml) → List (String × Json)
  | [] => []
  | (k, t) :: rest => (k, toJson t) :: entriesToJson rest

/-- `toJson` on every table. -/
def tablesToJson : List (List (String × Toml)) → List Json
  | [] => []
  | entries :: rest => Json.object (entriesToJson entries) :: tablesToJson rest

end

end Toml

end ClusterScaler
