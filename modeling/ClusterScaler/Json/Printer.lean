import ClusterScaler.Decimal.Layout
import ClusterScaler.Json.Basic

/-!
# Writing JSON

`compact` writes a value without any blank. `pretty` puts every item and member on a line of its
own, indented by two spaces a level. A string escapes the quote, the backslash and the control
characters below the space, and nothing else.
-/

set_option autoImplicit false

namespace ClusterScaler

/-- A number in the notation of data files; a double that is not finite is `null`. -/
def JsonNumber.text : JsonNumber → String
  | .natural n => String.ofList (Decimal.digits n)
  | .negative n => String.ofList ('-' :: Decimal.digits n)
  | .double x => (Decimal.exchange.render? x).getD "null"

namespace Json

/-- The four hexadecimal digits of a code unit. -/
def hex4 (n : Nat) : List Char :=
  let ds := Nat.toDigits 16 n
  List.replicate (4 - ds.length) '0' ++ ds

/-- One character of a string. -/
def escapeChar (c : Char) : List Char :=
  if c = '"' then ['\\', '"']
  else if c = '\\' then ['\\', '\\']
  else if c = '\n' then ['\\', 'n']
  else if c = '\r' then ['\\', 'r']
  else if c = '\t' then ['\\', 't']
  else if c = '\x08' then ['\\', 'b']
  else if c = '\x0c' then ['\\', 'f']
  else if c.toNat < 32 then ['\\', 'u'] ++ hex4 c.toNat
  else [c]

/-- A string between quotes. -/
def stringText (s : String) : String :=
  String.ofList ('"' :: s.toList.flatMap escapeChar ++ ['"'])

mutual

/-- A value without blanks. -/
def compact : Json → String
  | .null => "null"
  | .bool b => if b then "true" else "false"
  | .num n => n.text
  | .str s => stringText s
  | .arr items => "[" ++ String.intercalate "," (compactItems items) ++ "]"
  | .obj members => "\x7b" ++ String.intercalate "," (compactMembers members) ++ "\x7d"

/-- The texts of the items. -/
def compactItems : List Json → List String
  | [] => []
  | j :: rest => j.compact :: compactItems rest

/-- The texts of the members. -/
def compactMembers : List (String × Json) → List String
  | [] => []
  | (k, j) :: rest => (stringText k ++ ":" ++ j.compact) :: compactMembers rest

end

/-- The blanks of a level. -/
def indentation (level : Nat) : String := String.ofList (List.replicate (2 * level) ' ')

/-- Texts on lines of their own at a level, separated by commas. -/
def lines (level : Nat) : List String → String
  | [] => ""
  | [s] => "\n" ++ indentation level ++ s
  | s :: rest => "\n" ++ indentation level ++ s ++ "," ++ lines level rest

mutual

/-- A value on lines of its own, inside a level. -/
def prettyAt (level : Nat) : Json → String
  | .arr [] => "[]"
  | .arr items =>
    "[" ++ lines (level + 1) (prettyItems (level + 1) items) ++ "\n" ++ indentation level ++ "]"
  | .obj [] => "\x7b\x7d"
  | .obj members =>
    "\x7b" ++ lines (level + 1) (prettyMembers (level + 1) members) ++ "\n" ++ indentation level
      ++ "\x7d"
  | .null => "null"
  | .bool b => if b then "true" else "false"
  | .num n => n.text
  | .str s => stringText s

/-- The texts of the items at a level. -/
def prettyItems (level : Nat) : List Json → List String
  | [] => []
  | j :: rest => prettyAt level j :: prettyItems level rest

/-- The texts of the members at a level. -/
def prettyMembers (level : Nat) : List (String × Json) → List String
  | [] => []
  | (k, j) :: rest => (stringText k ++ ": " ++ prettyAt level j) :: prettyMembers level rest

end

/-- A value on lines of its own. -/
def pretty (j : Json) : String := prettyAt 0 j

end Json

end ClusterScaler
