import ClusterScaler.Toml.Insertion
import ClusterScaler.Toml.Scalar

/-!
# Reading TOML

`Toml.parse?` reads a whole text: lines with keys and values, table headers, comments.
-/

set_option autoImplicit false

namespace ClusterScaler.Toml

/-- How deep arrays and tables in braces may be nested, and how long a dotted key may be. -/
def maxDepth : Nat := 79

/-- The text after a comment, if there is one. -/
def skipComment : List Char → List Char
  | '#' :: rest => rest.dropWhile isCommentChar
  | cs => cs

/-- The text after the end of a line, which may be the end of the text. -/
def endOfLine? : List Char → Option (List Char)
  | [] => some []
  | cs => newline? cs

/-- The text after blanks, a comment and the end of a line. -/
def endOfEntry? (cs : List Char) : Option (List Char) := endOfLine? (skipComment (skipWs cs))

/-- The text after blanks, comments and line ends. -/
def skipLines : Nat → List Char → Option (List Char)
  | 0, cs => some cs
  | fuel + 1, cs =>
    match skipWs cs with
    | '#' :: rest =>
      match rest.dropWhile isCommentChar with
      | [] => some []
      | rest => (newline? rest).bind (skipLines fuel)
    | rest =>
      match newline? rest with
      | some rest => skipLines fuel rest
      | none => some rest

/-- Whether a character may stand in a key without quotes. -/
def isBareKeyChar (c : Char) : Bool := c.isAlphanum || c == '-' || c == '_'

/-- One part of a key. -/
def keyPart? (cs : List Char) : Option (String × List Char) :=
  match lineString? cs with
  | some r => some r
  | none =>
    match cs.takeWhile isBareKeyChar with
    | [] => none
    | part => some (String.ofList part, cs.drop part.length)

/-- A key of one or more parts joined by dots, with blanks around every part. -/
def key? : Nat → List Char → Option (List String × List Char)
  | 0, _ => none
  | fuel + 1, cs => do
    let (part, rest) ← keyPart? (skipWs cs)
    match skipWs rest with
    | '.' :: rest =>
      let (parts, rest) ← key? fuel rest
      return (part :: parts, rest)
    | rest => return ([part], rest)

/-- A key split into the path to its table and its last part. -/
def splitKey? (cs : List Char) : Option (List String × String × List Char) := do
  let (parts, rest) ← key? maxDepth cs
  return (parts.dropLast, ← parts.getLast?, rest)

mutual

/-- A value and the text after it. `fuel` bounds the steps and `depth` the nesting. -/
def value? : (fuel depth : Nat) → List Char → Option (Toml × List Char)
  | 0, _, _ => none
  | fuel + 1, depth, cs =>
    match cs with
    | '"' :: _ | '\'' :: _ => (string? cs).map (fun (s, rest) => (.str s, rest))
    | '[' :: rest =>
      if depth == 0 then none
      else (items? fuel (depth - 1) rest).map (fun (items, rest) => (.array items, rest))
    | '\x7b' :: rest =>
      if depth == 0 then none
      else
        match skipWs rest with
        | '\x7d' :: rest => some (.table .inline [], rest)
        | rest => do
          let (entries, rest) ← entries? fuel (depth - 1) rest
          return (← inlineTable? entries, rest)
    | cs => scalar? cs

/-- The items of an array up to its closing bracket. -/
def items? : (fuel depth : Nat) → List Char → Option (List Toml × List Char)
  | 0, _, _ => none
  | fuel + 1, depth, cs => do
    match ← skipLines (cs.length + 1) cs with
    | ']' :: rest => return ([], rest)
    | rest =>
      let (v, rest) ← value? fuel depth rest
      match ← skipLines (rest.length + 1) rest with
      | ',' :: rest =>
        let (more, rest) ← items? fuel depth rest
        return (v :: more, rest)
      | ']' :: rest => return ([v], rest)
      | _ => none

/-- The entries of a table in braces up to its closing brace. -/
def entries? : (fuel depth : Nat) → List Char →
    Option (List (List String × String × Toml) × List Char)
  | 0, _, _ => none
  | fuel + 1, depth, cs => do
    let (path, key, rest) ← splitKey? cs
    match rest with
    | '=' :: rest =>
      let (v, rest) ← value? fuel depth (skipWs rest)
      match skipWs rest with
      | ',' :: rest =>
        let (more, rest) ← entries? fuel depth rest
        return ((path, key, v) :: more, rest)
      | '\x7d' :: rest => return ([(path, key, v)], rest)
      | _ => none
    | _ => none

end

/-- Read one line with an entry or a header into a draft. -/
def line? (d : Draft) (cs : List Char) : Option (Draft × List Char) :=
  match cs with
  | '[' :: '[' :: rest => do
    let (path, key, rest) ← splitKey? rest
    match rest with
    | ']' :: ']' :: rest =>
      let rest ← endOfEntry? rest
      return (← d.openItem? path key, rest)
    | _ => none
  | '[' :: rest => do
    let (path, key, rest) ← splitKey? rest
    match rest with
    | ']' :: rest =>
      let rest ← endOfEntry? rest
      return (← d.openTable? path key, rest)
    | _ => none
  | cs => do
    let (path, key, rest) ← splitKey? cs
    match rest with
    | '=' :: rest =>
      let (v, rest) ← value? (2 * rest.length + 2) maxDepth (skipWs rest)
      let rest ← endOfEntry? rest
      return (← d.add? path key v, rest)
    | _ => none

/-- Read the lines of a document into a draft. -/
def lines? : Nat → Draft → List Char → Option Draft
  | 0, _, _ => none
  | fuel + 1, d, cs => do
    match ← skipLines (cs.length + 1) cs with
    | [] => return d
    | rest =>
      let (d, rest) ← line? d rest
      lines? fuel d rest

/-- The entries of a document; a byte order mark in front is not part of it. -/
def parse? (s : String) : Option Entries :=
  let cs := match s.toList with
    | '\uFEFF' :: rest => rest
    | cs => cs
  (lines? (cs.length + 1) .start cs).bind Draft.close?

end ClusterScaler.Toml
