import ClusterScaler.Toml.Value

/-!
# Building TOML tables

How a line of a TOML text changes the tables read so far. A key has one value; a table is opened by
one header only; and a dotted key extends only tables that were implied by headers or by other
dotted keys.
-/

set_option autoImplicit false

namespace ClusterScaler.Toml

/-- The entries of a table, in the order of the text. -/
abbrev Entries := List (String × Toml)

/-- The value of a key. -/
def find? (es : Entries) (key : String) : Option Toml := (es.find? (·.1 == key)).map (·.2)

/-- Put a value under a key, in the place of the old one or at the end. -/
def put (es : Entries) (key : String) (v : Toml) : Entries :=
  if es.any (·.1 == key) then es.map (fun e => if e.1 == key then (key, v) else e)
  else es ++ [(key, v)]

/-- The entries without a key. -/
def drop (es : Entries) (key : String) : Entries := es.filter (·.1 != key)

/-- Add a value under a new key. -/
def addNew? (key : String) (v : Toml) (es : Entries) : Option Entries :=
  if es.any (·.1 == key) then none else some (es ++ [(key, v)])

/-- Change the table that a path leads to, from a table of the given origin on. Missing tables are
made with the origin `fresh`; through an array of tables the path goes on in its latest table.
`f` learns the origin of the table it changes. -/
def changeAt? (fresh : TableOrigin) (f : TableOrigin → Entries → Option Entries) :
    List String → TableOrigin → Entries → Option Entries
  | [], origin, es => f origin es
  | key :: path, _, es =>
    match (find? es key).getD (.table fresh []) with
    | .table origin inner =>
      let allowed : Bool := match fresh with
        | .inlineDotted => origin == .inlineDotted
        | .dotted => origin.isImplicit
        | _ => origin == .header || origin.isImplicit
      if allowed then do
        let inner ← changeAt? fresh f path origin inner
        return put es key (.table origin inner)
      else none
    | .tables (latest :: earlier) =>
      if fresh == .inlineDotted then none
      else do
        let latest ← changeAt? fresh f path .header latest
        return put es key (.tables (latest :: earlier))
    | _ => none

/-- Add the value of a possibly dotted key to a table. The table it lands in must itself have been
implied by a dotted key, unless the key has no dots. -/
def addKey? (fresh : TableOrigin) (path : List String) (key : String) (v : Toml) (es : Entries) :
    Option Entries :=
  changeAt? fresh
    (fun origin es => if path.isEmpty || origin.isDotted then addNew? key v es else none)
    path .header es

/-- The table of the entries between braces, dotted keys included. -/
def inlineTable? (entries : List (List String × String × Toml)) : Option Toml := do
  let es ← entries.foldlM (fun es (path, key, v) => addKey? .inlineDotted path key v es) []
  return .table .inline es

/-- What the latest header opened. -/
inductive Opened where
  | document
  | table (path : List String) (key : String)
  | arrayItem (path : List String) (key : String)

/-- A document while it is read: everything closed so far, what the latest header opened, and the
entries under it. -/
structure Draft where
  root : Entries
  opened : Opened
  current : Entries

/-- A document before its first line. -/
def Draft.start : Draft := ⟨[], .document, []⟩

/-- Put the entries of the latest header where they belong. -/
def Draft.close? (d : Draft) : Option Entries :=
  match d.opened with
  | .document => some d.current
  | .table path key =>
    changeAt? .implied
      (fun _ es =>
        match find? es key with
        | none => some (put es key (.table .header d.current))
        | some (.table origin _) =>
          if origin.isImplicit then some (put es key (.table .header d.current)) else none
        | some _ => none)
      path .header d.root
  | .arrayItem path key =>
    changeAt? .implied
      (fun _ es =>
        match find? es key with
        | none => some (put es key (.tables [d.current]))
        | some (.tables latestFirst) => some (put es key (.tables (d.current :: latestFirst)))
        | some _ => none)
      path .header d.root

/-- Take the table that a header is about to open out of its parent: what was implied there before
is kept, anything else under the key is a fault. -/
def takeImplied? (key : String) (es : Entries) : Option (Entries × Entries) :=
  match find? es key with
  | none => some (es, [])
  | some (.table .implied inner) => some (drop es key, inner)
  | some _ => none

/-- Open a table by a header. -/
def Draft.openTable? (d : Draft) (path : List String) (key : String) : Option Draft := do
  let root ← d.close?
  let inner ← lookup path root
  let root ← changeAt? .implied (fun _ es => (takeImplied? key es).map (·.1)) path .header root
  return ⟨root, .table path key, inner⟩
where
  /-- The entries implied so far under the key of the table at the end of a path. -/
  lookup : List String → Entries → Option Entries
    | [], es => (takeImplied? key es).map (·.2)
    | k :: path, es =>
      match find? es k with
      | none => some []
      | some (.table _ inner) => lookup path inner
      | some (.tables (latest :: _)) => lookup path latest
      | some _ => none

/-- Open the next table of an array by a double-bracket header. -/
def Draft.openItem? (d : Draft) (path : List String) (key : String) : Option Draft := do
  let root ← d.close?
  let root ← changeAt? .implied
    (fun _ es =>
      match find? es key with
      | none => some (put es key (.tables []))
      | some (.tables _) => some es
      | some _ => none)
    path .header root
  return ⟨root, .arrayItem path key, []⟩

/-- Add a line with a key and a value. -/
def Draft.add? (d : Draft) (path : List String) (key : String) (v : Toml) : Option Draft := do
  let current ← addKey? .dotted path key v d.current
  return { d with current }

end ClusterScaler.Toml
