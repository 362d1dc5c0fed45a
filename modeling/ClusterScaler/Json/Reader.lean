import ClusterScaler.Json.Document

/-!
# Reading values out of documents

Readers walk a document in the order of its text and stop at the first fault: a place where the
text is not JSON, or a value of another shape than the one asked for. So of two faults the earlier
one decides, as if the text were read only once. Values that nobody asks for need not be such as
can be held.
-/

set_option autoImplicit false

namespace ClusterScaler

/-- Why a document does not hold the value asked for. -/
inductive ReadFault where
  /-- The text is not JSON, or a value in it cannot be held. -/
  | malformed
  /-- The text is JSON, but not of the shape asked for. -/
  | unexpected
  deriving DecidableEq, Repr

/-- A reader of values. -/
abbrev Reader (α : Type) := Document → Except ReadFault α

namespace Reader

variable {α σ : Type}

/-- The fault of a value of another shape. -/
def mismatch : Reader α
  | .unheld _ | .broken => .error .malformed
  | _ => .error .unexpected

/-- A text. -/
def text : Reader String
  | .str s => .ok s
  | d => mismatch d

/-- A natural number of at most `bits` bits. -/
def nat (bits : Nat) : Reader Nat
  | .num (.natural n) => if n < Nat.pow 2 bits then .ok n else .error .unexpected
  | d => mismatch d

/-- A number, as the nearest double. -/
def float : Reader Float
  | .num n => .ok n.toFloat
  | d => mismatch d

mutual

/-- Any value. -/
def anything : Reader Unit
  | .broken => .error .malformed
  | .arr items closed => do
    allItems items
    if closed then .ok () else .error .malformed
  | .obj members closed => do
    allMembers members
    if closed then .ok () else .error .malformed
  | .unheld inner => anything inner
  | .null | .bool _ | .num _ | .str _ => .ok ()

/-- Any items. -/
def allItems : List Document → Except ReadFault Unit
  | [] => .ok ()
  | d :: rest => do
    anything d
    allItems rest

/-- Any members. -/
def allMembers : List (String × Document) → Except ReadFault Unit
  | [] => .ok ()
  | (_, d) :: rest => do
    anything d
    allMembers rest

end

/-- A list. -/
def list (item : Reader α) : Reader (List α)
  | .arr items closed => do
    let xs ← items.mapM item
    if closed then .ok xs else .error .malformed
  | d => mismatch d

/-- A table; of two members with one key the later stays. -/
def table (value : Reader α) : Reader (Table String α)
  | .obj members closed => do
    let es ← members.mapM (fun m => do return (m.1, ← value m.2))
    if closed then .ok (Table.ofList es) else .error .malformed
  | d => mismatch d

/-- A setting of a group. -/
structure Field (σ : Type) where
  name : String
  required : Bool
  read : σ → Reader σ

/-- Read the members of a group in turn, given the names that were seen. Members without a setting
are passed over, and no setting may come twice. -/
def visitMembers (fields : List (Field σ)) (seen : List String) (s : σ) :
    List (String × Document) → Except ReadFault (List String × σ)
  | [] => .ok (seen, s)
  | (name, d) :: rest =>
    match fields.find? (·.name == name) with
    | none => do
      anything d
      visitMembers fields seen s rest
    | some f =>
      if seen.contains name then .error .unexpected
      else do visitMembers fields (name :: seen) (← f.read s d) rest

/-- Read the items of a group in the order of its settings. -/
def visitItems (closed : Bool) (s : σ) : List (Field σ) → List Document → Except ReadFault σ
  | [], [] => if closed then .ok s else .error .malformed
  | [], _ :: _ => .error .malformed
  | f :: fields, [] =>
    if !closed then .error .malformed
    else if f.required then .error .unexpected
    else visitItems closed s fields []
  | f :: fields, d :: rest => do visitItems closed (← f.read s d) fields rest

/-- A group of settings: an object, or an array of the values in the order of the settings. -/
def group (fields : List (Field σ)) (init : σ) : Reader σ
  | .obj members closed => do
    let (seen, s) ← visitMembers fields [] init members
    if !closed then .error .malformed
    else if fields.any (fun f => f.required && !seen.contains f.name) then .error .unexpected
    else .ok s
  | .arr items closed => visitItems closed init fields items
  | d => mismatch d

/-- The value of a whole text. -/
def ofText (reader : Reader α) (text : String) : Except ReadFault α := do
  let (d, complete) := Document.read text
  let a ← reader d
  if complete then .ok a else .error .malformed

end Reader

end ClusterScaler
