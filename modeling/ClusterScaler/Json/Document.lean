import ClusterScaler.Json.Basic

/-!
# Reading JSON

`Document.read` turns a text into a document: the value as far as the text makes sense. Where the
text stops being JSON the document holds a `broken` leaf or an array or object that was never
closed, so a reader that walks a document in order meets its faults in the order of the text. A
text that is JSON but denotes nothing that can be held, such as a number that is too large, is only
a fault for a reader that wants its value.

Numbers are read as data files read them: the digits fill a 64-bit significand, further digits are
dropped, and the significand is multiplied or divided once by a power of ten.
-/

set_option autoImplicit false

namespace ClusterScaler

/-- A JSON text as far as it could be read, members in the order of the text. -/
inductive Document where
  | null
  | bool (b : Bool)
  | num (n : JsonNumber)
  | str (s : String)
  | arr (items : List Document) (closed : Bool)
  | obj (members : List (String × Document)) (closed : Bool)
  /-- A number that is too large, a string with half a character, or something nested too deep. -/
  | unheld (inner : Document)
  | broken
  deriving Inhabited

namespace Document

/-- The blanks between tokens. -/
def isGap (c : Char) : Bool := c == ' ' || c == '\t' || c == '\n' || c == '\r'

/-- The text from its first token on. -/
def skip (cs : List Char) : List Char := cs.dropWhile isGap

/-- The value of a hexadecimal digit. -/
def hexValue (c : Char) : Option Nat :=
  if '0' ≤ c && c ≤ '9' then some (c.toNat - 48)
  else if 'a' ≤ c && c ≤ 'f' then some (c.toNat - 87)
  else if 'A' ≤ c && c ≤ 'F' then some (c.toNat - 55)
  else none

/-- The code unit of four hexadecimal digits. -/
def codeUnit (a b c d : Char) : Option Nat := do
  return (← hexValue a) * 4096 + (← hexValue b) * 256 + (← hexValue c) * 16 + (← hexValue d)

/-- The character after a backslash, other than `u`. -/
def simpleEscape : Char → Option Char
  | '"' => some '"'
  | '\\' => some '\\'
  | '/' => some '/'
  | 'b' => some '\x08'
  | 'f' => some '\x0c'
  | 'n' => some '\n'
  | 'r' => some '\r'
  | 't' => some '\t'
  | _ => none

/-- The rest of a string after its opening quote, with the text that follows it. A pair of
surrogate code units is one character; a surrogate without its partner is a fault. -/
def stringBody (out : List Char) : List Char → Option (String × List Char)
  | [] => none
  | '"' :: rest => some (String.ofList out.reverse, rest)
  | '\\' :: 'u' :: a :: b :: c :: d :: rest =>
    match codeUnit a b c d with
    | none => none
    | some n =>
      if 0xDC00 ≤ n && n < 0xE000 then none
      else if 0xD800 ≤ n && n < 0xDC00 then
        match rest with
        | '\\' :: 'u' :: a :: b :: c :: d :: rest =>
          match codeUnit a b c d with
          | none => none
          | some m =>
            if 0xDC00 ≤ m && m < 0xE000 then
              stringBody (Char.ofNat (0x10000 + (n - 0xD800) * 0x400 + (m - 0xDC00)) :: out) rest
            else none
        | _ => none
      else stringBody (Char.ofNat n :: out) rest
  | '\\' :: c :: rest =>
    match simpleEscape c with
    | none => none
    | some c => stringBody (c :: out) rest
  | c :: rest => if c.toNat < 32 then none else stringBody (c :: out) rest

/-- The text after the closing quote of a string that may hold halves of characters. -/
def skipString : List Char → Option (List Char)
  | [] => none
  | '"' :: rest => some rest
  | '\\' :: 'u' :: a :: b :: c :: d :: rest =>
    match codeUnit a b c d with
    | none => none
    | some _ => skipString rest
  | '\\' :: c :: rest => if (simpleEscape c).isSome then skipString rest else none
  | c :: rest => if c.toNat < 32 then none else skipString rest

/-- The string that follows its opening quote, and what follows it. -/
def string (cs : List Char) : Document × Option (List Char) :=
  match stringBody [] cs with
  | some (s, rest) => (.str s, some rest)
  | none =>
    match skipString cs with
    | some rest => (.unheld .null, some rest)
    | none => (.broken, none)

/-- The longest run of decimal digits at the front, as digit values. -/
def digitRun (cs : List Char) : List Nat × List Char :=
  ((cs.takeWhile Char.isDigit).map (fun c => c.toNat - 48), cs.dropWhile Char.isDigit)

/-- Take digits into a 64-bit significand until one does not fit; the second component counts the
digits taken and the third those left over. -/
def absorb (significand : Nat) : List Nat → Nat × Nat × Nat
  | [] => (significand, 0, 0)
  | d :: rest =>
    if significand * 10 + d < Nat.pow 2 64 then
      let (s, taken, left) := absorb (significand * 10 + d) rest
      (s, taken + 1, left)
    else (significand, 0, rest.length + 1)

/-- `10 ^ n` as a double. -/
def powerOfTen (n : Nat) : Float := Float.ofScientific 1 false n

/-- Divide by `10 ^ n`, in steps of at most 308 places. Three steps bring every 64-bit significand
to zero. -/
def scaleDown (x : Float) (n : Nat) : Nat → Float
  | 0 => 0
  | steps + 1 =>
    if n ≤ 308 then x / powerOfTen n
    else if x == 0 then x
    else scaleDown (x / powerOfTen 308) (n - 308) steps

/-- The double of a significand and a decimal exponent, unless it is too large. -/
def double? (significand : Nat) (exponent : Int) : Option Float :=
  let x := significand.toFloat
  if exponent < 0 then some (scaleDown x exponent.natAbs 4)
  else if exponent ≤ 308 then
    let y := x * powerOfTen exponent.toNat
    if y.isInf then none else some y
  else if significand == 0 then some x
  else none

/-- The number of a list of digit values. -/
def digitValue (ds : List Nat) : Nat := ds.foldl (fun n d => n * 10 + d) 0

/-- The fraction digits at the front, an empty list where there is no point. -/
def fractionPart : List Char → Option (List Nat × List Char × Bool)
  | '.' :: rest =>
    let (ds, rest) := digitRun rest
    if ds.isEmpty then none else some (ds, rest, true)
  | cs => some ([], cs, false)

/-- The exponent at the front, zero where there is none. -/
def exponentPart : List Char → Option (Int × List Char × Bool)
  | e :: rest =>
    if e == 'e' || e == 'E' then
      let (negative, rest) := match rest with
        | '+' :: rest => (false, rest)
        | '-' :: rest => (true, rest)
        | rest => (false, rest)
      let (ds, rest) := digitRun rest
      if ds.isEmpty then none
      else
        let n : Int := digitValue ds
        some (if negative then -n else n, rest, true)
    else some (0, e :: rest, false)
  | [] => some (0, [], false)

/-- The number whose text follows its sign, and what follows it. -/
def number? (negative : Bool) (cs : List Char) : Option (Document × List Char) := do
  let (whole, rest) := digitRun cs
  if whole.isEmpty || (whole.head? == some 0 && 1 < whole.length) then none
  else
    let (fraction, rest, hasFraction) ← fractionPart rest
    let (exponent, rest, hasExponent) ← exponentPart rest
    let (s, _, dropped) := absorb 0 whole
    let integral := !hasFraction && !hasExponent && dropped == 0
    if integral && !(negative && (s == 0 || Nat.pow 2 63 < s)) then
      return (.num (if negative then .negative s else .natural s), rest)
    else
      let (s, taken, _) := absorb s fraction
      match double? s ((dropped : Int) - taken + exponent) with
      | some x => return (.num (.double (if negative then -x else x)), rest)
      | none => return (.unheld .null, rest)

/-- The number whose text follows its sign, or a fault. -/
def number (negative : Bool) (cs : List Char) : Document × Option (List Char) :=
  match number? negative cs with
  | some (d, rest) => (d, some rest)
  | none => (.broken, none)

/-- An array or an object where so much more nesting is allowed. -/
def nested (depth : Nat) (d : Document) : Document := if depth == 0 then .unheld d else d

mutual

/-- The value at the front of a text and what follows it, nothing after a fault. `fuel` bounds the
steps and `depth` the nesting. -/
def value : (fuel depth : Nat) → List Char → Document × Option (List Char)
  | 0, _, _ => (.broken, none)
  | fuel + 1, depth, cs =>
    match skip cs with
    | 'n' :: 'u' :: 'l' :: 'l' :: rest => (.null, some rest)
    | 't' :: 'r' :: 'u' :: 'e' :: rest => (.bool true, some rest)
    | 'f' :: 'a' :: 'l' :: 's' :: 'e' :: rest => (.bool false, some rest)
    | '"' :: rest => string rest
    | '[' :: rest =>
      match skip rest with
      | ']' :: rest => (nested depth (.arr [] true), some rest)
      | rest =>
        let (items, rest) := items fuel (depth - 1) rest
        (nested depth (.arr items rest.isSome), rest)
    | '\x7b' :: rest =>
      match skip rest with
      | '\x7d' :: rest => (nested depth (.obj [] true), some rest)
      | rest =>
        let (members, rest) := members fuel (depth - 1) rest
        (nested depth (.obj members rest.isSome), rest)
    | '-' :: rest => number true rest
    | rest => number false rest

/-- The items of an array up to its end. -/
def items : (fuel depth : Nat) → List Char → List Document × Option (List Char)
  | 0, _, _ => ([], none)
  | fuel + 1, depth, cs =>
    match value fuel depth cs with
    | (v, none) => ([v], none)
    | (v, some rest) =>
      match skip rest with
      | ',' :: rest =>
        let (more, rest) := items fuel depth rest
        (v :: more, rest)
      | ']' :: rest => ([v], some rest)
      | _ => ([v], none)

/-- The members of an object up to its end. -/
def members : (fuel depth : Nat) → List Char → List (String × Document) × Option (List Char)
  | 0, _, _ => ([], none)
  | fuel + 1, depth, cs =>
    match skip cs with
    | '"' :: rest =>
      match stringBody [] rest with
      | none => ([], none)
      | some (key, rest) =>
        match skip rest with
        | ':' :: rest =>
          match value fuel depth rest with
          | (v, none) => ([(key, v)], none)
          | (v, some rest) =>
            match skip rest with
            | ',' :: rest =>
              let (more, rest) := members fuel depth rest
              ((key, v) :: more, rest)
            | '\x7d' :: rest => ([(key, v)], some rest)
            | _ => ([(key, v)], none)
        | _ => ([(key, .broken)], none)
    | _ => ([], none)

end

/-- How deep arrays and objects may be nested. -/
def maxDepth : Nat := 127

/-- Read a text: its first value, and whether nothing but blanks follows it. -/
def read (s : String) : Document × Bool :=
  let cs := s.toList
  match value (2 * cs.length + 2) maxDepth cs with
  | (d, some rest) => (d, (skip rest).isEmpty)
  | (d, none) => (d, false)

mutual

/-- The value of a document without faults. -/
def toJson? : Document → Option Json
  | .null => some .null
  | .bool b => some (.bool b)
  | .num n => some (.num n)
  | .str s => some (.str s)
  | .arr items closed => if closed then (itemsToJson? items).map .arr else none
  | .obj members closed => if closed then (membersToJson? members).map Json.object else none
  | .unheld _ | .broken => none

/-- The values of items without faults. -/
def itemsToJson? : List Document → Option (List Json)
  | [] => some []
  | d :: rest => do return (← toJson? d) :: (← itemsToJson? rest)

/-- The values of members without faults. -/
def membersToJson? : List (String × Document) → Option (List (String × Json))
  | [] => some []
  | (k, d) :: rest => do return (k, ← toJson? d) :: (← membersToJson? rest)

end

end Document

/-- The value that a text denotes, if it is JSON. -/
def Json.parse? (s : String) : Option Json :=
  match Document.read s with
  | (d, true) => d.toJson?
  | (_, false) => none

end ClusterScaler
