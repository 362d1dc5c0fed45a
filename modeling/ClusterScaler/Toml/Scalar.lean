import ClusterScaler.Decimal.Reading
import ClusterScaler.Toml.Value

/-!
# TOML scalars

Readers for strings, numbers, truth values, dates and times. A reader takes the text from where it
stands and gives its value with the text that follows, or `none`.
-/

set_option autoImplicit false

namespace ClusterScaler.Toml

/-- Space and tab. -/
def isWs (c : Char) : Bool := c == ' ' || c == '\t'

/-- The text after spaces and tabs. -/
def skipWs (cs : List Char) : List Char := cs.dropWhile isWs

/-- Whether a character may stand in a comment. -/
def isCommentChar (c : Char) : Bool :=
  c == '\t' || (32 ≤ c.toNat && c.toNat ≤ 126) || 128 ≤ c.toNat

/-- The text after a line end at the front. -/
def newline? : List Char → Option (List Char)
  | '\n' :: rest => some rest
  | '\r' :: '\n' :: rest => some rest
  | _ => none

/-! ## Strings -/

/-- The value of a hexadecimal digit. -/
def hexValue (c : Char) : Option Nat :=
  if '0' ≤ c && c ≤ '9' then some (c.toNat - 48)
  else if 'a' ≤ c && c ≤ 'f' then some (c.toNat - 87)
  else if 'A' ≤ c && c ≤ 'F' then some (c.toNat - 55)
  else none

/-- The character of hexadecimal digits, if they are a code point. -/
def codePoint? (ds : List Char) : Option Char := do
  let n ← ds.foldlM (fun n c => (hexValue c).map (n * 16 + ·)) 0
  if h : n.isValidChar then some (Char.ofNatAux n h) else none

/-- The character of an escape and the text after it, given the text after the backslash. -/
def escape? : List Char → Option (Char × List Char)
  | 'b' :: rest => some ('\x08', rest)
  | 'f' :: rest => some ('\x0c', rest)
  | 'n' :: rest => some ('\n', rest)
  | 'r' :: rest => some ('\r', rest)
  | 't' :: rest => some ('\t', rest)
  | '\\' :: rest => some ('\\', rest)
  | '"' :: rest => some ('"', rest)
  | 'u' :: a :: b :: c :: d :: rest => (codePoint? [a, b, c, d]).map (·, rest)
  | 'U' :: a :: b :: c :: d :: e :: f :: g :: h :: rest =>
    (codePoint? [a, b, c, d, e, f, g, h]).map (·, rest)
  | _ => none

/-- The rest of a one-line string with escapes. -/
def basicBody (fuel : Nat) (out : List Char) (cs : List Char) : Option (String × List Char) :=
  match fuel, cs with
  | 0, _ => none
  | _, [] => none
  | _ + 1, '"' :: rest => some (String.ofList out.reverse, rest)
  | fuel + 1, '\\' :: rest =>
    match escape? rest with
    | some (c, rest) => basicBody fuel (c :: out) rest
    | none => none
  | fuel + 1, c :: rest => if isCommentChar c then basicBody fuel (c :: out) rest else none

/-- The rest of a one-line string without escapes. -/
def literalBody (cs : List Char) : Option (String × List Char) :=
  let body := cs.takeWhile (fun c => c != '\'' && isCommentChar c)
  match cs.drop body.length with
  | '\'' :: rest => some (String.ofList body, rest)
  | _ => none

/-- The text after the line end and the blanks that an escaped line end takes with it. -/
def escapedNewline? (cs : List Char) : Option (List Char) := do
  let rest ← newline? (skipWs cs)
  go (rest.length + 1) rest
where
  /-- Skip blanks and line ends. -/
  go : Nat → List Char → Option (List Char)
    | 0, cs => some cs
    | fuel + 1, cs =>
      match skipWs cs with
      | [] => some []
      | rest =>
        match newline? rest with
        | some rest => go fuel rest
        | none => some rest

/-- Up to five quotes end a string of several lines; the last three close it, and those before them
belong to it. Gives the quotes that belong to the string and the text after it. -/
def closingQuotes? (q : Char) (cs : List Char) : Option (List Char × List Char) :=
  let n := (cs.takeWhile (· == q)).length
  if n < 3 then none
  else
    let inside := min (n - 3) 2
    some (List.replicate inside q, cs.drop (inside + 3))

/-- The rest of a string of several lines, with escapes where `escapes` says so. -/
def multilineBody (q : Char) (escapes : Bool) (fuel : Nat) (out : List Char) (cs : List Char) :
    Option (String × List Char) :=
  match fuel with
  | 0 => none
  | fuel + 1 =>
    match closingQuotes? q cs with
    | some (inside, rest) => some (String.ofList (out.reverse ++ inside), rest)
    | none =>
      match newline? cs with
      | some rest => multilineBody q escapes fuel ('\n' :: out) rest
      | none =>
        match cs with
        | [] => none
        | c :: rest =>
          if escapes && c == '\\' then
            match escapedNewline? rest with
            | some rest => multilineBody q escapes fuel out rest
            | none =>
              match escape? rest with
              | some (c, rest) => multilineBody q escapes fuel (c :: out) rest
              | none => none
          else if isCommentChar c then multilineBody q escapes fuel (c :: out) rest
          else none

/-- A string of several lines after its opening quotes; a line end right after them is not part of
it. -/
def multiline (q : Char) (escapes : Bool) (cs : List Char) : Option (String × List Char) :=
  let cs := (newline? cs).getD cs
  multilineBody q escapes (cs.length + 1) [] cs

/-- A string that may stand as a key. -/
def lineString? : List Char → Option (String × List Char)
  | '"' :: rest => basicBody (rest.length + 1) [] rest
  | '\'' :: rest => literalBody rest
  | _ => none

/-- Any string. -/
def string? : List Char → Option (String × List Char)
  | '"' :: '"' :: '"' :: rest => multiline '"' true rest
  | '\'' :: '\'' :: '\'' :: rest => multiline '\'' false rest
  | cs => lineString? cs

/-! ## Numbers -/

/-- Digits with single underscores between them, and the text after them. -/
def digitGroup? (isDigit : Char → Bool) : List Char → Option (List Char × List Char)
  | [] => none
  | c :: rest =>
    if isDigit c then
      match rest with
      | '_' :: more => (digitGroup? isDigit more).map (fun (ds, after) => (c :: ds, after))
      | rest =>
        match digitGroup? isDigit rest with
        | some (ds, after) => some (c :: ds, after)
        | none => if rest.head?.any isDigit then none else some ([c], rest)
    else none

/-- Whether the number is negative, and the text after its sign. -/
def sign : List Char → Bool × List Char
  | '+' :: rest => (false, rest)
  | '-' :: rest => (true, rest)
  | cs => (false, cs)

/-- The digits of a whole number without a superfluous zero in front. -/
def wholeDigits? : List Char → Option (List Char × List Char)
  | '0' :: rest => some (['0'], rest)
  | cs => digitGroup? Char.isDigit cs

/-- An integer within 64 bits. -/
def inRange? (n : Int) : Option Toml :=
  let bound : Int := Nat.pow 2 63
  if -bound ≤ n && n < bound then some (.int n) else none

/-- An integer in another base, after its two-character mark. -/
def radixInt? (base : Nat) (cs : List Char) : Option (Toml × List Char) := do
  let (ds, rest) ← digitGroup? (fun c => (hexValue c).any (· < base)) cs
  let n := ds.foldl (fun n c => n * base + (hexValue c).getD 0) 0
  return (← inRange? n, rest)

/-- An integer. -/
def integer? : List Char → Option (Toml × List Char)
  | '0' :: 'x' :: rest => radixInt? 16 rest
  | '0' :: 'o' :: rest => radixInt? 8 rest
  | '0' :: 'b' :: rest => radixInt? 2 rest
  | cs => do
    let (negative, rest) := sign cs
    let (ds, rest) ← wholeDigits? rest
    let n : Int := Decimal.ofDigits ds
    return (← inRange? (if negative then -n else n), rest)

/-- An exponent after its letter. -/
def exponent? (cs : List Char) : Option (Int × List Char) := do
  let (negative, rest) := sign cs
  let (ds, rest) ← digitGroup? Char.isDigit rest
  let n : Int := Decimal.ofDigits ds
  return (if negative then -n else n, rest)

/-- A float with digits: it has a fraction or an exponent or both, and is not so large that it
would read as infinite. -/
def decimalFloat? (cs : List Char) : Option (Toml × List Char) := do
  let (negative, rest) := sign cs
  let (whole, rest) ← wholeDigits? rest
  let (fraction, e, rest) ← match rest with
    | '.' :: rest => do
      let (fraction, rest) ← digitGroup? Char.isDigit rest
      match rest with
      | 'e' :: rest | 'E' :: rest =>
        let (e, rest) ← exponent? rest
        some (fraction, e, rest)
      | rest => some (fraction, 0, rest)
    | 'e' :: rest | 'E' :: rest => do
      let (e, rest) ← exponent? rest
      some ([], e, rest)
    | _ => none
  let x := Decimal.toFloat (Decimal.ofDigits (whole ++ fraction)) (e - fraction.length)
  if x.isInf && !negative then none
  else return (.float (if negative then -x else x), rest)

/-- An infinity or a value that is not a number. -/
def specialFloat? (cs : List Char) : Option (Toml × List Char) :=
  let (negative, rest) := sign cs
  match rest with
  | 'i' :: 'n' :: 'f' :: rest =>
    let x : Float := 1.0 / 0.0
    some (.float (if negative then -x else x), rest)
  | 'n' :: 'a' :: 'n' :: rest => some (.float (0.0 / 0.0), rest)
  | _ => none

/-! ## Dates and times -/

/-- A number of exactly two digits within bounds. -/
def twoDigits? (low high : Nat) : List Char → Option (Nat × List Char)
  | a :: b :: rest =>
    if a.isDigit && b.isDigit then
      let n := Decimal.ofDigits [a, b]
      if low ≤ n && n ≤ high then some (n, rest) else none
    else none
  | _ => none

/-- The text after one character that must be there. -/
def expect? (c : Char) : List Char → Option (List Char)
  | d :: rest => if c == d then some rest else none
  | [] => none

/-- The number of days of a month. -/
def daysInMonth (year month : Nat) : Nat :=
  if month == 2 then
    if year % 4 == 0 && (year % 100 != 0 || year % 400 == 0) then 29 else 28
  else if [4, 6, 9, 11].contains month then 30
  else 31

/-- A number with two digits at least. -/
def twoPlaces (n : Nat) : String :=
  let ds := Nat.toDigits 10 n
  String.ofList (List.replicate (2 - ds.length) '0' ++ ds)

/-- A date, in normal form. -/
def date? : List Char → Option (String × List Char)
  | a :: b :: c :: d :: '-' :: rest => do
    if !(a.isDigit && b.isDigit && c.isDigit && d.isDigit) then none
    else
      let (month, rest) ← twoDigits? 1 12 rest
      let rest ← expect? '-' rest
      let (day, rest) ← twoDigits? 1 31 rest
      if daysInMonth (Decimal.ofDigits [a, b, c, d]) month < day then none
      else
        let text := String.ofList [a, b, c, d] ++ "-" ++ twoPlaces month ++ "-" ++ twoPlaces day
        some (text, rest)
  | _ => none

/-- The fraction of a second, cut after nine digits and without zeros at its end. -/
def secondFraction (cs : List Char) : String × List Char :=
  match cs with
  | '.' :: rest =>
    let ds := rest.takeWhile Char.isDigit
    if ds.isEmpty then ("", cs)
    else
      let kept := ((ds.take 9).reverse.dropWhile (· == '0')).reverse
      (if kept.isEmpty then "" else "." ++ String.ofList kept, rest.drop ds.length)
  | _ => ("", cs)

/-- A time of day, in normal form. -/
def clock? (cs : List Char) : Option (String × List Char) := do
  let (hour, rest) ← twoDigits? 0 23 cs
  let rest ← expect? ':' rest
  let (minute, rest) ← twoDigits? 0 59 rest
  let rest ← expect? ':' rest
  let (second, rest) ← twoDigits? 0 60 rest
  let (fraction, rest) := secondFraction rest
  return (twoPlaces hour ++ ":" ++ twoPlaces minute ++ ":" ++ twoPlaces second ++ fraction, rest)

/-- An offset from universal time, in normal form; nothing where there is none. -/
def offset? : List Char → Option (String × List Char)
  | 'Z' :: rest | 'z' :: rest => some ("Z", rest)
  | s :: rest =>
    if s == '+' || s == '-' then do
      let (hours, rest) ← twoDigits? 0 23 rest
      let rest ← expect? ':' rest
      let (minutes, rest) ← twoDigits? 0 59 rest
      let mark := if s == '-' && 0 < hours * 60 + minutes then "-" else "+"
      return (mark ++ twoPlaces hours ++ ":" ++ twoPlaces minutes, rest)
    else some ("", s :: rest)
  | [] => some ("", [])

/-- A date, a time of day, or both with or without an offset. -/
def time? (cs : List Char) : Option (Toml × List Char) :=
  match date? cs with
  | some (date, rest) =>
    match rest with
    | delim :: more =>
      if delim == 'T' || delim == 't' || delim == ' ' then
        match clock? more with
        | some (clock, rest) =>
          (offset? rest).map (fun (offset, rest) => (.time (date ++ "T" ++ clock ++ offset), rest))
        | none => some (.time date, rest)
      else some (.time date, rest)
    | [] => some (.time date, [])
  | none => (clock? cs).map (fun (clock, rest) => (.time clock, rest))

/-- A value that is not a string, an array or a table. -/
def scalar? (cs : List Char) : Option (Toml × List Char) :=
  match cs with
  | 't' :: 'r' :: 'u' :: 'e' :: rest => some (.bool true, rest)
  | 'f' :: 'a' :: 'l' :: 's' :: 'e' :: rest => some (.bool false, rest)
  | cs => time? cs <|> decimalFloat? cs <|> specialFloat? cs <|> integer? cs

end ClusterScaler.Toml
