/-!
# Reading UTF-8

`strict?` accepts exactly the well-formed byte sequences. `lossy` reads any bytes: each longest
piece that starts a character but does not finish it, and each byte that starts none, becomes one
replacement character.
-/

set_option autoImplicit false

namespace ClusterScaler.Text

/-- The text that `bytes` encode, if they are well formed. -/
def strict? (bytes : ByteArray) : Option String := String.fromUTF8? bytes

/-- U+FFFD, which stands for bytes that are no character. -/
def replacement : Char := Char.ofNat 0xFFFD

/-- For a first byte that announces more bytes: how many, the least and the greatest value of the
next byte, and the bits that the first byte contributes. -/
def leadByte (b : Nat) : Option (Nat × Nat × Nat × Nat) :=
  if 0xC2 ≤ b && b ≤ 0xDF then some (1, 0x80, 0xBF, b - 0xC0)
  else if b == 0xE0 then some (2, 0xA0, 0xBF, 0)
  else if b == 0xED then some (2, 0x80, 0x9F, 0xD)
  else if 0xE1 ≤ b && b ≤ 0xEF then some (2, 0x80, 0xBF, b - 0xE0)
  else if b == 0xF0 then some (3, 0x90, 0xBF, 0)
  else if 0xF1 ≤ b && b ≤ 0xF3 then some (3, 0x80, 0xBF, b - 0xF0)
  else if b == 0xF4 then some (3, 0x80, 0x8F, 4)
  else none

/-- Where the reader stands: between characters, or inside one with `due` bytes to come, the next
of them between `low` and `high`, and `bits` read so far. -/
inductive Utf8State where
  | start
  | inside (due low high bits : Nat)

/-- Take a byte between characters. The text is collected in reverse. -/
def startByte (out : List Char) (b : Nat) : List Char × Utf8State :=
  if b < 0x80 then (Char.ofNat b :: out, .start)
  else match leadByte b with
    | some (due, low, high, bits) => (out, .inside due low high bits)
    | none => (replacement :: out, .start)

/-- Take the next byte. The text is collected in reverse. -/
def lossyByte (state : List Char × Utf8State) (b : Nat) : List Char × Utf8State :=
  match state with
  | (out, .start) => startByte out b
  | (out, .inside due low high bits) =>
    if low ≤ b && b ≤ high then
      let bits := bits * 64 + (b - 0x80)
      if due ≤ 1 then (Char.ofNat bits :: out, .start)
      else (out, .inside (due - 1) 0x80 0xBF bits)
    else startByte (replacement :: out) b

/-- The text that `bytes` encode, with replacement characters where they encode none. -/
def lossy (bytes : ByteArray) : String :=
  let (out, state) := bytes.toList.foldl (fun st b => lossyByte st b.toNat) ([], .start)
  let out := match state with
    | .start => out
    | .inside .. => replacement :: out
  String.ofList out.reverse

end ClusterScaler.Text
