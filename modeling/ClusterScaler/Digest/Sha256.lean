/-!
# SHA-256

The digest of a byte sequence, and its hexadecimal text. A message is padded to whole blocks of 64
bytes; each block is expanded to 64 words and mixed into a state of eight words.
-/

set_option autoImplicit false

namespace ClusterScaler.Sha256

/-- The round constants: fractional bits of the cube roots of the first 64 primes. -/
def roundConstants : Array UInt32 :=
  #[0x428a2f98, 0x71374491, 0xb5c0fbcf, 0xe9b5dba5, 0x3956c25b, 0x59f111f1, 0x923f82a4, 0xab1c5ed5,
    0xd807aa98, 0x12835b01, 0x243185be, 0x550c7dc3, 0x72be5d74, 0x80deb1fe, 0x9bdc06a7, 0xc19bf174,
    0xe49b69c1, 0xefbe4786, 0x0fc19dc6, 0x240ca1cc, 0x2de92c6f, 0x4a7484aa, 0x5cb0a9dc, 0x76f988da,
    0x983e5152, 0xa831c66d, 0xb00327c8, 0xbf597fc7, 0xc6e00bf3, 0xd5a79147, 0x06ca6351, 0x14292967,
    0x27b70a85, 0x2e1b2138, 0x4d2c6dfc, 0x53380d13, 0x650a7354, 0x766a0abb, 0x81c2c92e, 0x92722c85,
    0xa2bfe8a1, 0xa81a664b, 0xc24b8b70, 0xc76c51a3, 0xd192e819, 0xd6990624, 0xf40e3585, 0x106aa070,
    0x19a4c116, 0x1e376c08, 0x2748774c, 0x34b0bcb5, 0x391c0cb3, 0x4ed8aa4a, 0x5b9cca4f, 0x682e6ff3,
    0x748f82ee, 0x78a5636f, 0x84c87814, 0x8cc70208, 0x90befffa, 0xa4506ceb, 0xbef9a3f7, 0xc67178f2]

/-- The eight words of the running state. -/
structure State where
  a : UInt32
  b : UInt32
  c : UInt32
  d : UInt32
  e : UInt32
  f : UInt32
  g : UInt32
  h : UInt32

/-- The state before the first block: fractional bits of the square roots of the first eight
primes. -/
def State.initial : State :=
  ⟨0x6a09e667, 0xbb67ae85, 0x3c6ef372, 0xa54ff53a, 0x510e527f, 0x9b05688c, 0x1f83d9ab, 0x5be0cd19⟩

/-- Rotate a word to the right. -/
def rotr (x n : UInt32) : UInt32 := (x >>> n) ||| (x <<< (32 - n))

/-- One round, with its schedule word and its constant. -/
def State.round (s : State) (w k : UInt32) : State :=
  let sum1 := rotr s.e 6 ^^^ rotr s.e 11 ^^^ rotr s.e 25
  let choice := (s.e &&& s.f) ^^^ ((~~~ s.e) &&& s.g)
  let t1 := s.h + sum1 + choice + k + w
  let sum0 := rotr s.a 2 ^^^ rotr s.a 13 ^^^ rotr s.a 22
  let majority := (s.a &&& s.b) ^^^ (s.a &&& s.c) ^^^ (s.b &&& s.c)
  ⟨t1 + (sum0 + majority), s.a, s.b, s.c, s.d + t1, s.e, s.f, s.g⟩

/-- Add two states word by word. -/
def State.add (s t : State) : State :=
  ⟨s.a + t.a, s.b + t.b, s.c + t.c, s.d + t.d, s.e + t.e, s.f + t.f, s.g + t.g, s.h + t.h⟩

/-- The big-endian word at a byte position; bytes past the end count as zero. -/
def wordAt (bytes : ByteArray) (i : Nat) : UInt32 :=
  let byte (j : Nat) : UInt32 := (bytes[i + j]?.getD 0).toUInt32
  (byte 0 <<< 24) ||| (byte 1 <<< 16) ||| (byte 2 <<< 8) ||| byte 3

/-- Append `n` further words to a schedule of at least sixteen. -/
def extend (w : Array UInt32) : Nat → Array UInt32
  | 0 => w
  | n + 1 =>
    let back (k : Nat) : UInt32 := w[w.size - k]?.getD 0
    let x := back 15
    let y := back 2
    let s0 := rotr x 7 ^^^ rotr x 18 ^^^ (x >>> 3)
    let s1 := rotr y 17 ^^^ rotr y 19 ^^^ (y >>> 10)
    extend (w.push (back 16 + s0 + back 7 + s1)) n

/-- The 64 schedule words of the block at a byte position. -/
def schedule (bytes : ByteArray) (start : Nat) : Array UInt32 :=
  extend ((Array.range 16).map (fun i => wordAt bytes (start + 4 * i))) 48

/-- Mix one block into the state. -/
def State.block (s : State) (bytes : ByteArray) (start : Nat) : State :=
  let mixed := ((schedule bytes start).zip roundConstants).foldl (fun t wk => t.round wk.1 wk.2) s
  s.add mixed

/-- Mix `n` blocks into the state. -/
def State.blocks (s : State) (bytes : ByteArray) (start : Nat) : Nat → State
  | 0 => s
  | n + 1 => (s.block bytes start).blocks bytes (start + 64) n

/-- A message with a one bit, zeros and its length in bits, filling whole blocks. -/
def pad (bytes : ByteArray) : ByteArray :=
  let zeros := (119 - bytes.size % 64) % 64
  let length := 8 * bytes.size
  let tail := (128 : UInt8) :: List.replicate zeros 0
    ++ (List.range 8).map (fun i => (length / Nat.pow 256 (7 - i)).toUInt8)
  tail.foldl ByteArray.push bytes

/-- The state after a whole message. -/
def digest (bytes : ByteArray) : State :=
  let padded := pad bytes
  State.initial.blocks padded 0 (padded.size / 64)

/-- The words of a state, most significant first. -/
def State.words (s : State) : List UInt32 := [s.a, s.b, s.c, s.d, s.e, s.f, s.g, s.h]

/-- A word as eight hexadecimal digits. -/
def hexWord (w : UInt32) : List Char :=
  let ds := Nat.toDigits 16 w.toNat
  List.replicate (8 - ds.length) '0' ++ ds

/-- The digest of a message as 64 hexadecimal digits. -/
def hex (bytes : ByteArray) : String := String.ofList ((digest bytes).words.flatMap hexWord)

end ClusterScaler.Sha256
