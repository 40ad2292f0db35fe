import CodeSurvey.Text.Basic

/-!
# SHA-256

The digest of a sequence of bytes, written as 64 hexadecimal digits. Words are 32 bits wide and
wrap.
-/

namespace CodeSurvey.Digest

/-- The round constants: the first 32 bits of the fractional parts of the cube roots of the first
64 primes. -/
def roundConstants : Array UInt32 :=
  #[0x428a2f98, 0x71374491, 0xb5c0fbcf, 0xe9b5dba5, 0x3956c25b, 0x59f111f1, 0x923f82a4,
    0xab1c5ed5, 0xd807aa98, 0x12835b01, 0x243185be, 0x550c7dc3, 0x72be5d74, 0x80deb1fe,
    0x9bdc06a7, 0xc19bf174, 0xe49b69c1, 0xefbe4786, 0x0fc19dc6, 0x240ca1cc, 0x2de92c6f,
    0x4a7484aa, 0x5cb0a9dc, 0x76f988da, 0x983e5152, 0xa831c66d, 0xb00327c8, 0xbf597fc7,
    0xc6e00bf3, 0xd5a79147, 0x06ca6351, 0x14292967, 0x27b70a85, 0x2e1b2138, 0x4d2c6dfc,
    0x53380d13, 0x650a7354, 0x766a0abb, 0x81c2c92e, 0x92722c85, 0xa2bfe8a1, 0xa81a664b,
    0xc24b8b70, 0xc76c51a3, 0xd192e819, 0xd6990624, 0xf40e3585, 0x106aa070, 0x19a4c116,
    0x1e376c08, 0x2748774c, 0x34b0bcb5, 0x391c0cb3, 0x4ed8aa4a, 0x5b9cca4f, 0x682e6ff3,
    0x748f82ee, 0x78a5636f, 0x84c87814, 0x8cc70208, 0x90befffa, 0xa4506ceb, 0xbef9a3f7,
    0xc67178f2]

/-- The eight words that a digest is made of. -/
structure State where
  a : UInt32
  b : UInt32
  c : UInt32
  d : UInt32
  e : UInt32
  f : UInt32
  g : UInt32
  h : UInt32

/-- The state before the first block: the first 32 bits of the fractional parts of the square
roots of the first eight primes. -/
def State.initial : State :=
  ⟨0x6a09e667, 0xbb67ae85, 0x3c6ef372, 0xa54ff53a, 0x510e527f, 0x9b05688c, 0x1f83d9ab, 0x5be0cd19⟩

/-- A word rotated to the right. -/
def rotate (x : UInt32) (n : UInt32) : UInt32 := (x >>> n) ||| (x <<< (32 - n))

/-- One round on a state with a word of the schedule and a constant. -/
def State.round (s : State) (w k : UInt32) : State :=
  let s1 := rotate s.e 6 ^^^ rotate s.e 11 ^^^ rotate s.e 25
  let choice := (s.e &&& s.f) ^^^ ((~~~s.e) &&& s.g)
  let t1 := s.h + s1 + choice + k + w
  let s0 := rotate s.a 2 ^^^ rotate s.a 13 ^^^ rotate s.a 22
  let majority := (s.a &&& s.b) ^^^ (s.a &&& s.c) ^^^ (s.b &&& s.c)
  ⟨t1 + (s0 + majority), s.a, s.b, s.c, s.d + t1, s.e, s.f, s.g⟩

/-- The sum of two states, word by word. -/
def State.add (s t : State) : State :=
  ⟨s.a + t.a, s.b + t.b, s.c + t.c, s.d + t.d, s.e + t.e, s.f + t.f, s.g + t.g, s.h + t.h⟩

/-- A message with a one bit, zeros up to eight bytes before a multiple of 64, and its length in
bits. -/
def padMessage (message : ByteArray) : ByteArray :=
  let zeros := (119 - message.size % 64) % 64
  let bits := message.size * 8
  let tail := (List.range 8).map fun i => UInt8.ofNat (bits / Nat.pow 256 (7 - i) % 256)
  (0x80 :: (List.replicate zeros 0 ++ tail)).foldl ByteArray.push message

/-- The 32-bit word at a place of a message, the highest byte first. -/
def wordAt (message : ByteArray) (i : Nat) : UInt32 :=
  ((message.get! i).toUInt32 <<< 24) ||| ((message.get! (i + 1)).toUInt32 <<< 16) |||
    ((message.get! (i + 2)).toUInt32 <<< 8) ||| (message.get! (i + 3)).toUInt32

/-- The schedule of a block: its sixteen words and 48 more, each from four before it. -/
def schedule (message : ByteArray) (start : Nat) : Array UInt32 :=
  let first := (List.range 16).foldl
    (fun (w : Array UInt32) i => w.push (wordAt message (start + 4 * i))) (Array.mkEmpty 64)
  (List.range 48).foldl
    (fun (w : Array UInt32) i =>
      let x := w.getD (i + 1) 0
      let y := w.getD (i + 14) 0
      let s0 := rotate x 7 ^^^ rotate x 18 ^^^ (x >>> 3)
      let s1 := rotate y 17 ^^^ rotate y 19 ^^^ (y >>> 10)
      w.push (w.getD i 0 + s0 + w.getD (i + 9) 0 + s1))
    first

/-- The rounds of a block from one on; `left` is the number of those that remain. -/
def rounds (w : Array UInt32) : Nat → State → State
  | 0, s => s
  | left + 1, s =>
    rounds w left (s.round (w.getD (63 - left) 0) (roundConstants.getD (63 - left) 0))

/-- The state after a number of blocks from one on. -/
def blocks (message : ByteArray) : Nat → Nat → State → State
  | 0, _, s => s
  | left + 1, start, s =>
    blocks message left (start + 64) (s.add (rounds (schedule message start) 64 s))

/-- The digest of a sequence of bytes in hexadecimal digits. -/
def sha256 (message : ByteArray) : String :=
  let padded := padMessage message
  let s := blocks padded (padded.size / 64) 0 State.initial
  String.join ([s.a, s.b, s.c, s.d, s.e, s.f, s.g, s.h].map fun w => Text.hexDigits 8 w.toNat)

end CodeSurvey.Digest
