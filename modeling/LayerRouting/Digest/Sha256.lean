/-!
# SHA-256

The SHA-256 digest of a sequence of bytes: the bytes are padded to blocks of 64, and each
block updates eight words of state in 64 rounds.
-/

namespace LayerRouting

namespace Sha256

/-- The additive constants of the rounds: the leading bits of the fractional parts of the
cube roots of the first 64 primes. -/
def roundConstants : List UInt32 := [
  0x428a2f98, 0x71374491, 0xb5c0fbcf, 0xe9b5dba5, 0x3956c25b, 0x59f111f1, 0x923f82a4, 0xab1c5ed5,
  0xd807aa98, 0x12835b01, 0x243185be, 0x550c7dc3, 0x72be5d74, 0x80deb1fe, 0x9bdc06a7, 0xc19bf174,
  0xe49b69c1, 0xefbe4786, 0x0fc19dc6, 0x240ca1cc, 0x2de92c6f, 0x4a7484aa, 0x5cb0a9dc, 0x76f988da,
  0x983e5152, 0xa831c66d, 0xb00327c8, 0xbf597fc7, 0xc6e00bf3, 0xd5a79147, 0x06ca6351, 0x14292967,
  0x27b70a85, 0x2e1b2138, 0x4d2c6dfc, 0x53380d13, 0x650a7354, 0x766a0abb, 0x81c2c92e, 0x92722c85,
  0xa2bfe8a1, 0xa81a664b, 0xc24b8b70, 0xc76c51a3, 0xd192e819, 0xd6990624, 0xf40e3585, 0x106aa070,
  0x19a4c116, 0x1e376c08, 0x2748774c, 0x34b0bcb5, 0x391c0cb3, 0x4ed8aa4a, 0x5b9cca4f, 0x682e6ff3,
  0x748f82ee, 0x78a5636f, 0x84c87814, 0x8cc70208, 0x90befffa, 0xa4506ceb, 0xbef9a3f7, 0xc67178f2]

/-- The eight words of state. -/
structure State where
  a : UInt32
  b : UInt32
  c : UInt32
  d : UInt32
  e : UInt32
  f : UInt32
  g : UInt32
  h : UInt32

/-- The state before the first block: the leading bits of the fractional parts of the
square roots of the first eight primes. -/
def initialState : State where
  a := 0x6a09e667
  b := 0xbb67ae85
  c := 0x3c6ef372
  d := 0xa54ff53a
  e := 0x510e527f
  f := 0x9b05688c
  g := 0x1f83d9ab
  h := 0x5be0cd19

/-- A word rotated to the right. -/
def rotate (word count : UInt32) : UInt32 :=
  (word >>> count) ||| (word <<< (32 - count))

/-- One round with a word of the schedule and a constant. -/
def round (state : State) (word constant : UInt32) : State :=
  let sum1 := rotate state.e 6 ^^^ rotate state.e 11 ^^^ rotate state.e 25
  let choice := (state.e &&& state.f) ^^^ (~~~state.e &&& state.g)
  let first := state.h + sum1 + choice + constant + word
  let sum0 := rotate state.a 2 ^^^ rotate state.a 13 ^^^ rotate state.a 22
  let majority := (state.a &&& state.b) ^^^ (state.a &&& state.c) ^^^ (state.b &&& state.c)
  { a := first + (sum0 + majority), b := state.a, c := state.b, d := state.c,
    e := state.d + first, f := state.e, g := state.f, h := state.g }

/-- The next word of the schedule from the sixteen words before it, the latest first. -/
def nextWord (latest : List UInt32) : UInt32 :=
  let before (distance : Nat) := latest.getD (distance - 1) 0
  let sigma0 := rotate (before 15) 7 ^^^ rotate (before 15) 18 ^^^ (before 15 >>> 3)
  let sigma1 := rotate (before 2) 17 ^^^ rotate (before 2) 19 ^^^ (before 2 >>> 10)
  before 16 + sigma0 + before 7 + sigma1

/-- The words of the schedule, the latest first, extended by a number of words. -/
def extendSchedule : Nat -> List UInt32 -> List UInt32
  | 0, words => words
  | count + 1, words => extendSchedule count (nextWord words :: words)

/-- The big-endian words of bytes, four at a time. -/
def wordsOf : List UInt8 -> List UInt32
  | a :: b :: c :: d :: rest =>
      ((a.toUInt32 <<< 24) ||| (b.toUInt32 <<< 16) ||| (c.toUInt32 <<< 8) ||| d.toUInt32)
        :: wordsOf rest
  | _ => []

/-- The bytes of a word, the most significant first. -/
def bytesOf (word : UInt32) : List UInt8 :=
  [(word >>> 24).toUInt8, (word >>> 16).toUInt8, (word >>> 8).toUInt8, word.toUInt8]

/-- The state after a block of 64 bytes. -/
def absorb (state : State) (block : List UInt8) : State :=
  let schedule := (extendSchedule 48 (wordsOf block).reverse).reverse
  let final := (schedule.zip roundConstants).foldl (fun s (word, constant) => round s word constant)
    state
  { a := state.a + final.a, b := state.b + final.b, c := state.c + final.c,
    d := state.d + final.d, e := state.e + final.e, f := state.f + final.f,
    g := state.g + final.g, h := state.h + final.h }

/-- The number of bytes of a block. -/
def blockSize : Nat := 64

/-- The bytes that pad a message of a length to whole blocks: a set bit, zeros, and the
length in bits as eight bytes. -/
def padding (length : Nat) : List UInt8 :=
  let bits : UInt64 := UInt64.ofNat (8 * length)
  let zeros := (2 * blockSize - 9 - length % blockSize) % blockSize
  (0x80 : UInt8) :: (List.replicate zeros (0 : UInt8)
    ++ bytesOf (bits >>> 32).toUInt32 ++ bytesOf bits.toUInt32)

/-- The state after all whole blocks of the bytes. -/
def absorbAll (state : State) (bytes : List UInt8) : State :=
  if _enough : blockSize ≤ bytes.length then
    absorbAll (absorb state (bytes.take blockSize)) (bytes.drop blockSize)
  else state
termination_by bytes.length
decreasing_by
  simp only [blockSize] at *
  simp only [List.length_drop]
  omega

/-- The digest of bytes. -/
def digest (bytes : List UInt8) : List UInt8 :=
  let final := absorbAll initialState (bytes ++ padding bytes.length)
  [final.a, final.b, final.c, final.d, final.e, final.f, final.g, final.h].flatMap bytesOf

/-- The digest in lower-case hexadecimal digits. -/
def hexDigest (bytes : List UInt8) : String :=
  String.ofList ((digest bytes).flatMap fun byte =>
    [Nat.digitChar (byte.toNat / 16), Nat.digitChar (byte.toNat % 16)])

end Sha256

end LayerRouting
