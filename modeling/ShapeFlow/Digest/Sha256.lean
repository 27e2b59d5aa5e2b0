import ShapeFlow.Text.Quoted

/-!
# SHA-256

* `Sha256.digest`: the eight words of the digest of a list of bytes.
* `Sha256.hexDigest`: the digest of a text, as 64 digits in base 16.
-/

namespace ShapeFlow.Sha256

/-- The eight words that a block of the message changes. -/
structure State where
  a : UInt32
  b : UInt32
  c : UInt32
  d : UInt32
  e : UInt32
  f : UInt32
  g : UInt32
  h : UInt32
deriving DecidableEq, Repr, Inhabited

/-- The words before the first block: the fractions of the square roots of the first primes. -/
def start : State :=
  ⟨0x6a09e667, 0xbb67ae85, 0x3c6ef372, 0xa54ff53a, 0x510e527f, 0x9b05688c, 0x1f83d9ab, 0x5be0cd19⟩

/-- The constants of the rounds: the fractions of the cube roots of the first primes. -/
def roundConstants : List UInt32 :=
  [0x428a2f98, 0x71374491, 0xb5c0fbcf, 0xe9b5dba5, 0x3956c25b, 0x59f111f1, 0x923f82a4, 0xab1c5ed5,
    0xd807aa98, 0x12835b01, 0x243185be, 0x550c7dc3, 0x72be5d74, 0x80deb1fe, 0x9bdc06a7, 0xc19bf174,
    0xe49b69c1, 0xefbe4786, 0x0fc19dc6, 0x240ca1cc, 0x2de92c6f, 0x4a7484aa, 0x5cb0a9dc, 0x76f988da,
    0x983e5152, 0xa831c66d, 0xb00327c8, 0xbf597fc7, 0xc6e00bf3, 0xd5a79147, 0x06ca6351, 0x14292967,
    0x27b70a85, 0x2e1b2138, 0x4d2c6dfc, 0x53380d13, 0x650a7354, 0x766a0abb, 0x81c2c92e, 0x92722c85,
    0xa2bfe8a1, 0xa81a664b, 0xc24b8b70, 0xc76c51a3, 0xd192e819, 0xd6990624, 0xf40e3585, 0x106aa070,
    0x19a4c116, 0x1e376c08, 0x2748774c, 0x34b0bcb5, 0x391c0cb3, 0x4ed8aa4a, 0x5b9cca4f, 0x682e6ff3,
    0x748f82ee, 0x78a5636f, 0x84c87814, 0x8cc70208, 0x90befffa, 0xa4506ceb, 0xbef9a3f7, 0xc67178f2]

/-- The word turned to the right by a number of places between 1 and 31. -/
def turn (x : UInt32) (places : UInt32) : UInt32 := (x >>> places) ||| (x <<< (32 - places))

/-- One round with its constant and its word of the schedule. -/
def round (s : State) (constant word : UInt32) : State :=
  let choice := (s.e &&& s.f) ^^^ (~~~s.e &&& s.g)
  let majority := (s.a &&& s.b) ^^^ (s.a &&& s.c) ^^^ (s.b &&& s.c)
  let high := s.h + (turn s.e 6 ^^^ turn s.e 11 ^^^ turn s.e 25) + choice + constant + word
  let low := (turn s.a 2 ^^^ turn s.a 13 ^^^ turn s.a 22) + majority
  ⟨high + low, s.a, s.b, s.c, s.d + high, s.e, s.f, s.g⟩

/-- The word of the schedule that follows sixteen others. -/
def nextWord (window : List UInt32) : UInt32 :=
  let first := window.getD 0 0
  let second := window.getD 1 0
  let tenth := window.getD 9 0
  let fifteenth := window.getD 14 0
  first + (turn second 7 ^^^ turn second 18 ^^^ (second >>> 3)) + tenth
    + (turn fifteenth 17 ^^^ turn fifteenth 19 ^^^ (fifteenth >>> 10))

/-- The rounds of a block. The window holds the next sixteen words of the schedule. -/
def rounds : List UInt32 → (window : List UInt32) → State → State
  | [], _, s => s
  | constant :: rest, window, s =>
    rounds rest (window.drop 1 ++ [nextWord window]) (round s constant (window.getD 0 0))

/-- The state behind a block of sixteen words. -/
def absorb (s : State) (block : List UInt32) : State :=
  let t := rounds roundConstants block s
  ⟨s.a + t.a, s.b + t.b, s.c + t.c, s.d + t.d, s.e + t.e, s.f + t.f, s.g + t.g, s.h + t.h⟩

/-- The last `count` bytes of a number, the highest first. -/
def bytesOf (n : Nat) : (count : Nat) → List UInt8
  | 0 => []
  | count + 1 => UInt8.ofNat (n >>> (8 * count)) :: bytesOf n count

/-- The message filled up to whole blocks: a single bit, zeros, and the length in bits. -/
def padded (message : List UInt8) : List UInt8 :=
  let zeros := (119 - message.length % 64) % 64
  message ++ 0x80 :: List.replicate zeros 0 ++ bytesOf (8 * message.length) 8

/-- The words of four bytes each. -/
def words : List UInt8 → List UInt32
  | a :: b :: c :: d :: rest =>
    ((a.toUInt32 <<< 24) ||| (b.toUInt32 <<< 16) ||| (c.toUInt32 <<< 8) ||| d.toUInt32)
      :: words rest
  | _ => []

/-- The state behind so many blocks. -/
def absorbAll : (blocks : Nat) → List UInt32 → State → State
  | 0, _, s => s
  | blocks + 1, words, s => absorbAll blocks (words.drop 16) (absorb s (words.take 16))

/-- The eight words of the digest of a message. -/
def digest (message : List UInt8) : List UInt32 :=
  let filled := padded message
  let s := absorbAll (filled.length / 64) (words filled) start
  [s.a, s.b, s.c, s.d, s.e, s.f, s.g, s.h]

/-- A word as eight digits in base 16. -/
def hexWord (w : UInt32) : String :=
  let digits := Text.hex w.toNat
  "".pushn '0' (8 - digits.length) ++ digits

/-- The digest of a text in base 16. -/
def hexDigest (text : String) : String := String.join ((digest text.toUTF8.toList).map hexWord)

end ShapeFlow.Sha256
