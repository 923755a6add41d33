/-!
# SHA-256

The digest of FIPS 180-4 over bytes: the message is padded to whole blocks of 64 bytes, each block is
extended to a schedule of 64 words, and 64 rounds fold the schedule into eight chaining words.
-/
namespace Interleave.Sha256

/-- The first 32 bits of the fractional parts of the cube roots of the first 64 primes. -/
def roundConstants : List UInt32 :=
  [0x428a2f98, 0x71374491, 0xb5c0fbcf, 0xe9b5dba5, 0x3956c25b, 0x59f111f1, 0x923f82a4, 0xab1c5ed5,
   0xd807aa98, 0x12835b01, 0x243185be, 0x550c7dc3, 0x72be5d74, 0x80deb1fe, 0x9bdc06a7, 0xc19bf174,
   0xe49b69c1, 0xefbe4786, 0x0fc19dc6, 0x240ca1cc, 0x2de92c6f, 0x4a7484aa, 0x5cb0a9dc, 0x76f988da,
   0x983e5152, 0xa831c66d, 0xb00327c8, 0xbf597fc7, 0xc6e00bf3, 0xd5a79147, 0x06ca6351, 0x14292967,
   0x27b70a85, 0x2e1b2138, 0x4d2c6dfc, 0x53380d13, 0x650a7354, 0x766a0abb, 0x81c2c92e, 0x92722c85,
   0xa2bfe8a1, 0xa81a664b, 0xc24b8b70, 0xc76c51a3, 0xd192e819, 0xd6990624, 0xf40e3585, 0x106aa070,
   0x19a4c116, 0x1e376c08, 0x2748774c, 0x34b0bcb5, 0x391c0cb3, 0x4ed8aa4a, 0x5b9cca4f, 0x682e6ff3,
   0x748f82ee, 0x78a5636f, 0x84c87814, 0x8cc70208, 0x90befffa, 0xa4506ceb, 0xbef9a3f7, 0xc67178f2]

/-- The eight chaining words. -/
structure Chain where
  a : UInt32
  b : UInt32
  c : UInt32
  d : UInt32
  e : UInt32
  f : UInt32
  g : UInt32
  h : UInt32
  deriving DecidableEq, Repr

/-- The first 32 bits of the fractional parts of the square roots of the first eight primes. -/
def initial : Chain :=
  ⟨0x6a09e667, 0xbb67ae85, 0x3c6ef372, 0xa54ff53a, 0x510e527f, 0x9b05688c, 0x1f83d9ab, 0x5be0cd19⟩

/-- A word turned to the right by `n` bits, `0 < n < 32`. -/
def rotate (x n : UInt32) : UInt32 := (x >>> n) ||| (x <<< (32 - n))

/-- The mixing of words near the start of the schedule window. -/
def smallSigma0 (x : UInt32) : UInt32 := rotate x 7 ^^^ rotate x 18 ^^^ (x >>> 3)

/-- The mixing of words near the end of the schedule window. -/
def smallSigma1 (x : UInt32) : UInt32 := rotate x 17 ^^^ rotate x 19 ^^^ (x >>> 10)

/-- The mixing of the first chaining word. -/
def bigSigma0 (x : UInt32) : UInt32 := rotate x 2 ^^^ rotate x 13 ^^^ rotate x 22

/-- The mixing of the fifth chaining word. -/
def bigSigma1 (x : UInt32) : UInt32 := rotate x 6 ^^^ rotate x 11 ^^^ rotate x 25

/-- Each bit of `y` or `z`, as `x` says. -/
def choose (x y z : UInt32) : UInt32 := (x &&& y) ^^^ (~~~x &&& z)

/-- The bits that at least two words have. -/
def majority (x y z : UInt32) : UInt32 := (x &&& y) ^^^ (x &&& z) ^^^ (y &&& z)

/-- One round with a constant and a word of the schedule. -/
def round (s : Chain) (constant word : UInt32) : Chain :=
  let t1 := s.h + bigSigma1 s.e + choose s.e s.f s.g + constant + word
  let t2 := bigSigma0 s.a + majority s.a s.b s.c
  ⟨t1 + t2, s.a, s.b, s.c, s.d + t1, s.e, s.f, s.g⟩

/-- The schedule after further words, of which the sixteen before each one decide. -/
def extend : (count : Nat) → Array UInt32 → Array UInt32
  | 0, ws => ws
  | count + 1, ws =>
    let back (n : Nat) : UInt32 := ws.getD (ws.size - n) 0
    extend count (ws.push (smallSigma1 (back 2) + back 7 + smallSigma0 (back 15) + back 16))

/-- The words of bytes, most significant byte first. -/
def words : List UInt8 → List UInt32
  | a :: b :: c :: d :: rest =>
    (a.toUInt32 <<< 24 ||| b.toUInt32 <<< 16 ||| c.toUInt32 <<< 8 ||| d.toUInt32) :: words rest
  | _ => []

/-- The chaining words after a block. -/
def compress (s : Chain) (block : List UInt8) : Chain :=
  let schedule := (extend 48 (words block).toArray).toList
  let t := (roundConstants.zip schedule).foldl (fun t (k, w) => round t k w) s
  ⟨s.a + t.a, s.b + t.b, s.c + t.c, s.d + t.d, s.e + t.e, s.f + t.f, s.g + t.g, s.h + t.h⟩

/-- The bytes of a number, most significant first, `count` of them. -/
def bigEndian (n : Nat) : (count : Nat) → List UInt8
  | 0 => []
  | count + 1 => UInt8.ofNat (n / Nat.pow 256 count) :: bigEndian n count

/-- Zeros between the mark behind a message of `size` bytes and its length. -/
def zeros (size : Nat) : Nat := (119 - size % 64) % 64

/-- What follows a message of `size` bytes. -/
def tail (size : Nat) : List UInt8 :=
  0x80 :: List.replicate (zeros size) 0 ++ bigEndian (8 * size) 8

/-- The chaining words after whole blocks, at most `count` of them. -/
def absorb (s : Chain) : (count : Nat) → List UInt8 → Chain
  | 0, _ => s
  | count + 1, bytes =>
    match bytes with
    | [] => s
    | _ :: _ => absorb (compress s (bytes.take 64)) count (bytes.drop 64)

def pad (message : List UInt8) : List UInt8 := message ++ tail message.length

def digest (message : ByteArray) : List UInt8 :=
  let padded := pad message.toList
  let s := absorb initial (padded.length / 64) padded
  [s.a, s.b, s.c, s.d, s.e, s.f, s.g, s.h].flatMap fun w => bigEndian w.toNat 4

/-- A hexadecimal digit in lower case. -/
def hexDigit (n : Nat) : Char := if n < 10 then Char.ofNat (48 + n) else Char.ofNat (87 + n)

def hex (message : ByteArray) : String :=
  String.ofList ((digest message).flatMap fun b => [hexDigit (b.toNat / 16), hexDigit (b.toNat % 16)])

end Interleave.Sha256
