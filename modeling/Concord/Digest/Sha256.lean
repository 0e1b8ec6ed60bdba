/-!
The digest SHA-256. A message is padded to whole blocks of 64 bytes; each block is expanded to 64
words, which drive as many rounds over eight chaining words.
-/
namespace Concord.Digest

/-- The round constants: the first 32 bits of the fractional parts of the cube roots of the first 64
primes. -/
def roundConstants : List UInt32 :=
  [0x428a2f98, 0x71374491, 0xb5c0fbcf, 0xe9b5dba5, 0x3956c25b, 0x59f111f1, 0x923f82a4, 0xab1c5ed5,
   0xd807aa98, 0x12835b01, 0x243185be, 0x550c7dc3, 0x72be5d74, 0x80deb1fe, 0x9bdc06a7, 0xc19bf174,
   0xe49b69c1, 0xefbe4786, 0x0fc19dc6, 0x240ca1cc, 0x2de92c6f, 0x4a7484aa, 0x5cb0a9dc, 0x76f988da,
   0x983e5152, 0xa831c66d, 0xb00327c8, 0xbf597fc7, 0xc6e00bf3, 0xd5a79147, 0x06ca6351, 0x14292967,
   0x27b70a85, 0x2e1b2138, 0x4d2c6dfc, 0x53380d13, 0x650a7354, 0x766a0abb, 0x81c2c92e, 0x92722c85,
   0xa2bfe8a1, 0xa81a664b, 0xc24b8b70, 0xc76c51a3, 0xd192e819, 0xd6990624, 0xf40e3585, 0x106aa070,
   0x19a4c116, 0x1e376c08, 0x2748774c, 0x34b0bcb5, 0x391c0cb3, 0x4ed8aa4a, 0x5b9cca4f, 0x682e6ff3,
   0x748f82ee, 0x78a5636f, 0x84c87814, 0x8cc70208, 0x90befffa, 0xa4506ceb, 0xbef9a3f7, 0xc67178f2]

/-- Eight chaining words. -/
structure Chain where
  a : UInt32
  b : UInt32
  c : UInt32
  d : UInt32
  e : UInt32
  f : UInt32
  g : UInt32
  h : UInt32
  deriving DecidableEq, Repr

/-- The first words: the fractional parts of the square roots of the first eight primes. -/
def Chain.initial : Chain :=
  ⟨0x6a09e667, 0xbb67ae85, 0x3c6ef372, 0xa54ff53a, 0x510e527f, 0x9b05688c, 0x1f83d9ab, 0x5be0cd19⟩

def Chain.add (x y : Chain) : Chain :=
  ⟨x.a + y.a, x.b + y.b, x.c + y.c, x.d + y.d, x.e + y.e, x.f + y.f, x.g + y.g, x.h + y.h⟩

def rotate (x : UInt32) (n : UInt32) : UInt32 :=
  (x >>> n) ||| (x <<< (32 - n))

/-- One round with the sum of its constant and its word. -/
def round (s : Chain) (input : UInt32) : Chain :=
  let big1 := rotate s.e 6 ^^^ rotate s.e 11 ^^^ rotate s.e 25
  let choice := (s.e &&& s.f) ^^^ (~~~s.e &&& s.g)
  let first := s.h + big1 + choice + input
  let big0 := rotate s.a 2 ^^^ rotate s.a 13 ^^^ rotate s.a 22
  let majority := (s.a &&& s.b) ^^^ (s.a &&& s.c) ^^^ (s.b &&& s.c)
  ⟨first + (big0 + majority), s.a, s.b, s.c, s.d + first, s.e, s.f, s.g⟩

/-- Adds words to a schedule, which is kept with the last word first. -/
def expand : Nat → List UInt32 → List UInt32
  | 0, words => words
  | n + 1, words =>
    let word (i : Nat) : UInt32 := words.getD (i - 1) 0
    let small0 := rotate (word 15) 7 ^^^ rotate (word 15) 18 ^^^ (word 15 >>> 3)
    let small1 := rotate (word 2) 17 ^^^ rotate (word 2) 19 ^^^ (word 2 >>> 10)
    expand n ((word 16 + small0 + word 7 + small1) :: words)

/-- The words of bytes, four bytes each with the highest first. -/
def wordsOf : List UInt8 → List UInt32
  | a :: b :: c :: d :: rest =>
    ((a.toUInt32 <<< 24) ||| (b.toUInt32 <<< 16) ||| (c.toUInt32 <<< 8) ||| d.toUInt32) ::
      wordsOf rest
  | _ => []

def compress (chain : Chain) (block : List UInt8) : Chain :=
  let schedule := (expand 48 (wordsOf block).reverse).reverse
  let inputs := List.zipWith (· + ·) roundConstants schedule
  chain.add (inputs.foldl round chain)

/-- The bytes of a number, the highest first, in a given width. -/
def bytesOf (width n : Nat) : List UInt8 :=
  (List.range width).reverse.map fun i => UInt8.ofNat (n >>> (8 * i))

/-- The message, a set bit, zeros, and the length in bits, to a multiple of 64 bytes. -/
def pad (message : List UInt8) : List UInt8 :=
  let zeros := (119 - message.length % 64) % 64
  message ++ 0x80 :: (List.replicate zeros 0 ++ bytesOf 8 (8 * message.length))

/-- Absorbs a number of blocks. -/
def absorb : Nat → Chain → List UInt8 → Chain
  | 0, chain, _ => chain
  | n + 1, chain, bytes => absorb n (compress chain (bytes.take 64)) (bytes.drop 64)

def sha256 (message : List UInt8) : List UInt8 :=
  let padded := pad message
  let chain := absorb (padded.length / 64) .initial padded
  [chain.a, chain.b, chain.c, chain.d, chain.e, chain.f, chain.g, chain.h].flatMap fun word =>
    bytesOf 4 word.toNat

def hexDigit (n : Nat) : Char :=
  if n < 10 then Char.ofNat ('0'.toNat + n) else Char.ofNat ('a'.toNat + (n - 10))

/-- Two lower-case digits for each byte. -/
def hex (bytes : List UInt8) : List Char :=
  bytes.flatMap fun byte => [hexDigit (byte.toNat / 16), hexDigit (byte.toNat % 16)]

end Concord.Digest
