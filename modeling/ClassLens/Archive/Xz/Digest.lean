/-
The digests of XZ blocks: CRC-64 and SHA-256.

CRC-64 is the remainder of the data, lowest bit first, by a polynomial of degree
64. For SHA-256 the data is filled up to blocks of 64 bytes, the last of which
ends with its length in bits, and each block is mixed into eight registers.
-/

set_option autoImplicit false

namespace ClassLens.Archive.Xz

/-! ## CRC-64 -/

/-- Shifts the register by one bit. A bit that falls out subtracts the
polynomial. -/
def shiftBit (register : UInt64) : UInt64 :=
  if register &&& 1 = 1 then (register >>> 1) ^^^ 0xc96c5795d7870f42 else register >>> 1

/-- Takes a byte into the register. -/
def addByte (register : UInt64) (byte : UInt8) : UInt64 :=
  Nat.repeat shiftBit 8 (register ^^^ byte.toUInt64)

/-- The remainder of some bytes. -/
def crc64 (data : ByteArray) : UInt64 :=
  ~~~(data.foldl addByte 0xffffffffffffffff)

/-! ## SHA-256 -/

namespace Sha256

/-- The number of each of the 64 rounds. -/
def roundNumbers : List UInt32 :=
  [0x428a2f98, 0x71374491, 0xb5c0fbcf, 0xe9b5dba5, 0x3956c25b, 0x59f111f1,
    0x923f82a4, 0xab1c5ed5, 0xd807aa98, 0x12835b01, 0x243185be, 0x550c7dc3,
    0x72be5d74, 0x80deb1fe, 0x9bdc06a7, 0xc19bf174, 0xe49b69c1, 0xefbe4786,
    0x0fc19dc6, 0x240ca1cc, 0x2de92c6f, 0x4a7484aa, 0x5cb0a9dc, 0x76f988da,
    0x983e5152, 0xa831c66d, 0xb00327c8, 0xbf597fc7, 0xc6e00bf3, 0xd5a79147,
    0x06ca6351, 0x14292967, 0x27b70a85, 0x2e1b2138, 0x4d2c6dfc, 0x53380d13,
    0x650a7354, 0x766a0abb, 0x81c2c92e, 0x92722c85, 0xa2bfe8a1, 0xa81a664b,
    0xc24b8b70, 0xc76c51a3, 0xd192e819, 0xd6990624, 0xf40e3585, 0x106aa070,
    0x19a4c116, 0x1e376c08, 0x2748774c, 0x34b0bcb5, 0x391c0cb3, 0x4ed8aa4a,
    0x5b9cca4f, 0x682e6ff3, 0x748f82ee, 0x78a5636f, 0x84c87814, 0x8cc70208,
    0x90befffa, 0xa4506ceb, 0xbef9a3f7, 0xc67178f2]

/-- The registers. -/
structure Registers where
  a : UInt32
  b : UInt32
  c : UInt32
  d : UInt32
  e : UInt32
  f : UInt32
  g : UInt32
  h : UInt32

/-- The registers before the first block. -/
def start : Registers :=
  ⟨0x6a09e667, 0xbb67ae85, 0x3c6ef372, 0xa54ff53a,
    0x510e527f, 0x9b05688c, 0x1f83d9ab, 0x5be0cd19⟩

/-- Turns a register to the right, with `n` between one and 31. -/
def rotate (x n : UInt32) : UInt32 :=
  (x >>> n) ||| (x <<< (32 - n))

/-- The next word, by the sixteen words before it, the last one first. -/
def nextWord (words : List UInt32) : UInt32 :=
  let word (k : Nat) : UInt32 := words[k]?.getD 0
  let x := word 14
  let y := word 1
  word 15 + (rotate x 7 ^^^ rotate x 18 ^^^ (x >>> 3)) + word 6 +
    (rotate y 17 ^^^ rotate y 19 ^^^ (y >>> 10))

/-- The words of a block: its own sixteen, and one for each later round. -/
def schedule (block : List UInt32) : List UInt32 :=
  (Nat.repeat (fun words => nextWord words :: words) 48 block.reverse).reverse

/-- One round. -/
def round (r : Registers) (word number : UInt32) : Registers :=
  let choice := (r.e &&& r.f) ^^^ (~~~r.e &&& r.g)
  let majority := (r.a &&& r.b) ^^^ (r.a &&& r.c) ^^^ (r.b &&& r.c)
  let x := r.h + (rotate r.e 6 ^^^ rotate r.e 11 ^^^ rotate r.e 25) + choice + number + word
  let y := (rotate r.a 2 ^^^ rotate r.a 13 ^^^ rotate r.a 22) + majority
  ⟨x + y, r.a, r.b, r.c, r.d + x, r.e, r.f, r.g⟩

/-- Mixes a block into the registers. -/
def addBlock (r : Registers) (block : List UInt32) : Registers :=
  let mixed := ((schedule block).zip roundNumbers).foldl (fun r (word, n) => round r word n) r
  ⟨r.a + mixed.a, r.b + mixed.b, r.c + mixed.c, r.d + mixed.d,
    r.e + mixed.e, r.f + mixed.f, r.g + mixed.g, r.h + mixed.h⟩

/-- The bytes of a number, high byte first. -/
def bytesOf (n width : Nat) : List UInt8 :=
  (List.range width).map fun k => UInt8.ofNat (n >>> (8 * (width - 1 - k)))

/-- The data with what fills it up: a bit that is set, zeros, and its length. -/
def filled (data : ByteArray) : ByteArray :=
  let zeros := (119 - data.size % 64) % 64
  data ++ ⟨(0x80 :: List.replicate zeros 0 ++ bytesOf (8 * data.size) 8).toArray⟩

/-- The sixteen words of the block at a place. -/
def blockAt (data : ByteArray) (place : Nat) : List UInt32 :=
  (List.range 16).map fun word =>
    (List.range 4).foldl (fun high k =>
      (high <<< 8) ||| (data[place + 4 * word + k]?.getD 0).toUInt32) 0

end Sha256

/-- The digest of some bytes. -/
def sha256 (data : ByteArray) : ByteArray :=
  let data := Sha256.filled data
  let r := (List.range (data.size / 64)).foldl
    (fun r k => Sha256.addBlock r (Sha256.blockAt data (64 * k))) Sha256.start
  ⟨([r.a, r.b, r.c, r.d, r.e, r.f, r.g, r.h].flatMap fun word =>
    Sha256.bytesOf word.toNat 4).toArray⟩

end ClassLens.Archive.Xz
