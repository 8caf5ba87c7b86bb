/-
Jumps in machine code.

A jump in machine code says how far it goes, so jumps to one place all look different.
Before packing they are written with the place that they go to. Here the way back is
taken: the place of the jump is taken away again.

What is a jump is guessed from a few bits, so other bytes are changed too, but always so
that the way back leads to what they were.
-/

set_option autoImplicit false

namespace ClassLens.Archive.Xz

/-- The kinds of machine code. -/
inductive Machine where
  | x86
  | powerPc
  | itanium
  | arm
  | thumb
  | sparc
  | arm64
  deriving DecidableEq, Repr

namespace Machine

/-! ## Bytes -/

/-- The byte at a place. -/
def byteAt (bytes : ByteArray) (place : Nat) : UInt32 :=
  (bytes[place]?.getD 0).toUInt32

/-- Four bytes at a place as a number, low byte first. -/
def lowFirstAt (bytes : ByteArray) (place : Nat) : UInt32 :=
  byteAt bytes place ||| (byteAt bytes (place + 1) <<< 8) |||
    (byteAt bytes (place + 2) <<< 16) ||| (byteAt bytes (place + 3) <<< 24)

/-- Four bytes at a place as a number, high byte first. -/
def highFirstAt (bytes : ByteArray) (place : Nat) : UInt32 :=
  byteAt bytes (place + 3) ||| (byteAt bytes (place + 2) <<< 8) |||
    (byteAt bytes (place + 1) <<< 16) ||| (byteAt bytes place <<< 24)

/-- Writes a byte over the one at a place. -/
def setByte (bytes : ByteArray) (place : Nat) (n : UInt32) : ByteArray :=
  if h : place < bytes.size then bytes.set place n.toUInt8 h else bytes

/-- Writes a number over four bytes, low byte first. -/
def setLowFirst (bytes : ByteArray) (place : Nat) (n : UInt32) : ByteArray :=
  setByte (setByte (setByte (setByte bytes place n) (place + 1) (n >>> 8)) (place + 2) (n >>> 16))
    (place + 3) (n >>> 24)

/-- Writes a number over four bytes, high byte first. -/
def setHighFirst (bytes : ByteArray) (place : Nat) (n : UInt32) : ByteArray :=
  setByte (setByte (setByte (setByte bytes (place + 3) n) (place + 2) (n >>> 8)) (place + 1)
    (n >>> 16)) place (n >>> 24)

/-! ## Instructions of four bytes -/

/-- Changes an instruction of ARM, if it is a jump. -/
def armAt (bytes : ByteArray) (place : Nat) (here : UInt32) : ByteArray :=
  let word := lowFirstAt bytes place
  if word >>> 24 = 0xeb then
    let goal : UInt32 := word <<< 2
    let far : UInt32 := (goal - (here + 8)) >>> 2
    setLowFirst bytes place (0xeb000000 ||| (far &&& 0xffffff))
  else bytes

/-- Changes an instruction of PowerPC, if it is a jump. -/
def powerPcAt (bytes : ByteArray) (place : Nat) (here : UInt32) : ByteArray :=
  let word := highFirstAt bytes place
  if word &&& 0xfc000003 = 0x48000001 then
    let far := (word &&& 0x03fffffc) - here
    setHighFirst bytes place (0x48000001 ||| (far &&& 0x03fffffc))
  else bytes

/-- Changes an instruction of SPARC, if it is a jump. -/
def sparcAt (bytes : ByteArray) (place : Nat) (here : UInt32) : ByteArray :=
  let word := highFirstAt bytes place
  if word >>> 22 = 0x100 ∨ word >>> 22 = 0x1ff then
    let goal : UInt32 := word <<< 2
    let far : UInt32 := (goal - here) >>> 2
    let sign : UInt32 := if far &&& 0x400000 = 0 then 0 else 0x3fc00000
    setHighFirst bytes place (0x40000000 ||| sign ||| (far &&& 0x3fffff))
  else bytes

/-- Changes an instruction of ARM64, if it is a jump or takes the address of a page that
is not too far. -/
def arm64At (bytes : ByteArray) (place : Nat) (here : UInt32) : ByteArray :=
  let word := lowFirstAt bytes place
  if word >>> 26 = 0x25 then
    let far : UInt32 := word - here / 4
    setLowFirst bytes place (0x94000000 ||| (far &&& 0x03ffffff))
  else if word &&& 0x9f000000 = 0x90000000 then
    let low : UInt32 := word >>> 29
    let high : UInt32 := word >>> 3
    let page := (low &&& 3) ||| (high &&& 0x001ffffc)
    if (page + 0x00020000) &&& 0x001c0000 ≠ 0 then bytes
    else
      let far := page - (here >>> 12)
      let sign : UInt32 := if far &&& 0x00020000 = 0 then 0 else 0x00e00000
      let low : UInt32 := (far &&& 3) <<< 29
      let high : UInt32 := (far &&& 0x0003fffc) <<< 3
      setLowFirst bytes place (0x90000000 ||| (word &&& 0x1f) ||| low ||| high ||| sign)
  else bytes

/-- Changes instructions of the same size, one after the other. -/
def eachWord (change : ByteArray → Nat → UInt32 → ByteArray) (size : Nat) (start : UInt32)
    (bytes : ByteArray) : ByteArray :=
  (List.range (bytes.size / size)).foldl
    (fun bytes k => change bytes (size * k) (start + UInt32.ofNat (size * k))) bytes

/-! ## Other instructions -/

/-- Changes the jumps of Thumb code from a place on. A jump is two instructions of two
bytes. Every step takes one of them, so the fuel is the number of bytes. -/
def thumbFrom (start : UInt32) : Nat → Nat → ByteArray → ByteArray
  | 0, _, bytes => bytes
  | fuel + 1, place, bytes =>
    if bytes.size < place + 4 then bytes
    else
      let word := lowFirstAt bytes place
      if word &&& 0xf800f800 = 0xf800f000 then
        let second : UInt32 := word >>> 16
        let high : UInt32 := (word &&& 0x7ff) <<< 12
        let low : UInt32 := (second &&& 0x7ff) <<< 1
        let far : UInt32 := ((high ||| low) - (start + UInt32.ofNat place + 4)) >>> 1
        let first : UInt32 := (far >>> 11) &&& 0x7ff
        let second : UInt32 := (far &&& 0x7ff) <<< 16
        let word : UInt32 := 0xf800f000 ||| first ||| second
        thumbFrom start fuel (place + 4) (setLowFirst bytes place word)
      else thumbFrom start fuel (place + 2) bytes

/-- Which of the three instructions of a bundle of Itanium code may be jumps, by the kind
of the bundle. -/
def bundleSlots : Array Nat :=
  #[0, 0, 0, 0, 0, 0, 0, 0, 0, 0, 0, 0, 0, 0, 0, 0, 4, 4, 6, 6, 0, 0, 7, 7, 4, 4, 0, 0, 4, 4, 0, 0]

/-- Changes a bundle of Itanium code: five bits for its kind, and three instructions of 41
bits. -/
def bundleAt (bytes : ByteArray) (place : Nat) (here : UInt32) : ByteArray :=
  let slots := bundleSlots[(byteAt bytes place).toNat % 32]?.getD 0
  let change (bytes : ByteArray) (slot : Nat) : ByteArray :=
    let bit := 5 + 41 * slot
    let first := place + bit / 8
    let whole := (List.range 6).foldl
      (fun n k => n + ((byteAt bytes (first + k)).toNat <<< (8 * k))) 0
    let instruction := whole >>> (bit % 8)
    if slots.testBit slot ∧ (instruction >>> 37) % 16 = 5 ∧ (instruction >>> 9) % 8 = 0 then
      let low := (instruction >>> 13) % 0x100000
      let high := (instruction >>> 36) % 2
      let goal := UInt32.ofNat (16 * (low + (high <<< 20)))
      let far := ((goal - here) >>> 4).toNat
      let rest := instruction - (low <<< 13) - (high <<< 36)
      let instruction := rest + ((far % 0x100000) <<< 13) + (((far >>> 20) % 2) <<< 36)
      let whole := whole % (1 <<< (bit % 8)) + (instruction <<< (bit % 8))
      (List.range 6).foldl
        (fun bytes k => setByte bytes (first + k) (UInt32.ofNat ((whole >>> (8 * k)) % 256))) bytes
    else bytes
  (List.range 3).foldl change bytes

/-- Whether a byte can be the highest of how far a jump goes. -/
def isEdge (byte : UInt32) : Bool :=
  byte == 0 || byte == 0xff

/-- How many bytes before the highest one are looked at behind other possible jumps, by
where these were. -/
def lookBack (mask : Nat) : Nat :=
  if mask = 0 then 0 else if mask = 1 then 1 else if mask < 4 then 2 else 3

/-- How far a jump goes whose goal is written. If a byte that is looked at would not have
been taken for part of a jump, the lower bits have been turned over. -/
def farOf (here : UInt32) (mask : Nat) : Nat → UInt32 → UInt32
  | 0, goal => goal - here
  | fuel + 1, goal =>
    let far := goal - here
    let bits := UInt32.ofNat (24 - 8 * lookBack mask)
    if mask = 0 ∨ !isEdge ((far >>> bits) &&& 0xff) then far
    else farOf here mask fuel (far ^^^ ((1 <<< (bits + 8)) - 1))

/-- Changes the jumps of x86 code from a place on. A jump is a byte and how far it goes.
The mask tells which of the last bytes could have been jumps too; `last` is the place
behind the last one of them. Every step takes a byte, so the fuel is the number of
bytes. -/
def x86From (start : UInt32) : Nat → Nat → Nat → Nat → ByteArray → ByteArray
  | 0, _, _, _, bytes => bytes
  | fuel + 1, place, last, mask, bytes =>
    if bytes.size < place + 5 then bytes
    else if byteAt bytes place &&& 0xfe ≠ 0xe8 then x86From start fuel (place + 1) last mask bytes
    else
      let gap := place + 1 - last
      let mask := if 3 < gap then 0 else (mask <<< (gap - 1)) % 8
      let isOther := mask != 0 &&
        (mask == 3 || 4 < mask || isEdge (byteAt bytes (place + 4 - lookBack mask)))
      if isOther || !isEdge (byteAt bytes (place + 4)) then
        x86From start fuel (place + 1) (place + 1) (2 * mask + 1) bytes
      else
        let here := start + UInt32.ofNat place + 5
        let far := farOf here mask 4 (lowFirstAt bytes (place + 1))
        let sign := if (far >>> 24) &&& 1 = 0 then 0 else 0xff000000
        x86From start fuel (place + 5) (place + 1) mask
          (setLowFirst bytes (place + 1) (sign ||| (far &&& 0xffffff)))

/-! ## All -/

/-- The multiple that the start of the code must be of. -/
def alignment : Machine → Nat
  | .x86 => 1
  | .thumb => 2
  | .itanium => 16
  | _ => 4

/-- Takes the place of each jump away from its goal. The first byte has the given
place. -/
def undo (m : Machine) (start : Nat) (bytes : ByteArray) : ByteArray :=
  let start := UInt32.ofNat start
  match m with
  | .x86 => x86From start bytes.size 0 0 0 bytes
  | .powerPc => eachWord powerPcAt 4 start bytes
  | .itanium => eachWord bundleAt 16 start bytes
  | .arm => eachWord armAt 4 start bytes
  | .thumb => thumbFrom start bytes.size 0 bytes
  | .sparc => eachWord sparcAt 4 start bytes
  | .arm64 => eachWord arm64At 4 start bytes

end Machine

end ClassLens.Archive.Xz
