/-
Reading a class file: a position that moves over the bytes, and what stops it.

A reader takes the bytes and a position and gives a value and the position after
it. All numbers are stored high byte first. There are two ways to run out of
bytes, and they are told apart: a number is refused at the position where it
would start, a block of bytes at the position where it would end.
-/
import ClassLens.ClassFile.PoolEntry

set_option autoImplicit false

namespace ClassLens.ClassFile

/-! ## Failures -/

/-- Why bytes are not a class file. -/
inductive ReadError where
  | notClassFile
  | numberPastEnd (place size : Nat)
  | blockPastEnd (stop size : Nat)
  | leftover (place size : Nat)
  | poolTag (tag : UInt8)
  | invalidText
  | noEntry (index : UInt16)
  | notText (entry : PoolEntry)
  | unknownAttribute (name : String)
  | frameType (type : UInt8)
  | verificationTag (tag : UInt8)
  | elementTag (tag : UInt8)
  | targetType (type : UInt8)
  deriving DecidableEq, Repr

/-- The text of a failure. -/
def ReadError.message : ReadError → String
  | notClassFile => "InvalidInput Error: Not a valid class-file"
  | numberPastEnd place size =>
    "I/O Error: overflow : attempt to read from " ++ toString place ++ " whereas len is " ++
      toString size
  | blockPastEnd stop size =>
    "I/O Error: Index out of bounds: " ++ toString stop ++ " of " ++ toString size
  | leftover place size =>
    "I/O Error: Not all was read : data.len() is " ++ toString size ++ ", start_from is " ++
      toString place
  | poolTag tag => "I/O Error: unmatched tag: " ++ toString tag.toNat
  | invalidText => "I/O Error: could not convert CESU-8 data to UTF-8"
  | noEntry index => "I/O Error: element not found at index " ++ toString index.toNat
  | notText entry => "I/O Error: element type is not Uint8 but " ++ entry.describe
  | unknownAttribute name => "I/O Error: unmatched attribute: " ++ name
  | frameType type => "I/O Error: Unsupported frame_type: " ++ toString type.toNat
  | verificationTag tag => "I/O Error: tag " ++ toString tag.toNat ++ " is not valid"
  | elementTag tag => "I/O Error: Unsupported element tag: " ++ toString tag.toNat
  | targetType type => "I/O Error: Invalid target_type: " ++ toString type.toNat

/-! ## Readers -/

/-- A step over the bytes of a class file. -/
def Reader (α : Type) : Type :=
  ByteArray → Nat → Except ReadError (α × Nat)

namespace Reader

/-- Reads nothing. -/
@[inline] def pure {α : Type} (a : α) : Reader α :=
  fun _ place => .ok (a, place)

/-- Reads one thing and then another. -/
@[inline] def bind {α β : Type} (r : Reader α) (next : α → Reader β) : Reader β :=
  fun data place =>
    match r data place with
    | .error e => .error e
    | .ok (a, place) => next a data place

instance : Monad Reader where
  pure := pure
  bind := bind

/-- Gives up. -/
def fail {α : Type} (e : ReadError) : Reader α :=
  fun _ _ => .error e

/-- The number that bytes make up, high byte first. -/
def bigEndian (bytes : ByteArray) : Nat :=
  bytes.data.foldl (fun n b => n * 256 + b.toNat) 0

/-- A number of `width` bytes. -/
def number (width : Nat) : Reader Nat :=
  fun data place =>
    if place + width ≤ data.size then
      .ok (bigEndian (data.extract place (place + width)), place + width)
    else .error (.numberPastEnd place data.size)

/-- A number of one byte. -/
def byte : Reader UInt8 := do
  let n ← number 1
  return UInt8.ofNat n

/-- A number of two bytes. -/
def word : Reader UInt16 := do
  let n ← number 2
  return UInt16.ofNat n

/-- A block of bytes, which must be there. -/
def block (size : Nat) : Reader ByteArray :=
  fun data place =>
    if place + size ≤ data.size then .ok (data.extract place (place + size), place + size)
    else .error (.blockPastEnd (place + size) data.size)

/-- Checks that a block of bytes is there, without moving over it. -/
def expectBlock (size : Nat) : Reader Unit :=
  fun data place =>
    if place + size ≤ data.size then .ok ((), place)
    else .error (.blockPastEnd (place + size) data.size)

/-- Reads the same thing several times. What was read so far comes newest
first. -/
def times {α : Type} (r : Reader α) : Nat → List α → Reader (List α)
  | 0, read => pure read.reverse
  | n + 1, read => fun data place =>
    match r data place with
    | .error e => .error e
    | .ok (a, place) => times r n (a :: read) data place

/-- A list under a count of two bytes. -/
def listOf {α : Type} (r : Reader α) : Reader (List α) := do
  let count ← word
  times r count.toNat []

/-- Moves over the same thing several times. -/
def skipTimes (r : Reader Unit) : Nat → Reader Unit
  | 0 => pure ()
  | n + 1 => fun data place =>
    match r data place with
    | .error e => .error e
    | .ok ((), place) => skipTimes r n data place

/-- Moves over a list under a count of two bytes. -/
def skipList (r : Reader Unit) : Reader Unit := do
  let count ← word
  skipTimes r count.toNat

/-- Moves over a list under a count of one byte. -/
def skipShortList (r : Reader Unit) : Reader Unit := do
  let count ← byte
  skipTimes r count.toNat

/-- Moves over a number of one byte. -/
def skipByte : Reader Unit := do
  let _ ← byte

/-- Moves over numbers of two bytes, one after the other. -/
def skipWords (count : Nat) : Reader Unit :=
  skipTimes (do let _ ← word) count

end Reader

end ClassLens.ClassFile
