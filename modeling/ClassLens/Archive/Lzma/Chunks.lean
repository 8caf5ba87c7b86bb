/-
LZMA data in chunks.

Each chunk says how great it is, packed and unpacked, and what it goes on with:
the output so far, where copies may begin, and the chances that were learnt. What a
chunk does not go on with starts anew. Chunks that would not get smaller hold their
bytes as they are.
-/
import ClassLens.Archive.Lzma.Unpacking

set_option autoImplicit false

namespace ClassLens.Archive.Lzma

/-- What is kept from one packed chunk to the next. -/
structure Learnt where
  properties : Properties
  chances : Array UInt16
  state : Nat
  recent : Recent

/-- What is known of some properties at the beginning. -/
def Learnt.start (p : Properties) : Learnt :=
  ⟨p, evenChances p, 0, .start⟩

/-- The output of some chunks, where copies may begin, and what is kept. -/
structure Chunks where
  output : ByteArray
  start : Option Nat
  learnt : Option Learnt

namespace Chunks

/-- Before the first chunk, no place is known where copies may begin. -/
def empty : Chunks :=
  ⟨ByteArray.empty, none, none⟩

/-- The number in the two bytes at a place, high byte first. -/
def shortAt (data : ByteArray) (place : Nat) : Nat :=
  256 * (data[place]?.elim 0 UInt8.toNat) + data[place + 1]?.elim 0 UInt8.toNat

/-- Lets copies begin no earlier than behind what was written so far. Nothing is
kept then. -/
def restarted (c : Chunks) : Chunks :=
  ⟨c.output, some c.output.size, none⟩

/-- Writes a chunk that is not packed, and gives the place behind it. -/
def addPlain? (c : Chunks) (data : ByteArray) (place : Nat) : Option (Chunks × Nat) := do
  let start := place + 2
  let stop := start + shortAt data place + 1
  if c.start.isNone ∨ data.size < stop then none
  else return ({ c with output := c.output ++ data.extract start stop }, stop)

/-- The properties of a chunk. Those of a literal come to no more than four bits. -/
def propertiesAt? (data : ByteArray) (place : Nat) : Option Properties := do
  let p ← Properties.ofByte? (← data[place]?)
  if p.byteBits + p.literalPositionBits ≤ 4 then return p else none

/-- What a packed chunk starts with, by how much of it starts anew, and the place
behind the properties if it has its own. -/
def learnt? (c : Chunks) (data : ByteArray) (place anew : Nat) : Option (Learnt × Nat) :=
  match anew with
  | 0 => c.learnt.map fun l => (l, place)
  | 1 => c.learnt.map fun l => (.start l.properties, place)
  | _ => (propertiesAt? data place).map fun p => (.start p, place + 1)

/-- Writes a packed chunk, and gives the place behind it. The number in the range
must come to nothing with the last byte. -/
def addPacked? (c : Chunks) (window : Nat) (data : ByteArray) (place anew high : Nat) :
    Option (Chunks × Nat) := do
  let reach : Reach := ⟨← c.start, window⟩
  let size := 65536 * high + shortAt data place + 1
  let (l, start) ← c.learnt? data (place + 4) anew
  let stop := start + shortAt data (place + 2) + 1
  if data.size < stop then none
  else
    let bytes := data.extract start stop
    let coder ← RangeState.at? bytes 0 l.chances
    let goal := c.output.size + size
    let u ← Unpacking.run? l.properties reach bytes goal size ⟨coder, l.state, l.recent, c.output⟩
    let coder := u.coder.widened bytes
    if coder.place = bytes.size ∧ coder.number = 0 then
      return (⟨u.output, c.start, some ⟨l.properties, coder.chances, u.state, u.recent⟩⟩, stop)
    else none

/-- Writes the chunks from a place on, and gives the place behind their end. Every
chunk takes a byte at least, so the fuel is the number of bytes. -/
def run? (window : Nat) (data : ByteArray) : Nat → Nat → Chunks → Option (ByteArray × Nat)
  | 0, _, _ => none
  | fuel + 1, place, c => do
    let control := (← data[place]?).toNat
    if control = 0 then return (c.output, place + 1)
    else
      let (c, place) ←
        if control = 1 then c.restarted.addPlain? data (place + 1)
        else if control = 2 then c.addPlain? data (place + 1)
        else if control < 0x80 then none
        else
          let c := if control < 0xe0 then c else c.restarted
          c.addPacked? window data (place + 1) (control / 32 % 4) (control % 32)
      run? window data fuel place c

end Chunks

/-- What the chunks from a place on say, and the place behind them. -/
def unpackChunks? (window : Nat) (data : ByteArray) (place : Nat) : Option (ByteArray × Nat) :=
  Chunks.run? window data data.size place .empty

end ClassLens.Archive.Lzma
