/-
Unpacking PPMd data.

For each byte a choice is read: one of the followers of the longest context, or that it
is none of them. Then the same is read of a shorter context, without the followers that
it cannot be. If the byte is not in the shortest context either, the data ends.

The model is taken to have all the room it needs.
-/
import ClassLens.Archive.LittleEndian
import ClassLens.Archive.Ppmd.Coder
import ClassLens.Archive.Ppmd.Scaling

set_option autoImplicit false

namespace ClassLens.Archive.Ppmd

/-! ## States -/

/-- The model and the rest of the data. -/
structure Unpacking where
  model : Model
  coder : Coder

/-- A byte that was found, or the end, and how to go on. -/
structure Found where
  byte : Option UInt8
  rest : Unpacking

/-! ## Choices -/

/-- The follower of a list in whose share a number is, with its place and what comes
before its share. -/
def choose (number : Nat) : List (Follower × Nat) → Nat → Option (Follower × Nat × Nat)
  | [], _ => none
  | (f, place) :: rest, before =>
    if number < before + f.count then some (f, place, before)
    else choose number rest (before + f.count)

/-- Goes on with a share of the range. -/
def Unpacking.take? (u : Unpacking) (data : ByteArray) (first count : Nat) : Option Unpacking :=
  (u.coder.take? data (UInt32.ofNat first) (UInt32.ofNat count)).map fun coder => { u with coder }

/-- Cuts the range, and gives the part that has the number. -/
def Unpacking.cut (u : Unpacking) (parts : Nat) : Nat × Unpacking :=
  let (number, coder) := u.coder.cut (UInt32.ofNat parts)
  (number.toNat, { u with coder })

/-- Goes on with a changed model. -/
def Unpacking.alter (u : Unpacking) (f : Model → Model) : Unpacking :=
  { u with model := f u.model }

/-- The sum of the counts of some followers. -/
def sumOf (followers : List (Follower × Nat)) : Nat :=
  natSum (followers.map (·.1.count))

/-! ## Single followers -/

namespace Model

/-- Situations by how many followers the shorter context has. -/
def shorterGroup (others : Nat) : Nat :=
  if others = 0 then 0 else if others = 1 then 2 else if others < 11 then 4 else 6

/-- Where the chance of the only follower of the current context is. -/
def chanceSlot (m : Model) : Nat :=
  let c := m.context m.current
  let shorter := c.shorter.elim default m.context
  64 * groupOf ((m.follower ⟨m.current, 0⟩).count - 1) + shorterGroup shorter.others +
    (if m.wasExpected then 1 else 0) + c.marks + (if m.run < 0 then 32 else 0)

/-- How far a chance moves. -/
def step (chance : Nat) : Nat :=
  (chance + 32) / 128

/-- How much a new byte counts, by how likely it was. -/
def escapeCounts : Array Nat :=
  #[25, 14, 9, 7, 5, 5, 4, 4, 4, 3, 3, 3, 2, 2, 2, 2]

/-- Notes that the only follower of the current context did follow. -/
def hitSingle (m : Model) (slot chance : Nat) : Model :=
  let chances := m.chances.setIfInBounds slot (chance + 128 - step chance)
  ({ m with chances }).useSingle

/-- Notes that the only follower of the current context did not follow. -/
def missSingle (m : Model) (slot chance : Nat) : Model :=
  let chance := chance - step chance
  { m with
    chances := m.chances.setIfInBounds slot chance
    startEscape := escapeCounts[chance / 1024]?.getD 0
    wasExpected := false }

/-! ## Escapes -/

/-- Where it is kept how often none of the followers follows that are left, if it is kept
at all. -/
def escapeSlot? (m : Model) (excluded : Nat) : Option Nat :=
  let c := m.context m.current
  let shorter := c.shorter.elim default m.context
  if c.others = 255 then none
  else
    some (32 * (groupOf (c.others + 2) - 3) + (if 11 * (c.others + 1) < c.total then 1 else 0) +
      (if 2 * c.others < shorter.others + excluded then 2 else 0) + c.marks)

/-- How much it counts that none of the followers follows. -/
def expectEscape (m : Model) (slot : Option Nat) : Nat × Model :=
  match slot with
  | none => (1, m)
  | some slot =>
    let (n, e) := (m.escapes[slot]?.getD default).expect
    (n, { m with escapes := m.escapes.setIfInBounds slot e })

/-- Changes what is kept. -/
def alterEscape (m : Model) (slot : Option Nat) (f : Escape → Escape) : Model :=
  match slot with
  | none => m
  | some slot => { m with escapes := m.escapes.modify slot f }

/-- Goes to the longest shorter context that has more followers. -/
def shorten? : Nat → Model → Option Model
  | 0, _ => none
  | fuel + 1, m =>
    let c := m.context m.current
    match c.shorter with
    | none => none
    | some shorter =>
      let m := { m with current := shorter, fall := m.fall + 1 }
      if (m.context shorter).others = c.others then shorten? fuel m else some m

end Model

/-! ## Bytes -/

namespace Unpacking

/-- Reads which of the followers of shorter contexts comes, without some that cannot be.
Every context is shorter than the one before, so the fuel is the number of contexts. -/
def readShorter? (data : ByteArray) : Nat → List UInt8 → Unpacking → Option Found
  | 0, _, _ => none
  | fuel + 1, excluded, u =>
    let others := (u.model.context u.model.current).others
    match u.model.shorten? u.model.contexts.size with
    | none => some ⟨none, u⟩
    | some model =>
      let followers := (model.context model.current).followers.toList.zipIdx.filter fun f =>
        !excluded.contains f.1.byte
      let slot := model.escapeSlot? others
      let (escape, model) := model.expectEscape slot
      let sum := sumOf followers
      let total := sum + escape
      let (number, u) := { u with model }.cut total
      if total ≤ number then none
      else
        match choose number followers 0 with
        | some (f, place, before) => do
          let u ← u.take? data before f.count
          return ⟨some f.byte, u.alter fun m => (m.alterEscape slot .hit).useNew place⟩
        | none => do
          let u ← u.take? data sum escape
          readShorter? data fuel (followers.map (·.1.byte) ++ excluded)
            (u.alter (·.alterEscape slot (·.miss total)))

/-- Reads the next byte. -/
def readByte? (u : Unpacking) (data : ByteArray) : Option Found :=
  let m := u.model
  let fuel := m.contexts.size
  let c := m.context m.current
  let followers := c.followers.toList.zipIdx
  let excluded := followers.map (·.1.byte)
  if c.isSingle then do
    let slot := m.chanceSlot
    let chance := m.chances[slot]?.getD 0
    let (number, u) := u.cut wholeChance
    if number < chance then
      let u ← u.take? data 0 chance
      return ⟨excluded.head?, u.alter (·.hitSingle slot chance)⟩
    else
      let u ← u.take? data chance (wholeChance - chance)
      readShorter? data fuel excluded (u.alter (·.missSingle slot chance))
  else do
    let (number, u) := u.cut c.total
    if c.total ≤ number then none
    else
      match choose number followers 0 with
      | some (f, place, before) =>
        let u ← u.take? data before f.count
        return ⟨some f.byte, u.alter fun m => if place = 0 then m.useFirst else m.useLater place⟩
      | none =>
        let sum := sumOf followers
        let u ← u.take? data sum (c.total - sum)
        readShorter? data fuel excluded (u.alter fun m => { m with wasExpected := false })

/-- Reads bytes up to the end. The number must come to nothing there. -/
def run? (data : ByteArray) : Nat → Unpacking → ByteArray → Option ByteArray
  | 0, _, _ => none
  | fuel + 1, u, output =>
    match u.readByte? data with
    | none => none
    | some ⟨none, u⟩ => if u.coder.number = 0 then some output else none
    | some ⟨some byte, u⟩ => run? data fuel u (output.push byte)

end Unpacking

/-! ## Whole data -/

/-- The most bytes that a byte of the data may say. No chance gets so close to one that
more could be. -/
def maxRatio : Nat := 65536

/-- What some data says. The longest context, the room for the model and what is done
when there is no more stand in front. -/
def unpack? (data : ByteArray) : Option ByteArray := do
  let parameters := shortAt data 0
  let order := parameters % 16 + 1
  let coder ← Coder.at? data 2
  if order < 2 ∨ 2 ≤ parameters / 4096 then none
  else Unpacking.run? data (maxRatio * data.size) ⟨.start order, coder⟩ ByteArray.empty

end ClassLens.Archive.Ppmd
