/-
What is known of the bytes of some text: which of them came after which contexts, and
how often.

A context is the last bytes of the text. The contexts of each length that have come up
are kept, each with the bytes that followed it and with the next shorter context. If a
byte did not follow a context before, the shorter context tells what it is.

What comes behind a byte in its context is a longer context, once that has come up
twice; before, it is only known where in the text it stands.
-/

set_option autoImplicit false

namespace ClassLens.Archive.Ppmd

/-! ## Contexts -/

/-- What comes behind a byte in its context. -/
inductive Link where
  | unknown
  /-- The text at a place. -/
  | text (place : Nat)
  /-- The context with a number. -/
  | context (index : Nat)
  deriving DecidableEq, Repr, Inhabited

/-- A byte that followed a context, and how often, more or less. -/
structure Follower where
  byte : UInt8
  count : Nat
  link : Link
  deriving DecidableEq, Repr, Inhabited

/-- Whether a byte is a letter, or greater. What follows such bytes is counted on its
own. -/
def isHigh (byte : UInt8) : Bool :=
  0x40 ≤ byte

/-- A context: the bytes that followed it, the sum of their counts and of that of all
others, and the number of the next shorter context. -/
structure Context where
  followers : Array Follower
  total : Nat
  /-- Whether the counts have been made smaller. -/
  isScaled : Bool
  /-- Whether a follower is high. -/
  hasHigh : Bool
  /-- Whether the byte before the followers is high. -/
  isAfterHigh : Bool
  shorter : Option Nat
  deriving DecidableEq, Repr, Inhabited

namespace Context

/-- Whether only one byte followed. There is no total then. -/
def isSingle (c : Context) : Bool :=
  c.followers.size == 1

/-- The number of followers beside the first. -/
def others (c : Context) : Nat :=
  c.followers.size - 1

/-- What the three properties of a context add to the number of a situation. -/
def marks (c : Context) : Nat :=
  (if c.isScaled then 4 else 0) + (if c.hasHigh then 8 else 0) + (if c.isAfterHigh then 16 else 0)

/-- The place of a byte among the followers. -/
def find (c : Context) (byte : UInt8) : Nat :=
  c.followers.findIdx (·.byte == byte)

/-- Swaps a follower with the one in front of it. -/
def moveUp (c : Context) (place : Nat) : Context :=
  { c with followers := c.followers.swapIfInBounds place (place - 1) }

end Context

/-! ## Situations -/

/-- The greatest count. -/
def maxCount : Nat := 124

/-- The groups of numbers that are taken together: small ones are on their own, and
each group has one member more than the one before. -/
def groups : Array Nat :=
  ((List.range 5) ++ ((List.range 23).flatMap fun k => List.replicate (k + 1) (k + 5))).toArray

/-- The group of a number. -/
def groupOf (n : Nat) : Nat :=
  groups[n]?.getD 0

/-- The first number of a group that comes after others. -/
def endOf (group : Nat) : Nat :=
  groups.findIdx (· == group + 1)

/-- What is known of how often a byte follows that did not follow before. -/
structure Escape where
  sum : Nat
  /-- How many bits of the sum are not looked at. -/
  shift : Nat
  /-- How many more times the sum grows before it counts twice as much. -/
  left : Nat
  deriving DecidableEq, Repr, Inhabited

namespace Escape

/-- Before anything is known of contexts with so many followers. -/
def start (followers : Nat) : Escape :=
  ⟨8 * (2 * followers + 5), 3, 7⟩

/-- How many bits are not looked at in the end. -/
def maxShift : Nat := 7

/-- Takes out what is expected, and gives it. -/
def expect (e : Escape) : Nat × Escape :=
  let n := e.sum >>> e.shift
  (max n 1, { e with sum := e.sum - n })

/-- Notes that a byte did not follow. -/
def miss (e : Escape) (total : Nat) : Escape :=
  { e with sum := (e.sum + total) % 65536 }

/-- Notes that a byte did follow. -/
def hit (e : Escape) : Escape :=
  if e.shift < maxShift then
    if e.left = 1 then ⟨2 * e.sum % 65536, e.shift + 1, (3 <<< e.shift) % 256⟩
    else { e with left := (e.left + 255) % 256 }
  else e

end Escape

/-- What the starting chances that the only follower of a context does not follow are
made of, in each of eight situations. -/
def startChances : List Nat :=
  [0x3cdd, 0x1f3f, 0x59bf, 0x48f3, 0x64a1, 0x5abc, 0x6632, 0x6051]

/-- The whole of a chance. -/
def wholeChance : Nat := 0x4000

/-- The chances that the only follower of a context follows, for each group of its
count and each situation. -/
def evenChances : Array Nat :=
  ((List.range 25).flatMap fun group =>
    (List.replicate 8 (startChances.map fun number =>
      wholeChance - number / (endOf group + 1))).flatten).toArray

/-- What is known in each situation of bytes that did not follow before, for each group
of numbers of followers. -/
def startEscapes : Array Escape :=
  ((List.range 24).flatMap fun group =>
    List.replicate 32 (Escape.start (endOf (group + 3) - 3))).toArray

/-! ## The model -/

/-- A follower: the number of its context, and its place there. -/
structure Spot where
  context : Nat
  place : Nat
  deriving DecidableEq, Repr

/-- All that is known. -/
structure Model where
  contexts : Array Context
  /-- The bytes that only had a place in the text. -/
  text : ByteArray
  /-- Where the next one of them goes. -/
  textEnd : Nat
  /-- The longest context of the byte that comes next. -/
  longest : Nat
  /-- The context that tells it. -/
  current : Nat
  /-- How much shorter than it may be the longest context is. -/
  fall : Nat
  /-- The follower that came last. -/
  found : Spot
  /-- How long the bytes have been what was expected, from a start below zero. -/
  run : Int
  startRun : Int
  wasExpected : Bool
  /-- How much a new byte counts in a context that had a single follower. -/
  startEscape : Nat
  chances : Array Nat
  escapes : Array Escape

namespace Model

/-- Before the first byte there is one context, with all bytes. -/
def start (order : Nat) : Model where
  contexts := #[{
    followers := ((List.range 256).map fun byte => ⟨UInt8.ofNat byte, 1, .unknown⟩).toArray
    total := 257
    isScaled := false
    hasHigh := false
    isAfterHigh := false
    shorter := none }]
  text := ByteArray.empty
  textEnd := 0
  longest := 0
  current := 0
  fall := order
  found := ⟨0, 0⟩
  run := -(min order 12 + 1)
  startRun := -(min order 12 + 1)
  wasExpected := false
  startEscape := 0
  chances := evenChances
  escapes := startEscapes

/-- The context with a number. -/
def context (m : Model) (index : Nat) : Context :=
  m.contexts[index]?.getD default

/-- The follower at a spot. -/
def follower (m : Model) (s : Spot) : Follower :=
  (m.context s.context).followers[s.place]?.getD default

/-- Changes a context. -/
def alter (m : Model) (index : Nat) (f : Context → Context) : Model :=
  { m with contexts := m.contexts.modify index f }

/-- Changes a follower. -/
def alterFollower (m : Model) (s : Spot) (f : Follower → Follower) : Model :=
  m.alter s.context fun c => { c with followers := c.followers.modify s.place f }

/-- Sets what comes behind a follower. -/
def setLink (m : Model) (s : Spot) (link : Link) : Model :=
  m.alterFollower s fun f => { f with link }

/-- Adds to the count of a follower, and to the total of its context. -/
def count (m : Model) (s : Spot) (n : Nat) : Model :=
  (m.alterFollower s fun f => { f with count := f.count + n }).alter s.context fun c =>
    { c with total := c.total + n }

/-- Adds to the count of an only follower, below a limit. -/
def countSingle (m : Model) (index limit : Nat) : Model :=
  m.alterFollower ⟨index, 0⟩ fun f => if f.count < limit then { f with count := f.count + 1 } else f

/-- Puts a byte behind the text. -/
def write (m : Model) (byte : UInt8) : Model :=
  let text := if h : m.textEnd < m.text.size then m.text.set m.textEnd byte h else m.text.push byte
  { m with text, textEnd := m.textEnd + 1 }

/-- Gives up the last place of the text. -/
def unwrite (m : Model) : Model :=
  { m with textEnd := m.textEnd - 1 }

end Model

end ClassLens.Archive.Ppmd
