/-
Prefix codes that are given by the length of each symbol's code word.

Code words of one length are consecutive numbers in the order of their symbols,
and they follow on from the shorter ones. So a code needs no more than how many
words there are of each length and the symbols in the order of their words; and
to read a word it is enough to compare, bit after bit, the number read so far
with the words of that length.
-/
import ClassLens.Archive.BitReader

set_option autoImplicit false

namespace ClassLens.Archive

/-- A code: the number of words of each length from one on, and the symbols in
the order of their words. -/
structure PrefixCode where
  counts : List Nat
  symbols : Array Nat
  deriving DecidableEq, Repr

namespace PrefixCode

/-- The number of words that are still free after the given lengths, counted in
words of the last length; nothing if there are too many words. -/
def spare? (free : Nat) : List Nat → Option Nat
  | [] => some free
  | count :: rest => if count ≤ 2 * free then spare? (2 * free - count) rest else none

/-- The longest code word. -/
def maxLength (lengths : List Nat) : Nat :=
  lengths.foldl max 0

/-- The code in which each symbol has a word of the given length. A symbol of
length zero has no word. -/
def ofLengths (lengths : List Nat) : PrefixCode :=
  let widths := (List.range (max 1 (maxLength lengths))).map (· + 1)
  let indexed := lengths.zipIdx
  { counts := widths.map fun width => lengths.count width
    symbols := (widths.flatMap fun width =>
      (indexed.filter (·.1 == width)).map (·.2)).toArray }

/-- Whether every sequence of bits starts with a code word, and with one only. -/
def isComplete (c : PrefixCode) : Bool :=
  spare? 1 c.counts == some 0

/-- Whether the words leave room, and none is longer than one bit: no words, or
a single one. -/
def isTrivial (c : PrefixCode) : Bool :=
  c.counts == [0] || c.counts == [1]

/-- Whether every sequence of bits starts with a code word, or there is no more
than one word to tell apart. -/
def isUsable (c : PrefixCode) : Bool :=
  c.isComplete || c.isTrivial

/-- Reads a word of the code whose words of the next lengths are counted by the
list. `first` is the first word of the next length, `value` the bits read so
far, both without their last bit; `before` is the number of shorter words. -/
def readFrom (symbols : Array Nat) (first value before : Nat) : List Nat → BitReader Nat
  | [] => BitReader.fail
  | count :: rest => do
    let low ← BitReader.bit
    let value := 2 * value + low
    let first := 2 * first
    -- the words of this length are `first` to `first + count - 1`, and `value`
    -- is no less than `first` since no shorter word was found
    if value < first + count then
      match symbols[before + (value - first)]? with
      | some symbol => return symbol
      | none => BitReader.fail
    else readFrom symbols (first + count) value (before + count) rest

/-- Reads a word and gives its symbol. -/
def read (c : PrefixCode) : BitReader Nat :=
  readFrom c.symbols 0 0 0 c.counts

end PrefixCode

end ClassLens.Archive
