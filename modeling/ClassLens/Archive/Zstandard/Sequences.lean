/-
The sequences of a block.

A sequence says how many literals are written next, and which copy comes after
them. It is three symbols, each with some bits behind it, under three codes with
states of their own.

Copies tend to start where earlier ones did, so the last three distances are kept
and have short names.
-/
import ClassLens.Archive.BackCopy
import ClassLens.Archive.LittleEndian
import ClassLens.Archive.Zstandard.Backward
import ClassLens.Archive.Zstandard.StateCode

set_option autoImplicit false

namespace ClassLens.Archive.Zstandard

/-! ## Numbers -/

/-- The numbers from a first one on, each with the bits that say how much greater
it is, given these bits. -/
def ranges (first : Nat) : List Nat → List (Nat × Nat)
  | [] => []
  | width :: rest => (first, width) :: ranges (first + (1 <<< width)) rest

/-- The numbers of literals. -/
def literalLengths : Array (Nat × Nat) :=
  (ranges 0 (List.replicate 16 0 ++
    [1, 1, 1, 1, 2, 2, 3, 3, 4, 6, 7, 8, 9, 10, 11, 12, 13, 14, 15, 16])).toArray

/-- The lengths of copies. -/
def copyLengths : Array (Nat × Nat) :=
  (ranges 3 (List.replicate 32 0 ++
    [1, 1, 1, 1, 2, 2, 3, 3, 4, 4, 5, 7, 8, 9, 10, 11, 12, 13, 14, 15, 16])).toArray

/-! ## Codes -/

/-- What is fixed for a code of sequences: how many symbols there are, how many
bits a state has at most, and the code that need not be written. -/
structure CodeRole where
  symbols : Nat
  maxWidth : Nat
  standard : StateCode

namespace CodeRole

/-- Several symbols with the same number of states. -/
def several (count n : Nat) : List Share :=
  List.replicate count (.states n)

/-- The code of the numbers of literals. -/
def literals : CodeRole where
  symbols := 36
  maxWidth := 9
  standard := .ofShares 6 (several 1 4 ++ several 1 3 ++ several 11 2 ++ several 3 1 ++
    several 9 2 ++ several 1 3 ++ several 1 2 ++ several 5 1 ++ List.replicate 4 .rare)

/-- The code of distances. -/
def distances : CodeRole where
  symbols := 32
  maxWidth := 8
  standard := .ofShares 5 (several 6 1 ++ several 3 2 ++ several 15 1 ++ List.replicate 5 .rare)

/-- The code of the lengths of copies. -/
def lengths : CodeRole where
  symbols := 53
  maxWidth := 9
  standard := .ofShares 6 (several 1 1 ++ several 1 4 ++ several 1 3 ++ several 6 2 ++
    several 37 1 ++ List.replicate 7 .rare)

/-- The code that is used, by the way in which it is given, and the place behind
it: the standard code, that of one symbol, a written code, or the code that was
used before. -/
def code? (role : CodeRole) (way : Nat) (old : Option StateCode) (block : ByteArray)
    (place : Nat) : Option (StateCode × Nat) :=
  match way with
  | 0 => some (role.standard, place)
  | 1 => do
    let symbol := (← block[place]?).toNat
    if symbol < role.symbols then return (.single symbol, place + 1) else none
  | 2 => do
    let (code, size) ← StateCode.ofBytes? role.symbols role.maxWidth
      (block.extract place block.size)
    return (code, place + size)
  | _ => old.map fun code => (code, place)

end CodeRole

/-- The codes of sequences. -/
structure SequenceCodes where
  literals : StateCode
  distances : StateCode
  lengths : StateCode

/-! ## Distances -/

/-- The last distances, newest first. -/
structure Recent where
  first : Nat
  second : Nat
  third : Nat
  deriving DecidableEq, Repr

namespace Recent

/-- The distances that count as the last ones at the beginning. -/
def start : Recent :=
  ⟨1, 4, 8⟩

/-- The distance that a number stands for, as the first of the last ones. Numbers
up to three are names of earlier distances; they are moved by one if there are no
literals, since the first distance would then go on with the copy before. -/
def use? (r : Recent) (number : Nat) (hasLiterals : Bool) : Option Recent :=
  if 3 < number then some ⟨number - 3, r.first, r.second⟩
  else
    match number + (if hasLiterals then 0 else 1) with
    | 1 => some r
    | 2 => some ⟨r.second, r.first, r.third⟩
    | 3 => some ⟨r.third, r.first, r.second⟩
    | _ => if r.first ≤ 1 then none else some ⟨r.first - 1, r.first, r.second⟩

end Recent

/-! ## Reading -/

/-- How many literals are written, and the copy behind them. -/
structure Sequence where
  literals : Nat
  length : Nat
  distance : Nat
  deriving DecidableEq, Repr

/-- The states of the three codes. -/
structure SequenceStates where
  literals : CodeState
  distances : CodeState
  lengths : CodeState

/-- Reads the number that a symbol of a table stands for. -/
def readNumber (table : Array (Nat × Nat)) (symbol : Nat) : BitReader Nat :=
  match table[symbol]? with
  | none => BitReader.fail
  | some (first, width) => do return first + (← BitReader.bits width)

/-- Reads the sequence of some states. -/
def readSequence (s : SequenceStates) (recent : Recent) : BitReader (Sequence × Recent) := do
  let number := (1 <<< s.distances.symbol) + (← BitReader.bits s.distances.symbol)
  let length ← readNumber copyLengths s.lengths.symbol
  let literals ← readNumber literalLengths s.literals.symbol
  let recent ← BitReader.ofOption (recent.use? number (literals != 0))
  return (⟨literals, length, recent.first⟩, recent)

namespace SequenceCodes

/-- Reads the first states. -/
def start (c : SequenceCodes) : BitReader SequenceStates := do
  let literals ← c.literals.start
  let distances ← c.distances.start
  let lengths ← c.lengths.start
  return ⟨literals, distances, lengths⟩

/-- Reads the states after others. -/
def after (c : SequenceCodes) (s : SequenceStates) : BitReader SequenceStates := do
  let literals ← c.literals.after s.literals
  let lengths ← c.lengths.after s.lengths
  let distances ← c.distances.after s.distances
  return ⟨literals, distances, lengths⟩

/-- Reads the sequences from some states on, and one more than a number. -/
def readFrom (c : SequenceCodes) :
    Nat → SequenceStates → Recent → BitReader (List Sequence × Recent)
  | 0, states, recent => do
    let (last, recent) ← readSequence states recent
    return ([last], recent)
  | n + 1, states, recent => do
    let (first, recent) ← readSequence states recent
    let (rest, recent) ← readFrom c n (← c.after states) recent
    return (first :: rest, recent)

/-- Reads several sequences, and one more than a number. -/
def read (c : SequenceCodes) (n : Nat) (recent : Recent) :
    BitReader (List Sequence × Recent) := do
  readFrom c n (← c.start) recent

end SequenceCodes

/-! ## All -/

/-- The sequences of a block, and the codes and distances that were used last. -/
structure Sequences where
  all : List Sequence
  codes : Option SequenceCodes
  recent : Recent

namespace Sequences

/-- The number of sequences, and the place behind it. -/
def count (block : ByteArray) (start : Nat) : Nat × Nat :=
  let first := littleEndian block start 1
  if first < 128 then (first, start + 1)
  else if first < 255 then (256 * (first - 128) + littleEndian block (start + 1) 1, start + 2)
  else (shortAt block (start + 1) + 0x7f00, start + 3)

/-- The codes that a block has at a place, and the place behind them. -/
def codes? (old : Option SequenceCodes) (block : ByteArray) (start : Nat) :
    Option (SequenceCodes × Nat) := do
  let ways := (← block[start]?).toNat
  if ways % 4 ≠ 0 then none
  else
    let (literals, place) ←
      CodeRole.literals.code? (ways / 64) (old.map (·.literals)) block (start + 1)
    let (distances, place) ←
      CodeRole.distances.code? (ways / 16 % 4) (old.map (·.distances)) block place
    let (lengths, place) ←
      CodeRole.lengths.code? (ways / 4 % 4) (old.map (·.lengths)) block place
    return (⟨literals, distances, lengths⟩, place)

/-- The sequences of a block from a place on. -/
def ofBlock? (old : Option SequenceCodes) (recent : Recent) (block : ByteArray) (start : Nat) :
    Option Sequences := do
  let (count, place) := count block start
  if block.size < place then none
  else
    match count with
    | 0 => if place = block.size then some ⟨[], old, recent⟩ else none
    | n + 1 =>
      let (codes, place) ← codes? old block place
      let (all, recent) ← readWhole? (codes.read n recent) (block.extract place block.size)
      return ⟨all, some codes, recent⟩

/-- Writes literals and copies in turn, and what is left of the literals. -/
def write? (literals : ByteArray) : List Sequence → Nat → ByteArray → Option ByteArray
  | [], used, output => some (output ++ literals.extract used literals.size)
  | s :: rest, used, output =>
    let stop := used + s.literals
    if literals.size < stop ∨ output.size + s.literals < s.distance then none
    else
      write? literals rest stop
        (copyBack s.distance s.length (output ++ literals.extract used stop))

end Sequences

end ClassLens.Archive.Zstandard
