/-
Codes with states.

Such a code is a table of states. Each state stands for a symbol, and the next
state is a number that the state has plus some bits that are read. A symbol with
more states needs fewer bits, and the number of its states is its share of the
table; so a code is given by the share of every symbol.
-/
import ClassLens.Archive.BitReader

set_option autoImplicit false

namespace ClassLens.Archive.Zstandard

/-! ## Shares -/

/-- The share of a symbol. -/
inductive Share where
  /-- Less than one state. The symbol gets one all the same. -/
  | rare
  | states (n : Nat)
  deriving DecidableEq, Repr

/-- The number of states that a symbol gets. -/
def Share.size : Share → Nat
  | rare => 1
  | states n => n

/-- Reads how many more symbols have no state: two bits, and two more as long as
they are all set. -/
def readGap : Nat → BitReader Nat
  | 0 => BitReader.fail
  | fuel + 1 => do
    let n ← BitReader.bits 2
    if n = 3 then return 3 + (← readGap fuel) else return n

/-- Reads a number up to a limit. The small ones take one bit less than the
others, as far as there is room. -/
def readUpTo (limit : Nat) : BitReader Nat := do
  let width := limit.log2
  let short := (1 <<< (width + 1)) - 1 - limit
  let low ← BitReader.bits width
  if low < short then return low
  else
    let high ← BitReader.bit
    return if high = 0 then low else low + (1 <<< width) - short

/-- Reads the shares of no more than some symbols, newest first, until they fill
the table. `free` is one more than the states that are left. -/
def readShares (symbols : Nat) : Nat → Nat → List Share → BitReader (List Share)
  | 0, _, _ => BitReader.fail
  | fuel + 1, free, shares =>
    if free ≤ 1 then pure shares
    else if symbols ≤ shares.length then BitReader.fail
    else do
      match ← readUpTo free with
      | 0 => readShares symbols fuel (free - 1) (.rare :: shares)
      | 1 =>
        let gap ← readGap (symbols + 1)
        readShares symbols fuel free (List.replicate (gap + 1) (.states 0) ++ shares)
      | n + 2 => readShares symbols fuel (free - (n + 1)) (.states (n + 1) :: shares)

/-! ## Tables -/

/-- A state: its symbol, and the next state if all bits that are read are zero. -/
structure CodeState where
  symbol : Nat
  next : Nat
  width : Nat
  deriving DecidableEq, Repr

/-- A code: as many states as there are numbers of so many bits. -/
structure StateCode where
  width : Nat
  states : Array CodeState
  deriving DecidableEq, Repr

namespace StateCode

/-- The code of one symbol, which takes no bits. -/
def single (symbol : Nat) : StateCode :=
  ⟨0, #[⟨symbol, 0, 0⟩]⟩

/-- The symbols that are rare. -/
def rareSymbols (shares : List Share) : List Nat :=
  (shares.zipIdx.filter (·.1 == .rare)).map (·.2)

/-- The symbols that are not rare, as many times as they have states. -/
def commonSymbols (shares : List Share) : List Nat :=
  (shares.zipIdx.filter (·.1 != .rare)).flatMap fun (share, symbol) =>
    List.replicate share.size symbol

/-- Which symbol each state stands for. Rare symbols get the last states, from the
end on; the states of the others are spread over the rest in equal steps. -/
def spread (width : Nat) (shares : List Share) : Array Nat :=
  let size := 1 <<< width
  let step := size / 2 + size / 8 + 3
  let rare := rareSymbols shares
  let places := ((List.range size).map fun k => k * step % size).filter (· < size - rare.length)
  let lastPlaces := (List.range rare.length).map fun k => size - 1 - k
  (places.zip (commonSymbols shares) ++ lastPlaces.zip rare).foldl
    (fun table (place, symbol) => table.setIfInBounds place symbol) (Array.replicate size 0)

/-- The code with the given shares. The states of a symbol are numbered from its
share on, and what is read makes up for the bits that the number lacks. -/
def ofShares (width : Nat) (shares : List Share) : StateCode :=
  let add (built : Array CodeState × Array Nat) (symbol : Nat) : Array CodeState × Array Nat :=
    let number := built.2[symbol]?.getD 1
    let missing := width - number.log2
    (built.1.push ⟨symbol, (number <<< missing) - (1 <<< width), missing⟩,
      built.2.setIfInBounds symbol (number + 1))
  ⟨width, ((spread width shares).foldl add (#[], (shares.map Share.size).toArray)).1⟩

/-- Reads a code of no more than some symbols, whose states have no more than some
bits. -/
def read (symbols maxWidth : Nat) : BitReader StateCode := do
  let width := 5 + (← BitReader.bits 4)
  if maxWidth < width then BitReader.fail
  else
    let shares ← readShares symbols (symbols + 1) ((1 <<< width) + 1) []
    return ofShares width shares.reverse

/-- The code that some bytes start with, and how many bytes it takes. -/
def ofBytes? (symbols maxWidth : Nat) (bytes : ByteArray) : Option (StateCode × Nat) :=
  match read symbols maxWidth ⟨.lowFirst, bytes⟩ 0 with
  | .ok (code, stop) => some (code, (stop + 7) / 8)
  | .error _ => none

/-- Reads the first state. -/
def start (c : StateCode) : BitReader CodeState := do
  let place ← BitReader.bits c.width
  BitReader.ofOption c.states[place]?

/-- Reads the state after another one. -/
def after (c : StateCode) (state : CodeState) : BitReader CodeState := do
  let extra ← BitReader.bits state.width
  BitReader.ofOption c.states[state.next + extra]?

end StateCode

end ClassLens.Archive.Zstandard
