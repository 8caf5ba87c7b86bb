/-
How contexts grow when a byte has come.

The byte is counted in the next shorter context as well, it becomes a follower of all
longer contexts that did not know it, and the longest context of the byte behind it is
looked up or made.
-/
import ClassLens.Archive.Ppmd.Model

set_option autoImplicit false

namespace ClassLens.Archive.Ppmd.Model

/-! ## New contexts -/

/-- The count that the first follower of a new context starts with, by the context that
is shorter by a byte. -/
def inheritedCount (c : Context) (byte : UInt8) : Nat :=
  let countAt (place : Nat) : Nat := (c.followers[place]?.getD default).count
  if c.isSingle then countAt 0
  else
    let own := countAt (c.find byte) - 1
    let rest := c.total - c.others - own
    if 2 * own ≤ rest then (if rest < 5 * own then 2 else 1)
    else (1 + (own + 2 * rest - 3) / rest) % 256

/-- Where the byte that came last stands in a context, where it is counted once more if
it does not count too much already. -/
def countAgain (m : Model) (index : Nat) (byte : UInt8) : Spot × Model :=
  let c := m.context index
  let spot : Spot := ⟨index, c.find byte⟩
  if c.isSingle then
    let isAlone := c.shorter.any fun shorter => (m.context shorter).isSingle
    (spot, if isAlone then m.countSingle index 24 else m)
  else (spot, if (m.follower spot).count < maxCount - 9 then m.count spot 1 else m)

/-- Goes to shorter contexts as long as only text comes behind the byte there. Gives the
first context that comes behind it, or the shortest context of all, and the spots on
the way, the last one first. The first spot may be known. Every context is shorter than
the one before, so the fuel is the number of contexts. -/
def climb (byte : UInt8) :
    Nat → Nat → Option Spot → List Spot → Model → Nat × List Spot × Model
  | 0, index, _, spots, m => (index, spots, m)
  | fuel + 1, index, known, spots, m =>
    match (m.context index).shorter with
    | none => (index, spots, m)
    | some shorter =>
      let (spot, m) :=
        match known with
        | some spot => (spot, m)
        | none => m.countAgain shorter byte
      match (m.follower spot).link with
      | .context next => (next, spots, m)
      | _ => climb byte fuel shorter none (spot :: spots) m

/-- Makes a context with one follower for each of some spots, each longer than the one
before, and gives the last one. -/
def growFrom (index : Nat) (follower : Follower) (isAfterHigh : Bool) (m : Model)
    (spots : List Spot) : Nat × Model :=
  let grow (made : Nat × Model) (spot : Spot) : Nat × Model :=
    let m := made.2
    let new : Context := {
      followers := #[follower]
      total := 0
      isScaled := false
      hasHigh := isHigh follower.byte
      isAfterHigh := isAfterHigh
      shorter := some made.1 }
    (m.contexts.size,
      { m with contexts := m.contexts.push new }.setLink spot (.context m.contexts.size))
  spots.foldl grow (index, m)

/-- Makes the contexts behind a spot and behind those of the same byte in shorter
contexts. The spot itself may be left out. Gives the longest context that was made, or
that was there if none was. -/
def makeContexts (m : Model) (found : Spot) (leaveOut : Bool) (known : Option Spot)
    (index : Nat) : Nat × Model :=
  let f := m.follower found
  let (parent, spots, m) :=
    m.climb f.byte m.contexts.size index known (if leaveOut then [] else [found])
  match spots, f.link with
  | _ :: _, .text place =>
    let byte := m.text[place]?.getD 0
    let follower : Follower :=
      ⟨byte, inheritedCount (m.context parent) byte, .text (place + 1)⟩
    growFrom parent follower (isHigh f.byte) m spots
  | _, _ => (parent, m)

/-! ## Bytes without contexts -/

/-- Counts the byte that came last in a shorter context, and gives where it stands. -/
def countShorter (m : Model) (index : Nat) (byte : UInt8) : Spot × Model :=
  let c := m.context index
  let spot : Spot := ⟨index, c.find byte⟩
  if c.isSingle then (spot, m.countSingle index 32)
  else (spot, if (m.follower spot).count < maxCount - 9 then m.count spot 2 else m)

/-- Goes to shorter contexts until something is known to come behind the byte, and lets
the end of the text come behind it on the way. Gives that context and the spot of the
byte in it, if there is one. -/
def fallBack (byte : UInt8) (link : Link) :
    Nat → Nat → Option Spot → Model → Nat × Option Spot × Model
  | 0, index, _, m => (index, none, m)
  | fuel + 1, index, known, m =>
    match (m.context index).shorter with
    | none => (index, none, m)
    | some shorter =>
      let (spot, m) :=
        match known with
        | some spot => (spot, m)
        | none => m.countShorter shorter byte
      match (m.follower spot).link with
      | .unknown =>
        let m := m.setLink spot link
        fallBack byte link fuel shorter none { m with fall := m.fall + 1 }
      | _ => (shorter, some spot, m)

/-- Finds the context behind a byte behind which nothing was known. -/
def findShorter (m : Model) (known : Option Spot) (index : Nat) : Nat × Model :=
  let byte := (m.follower m.found).byte
  let link : Link := .text m.textEnd
  let m := m.setLink m.found link
  let m := { m with fall := m.fall + 1 }
  match fallBack byte link m.contexts.size index known m with
  | (shortest, none, m) => (shortest, m)
  | (shorter, some spot, m) =>
    let (next, m) :=
      match (m.follower spot).link with
      | .context next => (next, m)
      | _ =>
        let (next, m) := m.makeContexts spot false none shorter
        (next, m.setLink spot (.context next))
    if m.fall = 1 ∧ index = m.longest then
      (next, (m.setLink m.found (.context next)).unwrite)
    else (next, m)

/-! ## New followers -/

/-- How much a new follower counts, and how much the total grows by it, by the count of
the byte where it was found, what else there was, and the total. -/
def newCount (count rest total : Nat) : Nat × Nat :=
  let share := 2 * count * (total + 6)
  let whole := rest + total
  let more (times : Nat) : Nat := if times * whole < share then 1 else 0
  if share < 6 * whole then (1 + more 1 + (if 4 * whole ≤ share then 1 else 0), 4)
  else
    let n := 4 + more 9 + more 12 + more 15
    (n, n)

/-- A context as it is before it gets another follower, by the number of other followers
of the context in which the byte was found. -/
def prepared (startEscape others : Nat) (c : Context) : Context :=
  if c.isSingle then
    let double (f : Follower) : Follower :=
      { f with count := if f.count < maxCount / 4 - 1 then 2 * f.count else maxCount - 4 }
    let followers := c.followers.map double
    let count := (followers[0]?.getD default).count
    { c with followers, total := count + startEscape + (if 2 < others then 1 else 0) }
  else { c with total := c.total + (if 3 * c.others + 1 < others then 1 else 0) }

/-- Adds a follower to the contexts from a longest one down to the current one, which has
it already. -/
def addFollowers (byte : UInt8) (count rest others : Nat) (link : Link) :
    Nat → Nat → Model → Model
  | 0, _, m => m
  | fuel + 1, index, m =>
    if index = m.current then m
    else
      let c := prepared m.startEscape others (m.context index)
      let (own, growth) := newCount count rest c.total
      let m := m.alter index fun _ =>
        { c with
          followers := c.followers.push ⟨byte, own, link⟩
          total := c.total + growth
          hasHigh := c.hasHigh || isHigh byte }
      match c.shorter with
      | none => m
      | some shorter => addFollowers byte count rest others link fuel shorter m

/-! ## All -/

/-- Counts the byte that came last in the context that is shorter than the current one,
and gives where it stands. -/
def countBelow (m : Model) : Option Spot × Model :=
  let f := m.follower m.found
  match (m.context m.current).shorter with
  | none => (none, m)
  | some shorter =>
    if maxCount / 4 ≤ f.count then (none, m)
    else
      let c := m.context shorter
      if c.isSingle then (some ⟨shorter, 0⟩, m.countSingle shorter 32)
      else
        let place := c.find f.byte
        let countAt (k : Nat) : Nat := (c.followers[k]?.getD default).count
        let isMoved := 0 < place && countAt (place - 1) ≤ countAt place
        let m := if isMoved then m.alter shorter (·.moveUp place) else m
        let spot : Spot := ⟨shorter, if isMoved then place - 1 else place⟩
        (some spot, if (m.follower spot).count < maxCount - 9 then m.count spot 2 else m)

/-- Grows by the byte that came last, when the longest context does not come from what is
known. -/
def growLonger (m : Model) (f : Follower) (known : Option Spot) : Model :=
  let m := m.write f.byte
  let behind : Link := .text m.textEnd
  let (next, m) :=
    match f.link with
    | .unknown => m.findShorter known m.current
    | .text _ => m.makeContexts m.found false known m.current
    | .context next => (next, m)
  let fall := m.fall - 1
  let m := { m with fall }
  let m := if fall = 0 ∧ m.longest ≠ m.current then m.unwrite else m
  let c := m.context m.current
  let m := addFollowers f.byte f.count (c.total - c.others - f.count) c.others
    (if fall = 0 then .context next else behind) m.contexts.size m.longest m
  { m with longest := next, current := next }

/-- Grows by the byte that came last. -/
def grow (m : Model) : Model :=
  let f := m.follower m.found
  let (known, m) := m.countBelow
  if m.fall = 0 ∧ f.link ≠ .unknown then
    let (next, m) := m.makeContexts m.found true known m.current
    let m := m.setLink m.found (.context next)
    { m with longest := next, current := next }
  else m.growLonger f known

end ClassLens.Archive.Ppmd.Model
