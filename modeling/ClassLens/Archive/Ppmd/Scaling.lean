/-
How a byte that has come is counted in its context.

Followers that count more move towards the front, and when a count gets too great, all
counts of the context are halved.
-/
import ClassLens.Archive.Ppmd.Growth
import ClassLens.NatSum

set_option autoImplicit false

namespace ClassLens.Archive.Ppmd

namespace Context

/-- The followers with half their counts, the greatest first; the one at a place counts
somewhat more before, and comes first among equals. Halves are rounded up on demand. -/
def halved (c : Context) (place : Nat) (roundsUp : Bool) : List Follower :=
  let first := c.followers[place]?.getD default
  let half (f : Follower) : Follower :=
    { f with count := (f.count + if roundsUp then 1 else 0) / 2 }
  let others := (c.followers.eraseIdxIfInBounds place).toList
  let all := { first with count := first.count + 4 } :: others
  (all.map half).mergeSort fun f g => g.count ≤ f.count

/-- Halves all counts. Followers whose count comes to nothing are forgotten; they count
with those that were never known. -/
def scaled (c : Context) (place : Nat) (roundsUp : Bool) : Context :=
  let all := c.halved place roundsUp
  let kept := all.filter (·.count != 0)
  let unknown := c.total - (c.followers.foldl (fun sum f => sum + f.count) 0) +
    (all.length - kept.length)
  let isHighAny := kept.any fun f => isHigh f.byte
  match kept with
  | [f] =>
    { c with
      followers := #[{ f with count := min (maxCount / 3) ((2 * f.count + unknown - 1) / unknown) }]
      isScaled := false
      hasHigh := isHighAny }
  | _ =>
    { c with
      followers := kept.toArray
      total := natSum (kept.map (·.count)) + (unknown - unknown / 2)
      isScaled := true
      hasHigh := if kept.length = all.length then c.hasHigh else isHighAny }

end Context

namespace Model

/-- Halves the counts of the current context, if that of the byte that came last is too
great. -/
def scale (m : Model) : Model :=
  if maxCount < (m.follower m.found).count then
    { m.alter m.current (·.scaled m.found.place (m.fall != 0)) with found := ⟨m.current, 0⟩ }
  else m

/-- Goes on to the longest context of the byte behind the one that came last. -/
def next (m : Model) : Model :=
  match m.fall, (m.follower m.found).link with
  | 0, .context next => { m with longest := next, current := next }
  | _, _ => m.grow

/-- Goes on behind the first follower of the current context. -/
def useFirst (m : Model) : Model :=
  let c := m.context m.current
  let spot : Spot := ⟨m.current, 0⟩
  let isExpected := c.total ≤ 2 * (m.follower spot).count
  let run := if isExpected then m.run + 1 else m.run
  ({ m.count spot 4 with found := spot, wasExpected := isExpected, run }).scale.next

/-- Goes on behind another follower of the current context. -/
def useLater (m : Model) (place : Nat) : Model :=
  let m := { m.count ⟨m.current, place⟩ 4 with found := ⟨m.current, place⟩, wasExpected := false }
  let countAt (k : Nat) : Nat := (m.follower ⟨m.current, k⟩).count
  if countAt (place - 1) < countAt place then
    ({ m.alter m.current (·.moveUp place) with found := ⟨m.current, place - 1⟩ }).scale.next
  else m.next

/-- Goes on behind a follower of the current context that longer contexts did not
know. -/
def useNew (m : Model) (place : Nat) : Model :=
  let m := { m.count ⟨m.current, place⟩ 4 with found := ⟨m.current, place⟩ }
  ({ m.scale with run := m.startRun }).grow

/-- Goes on behind the only follower of the current context. -/
def useSingle (m : Model) : Model :=
  let m := m.countSingle m.current 196
  ({ m with found := ⟨m.current, 0⟩, wasExpected := true, run := m.run + 1 }).next

end Model

end ClassLens.Archive.Ppmd
