/-
Pattern matches of a context's methods, remembered.

Matching a method is a function of the catalogue and the method, and the cache
only spares doing it twice. An entry belongs to a slot and not to a key, so two
methods of one key never share an entry, and a method from outside the context
has none. A question may refuse the entry; the answer is then computed afresh
and replaces it.
-/
import ClassLens.Context.Basic

set_option autoImplicit false

namespace ClassLens

/-- The matches remembered of each slot, by kind of pattern. -/
structure MatchCache where
  simple : Std.HashMap Slot (List String)
  advanced : Std.HashMap Slot (List String)

namespace MatchCache

/-- Nothing remembered. -/
def empty : MatchCache :=
  ⟨∅, ∅⟩

end MatchCache

/-- The matches of a method: the entry of its slot, if there is one and it may
be used, or else the matches computed, which then become the entry. -/
def answer (entries : Std.HashMap Slot (List String)) (slot? : Option Slot) (cached : Bool)
    (compute : Unit → List String) : List String × Std.HashMap Slot (List String) :=
  match slot? with
  | none => (compute (), entries)
  | some slot =>
    match cached, entries[slot]? with
    | true, some hit => (hit, entries)
    | _, _ =>
      let found := compute ()
      (found, entries.insert slot found)

/-- What is known of one method. -/
structure MethodMatches where
  key : String
  simple : List String
  advanced : List String
  deriving DecidableEq, Repr

namespace Context

/-- The method patterns of the method in a slot, if any slot. -/
def answerSimple (c : Context) (slot? : Option Slot) (m : Method) (cached : Bool) :
    StateM MatchCache (List String) := fun cache =>
  let (found, entries) := answer cache.simple slot? cached fun _ => c.catalog.matchSimple m
  (found, { cache with simple := entries })

/-- The instruction patterns of the method in a slot, if any slot. -/
def answerAdvanced (c : Context) (slot? : Option Slot) (m : Method) (cached : Bool) :
    StateM MatchCache (List String) := fun cache =>
  let (found, entries) := answer cache.advanced slot? cached fun _ => c.catalog.matchAdvanced m
  (found, { cache with advanced := entries })

/-- The method patterns of a subject. -/
def findSimple (c : Context) (s : Subject c) (cached : Bool) :
    StateM MatchCache (List String) :=
  c.answerSimple (c.slotOf? s) s.method cached

/-- The instruction patterns of a subject. -/
def findAdvanced (c : Context) (s : Subject c) (cached : Bool) :
    StateM MatchCache (List String) :=
  c.answerAdvanced (c.slotOf? s) s.method cached

/-- Whether all of some names are among the method patterns of a subject. -/
def hasSimple (c : Context) (s : Subject c) (names : List String) : StateM MatchCache Bool := do
  let found ← c.findSimple s true
  return names.all fun name => found.contains name

/-- Whether all of some names are among the instruction patterns of a
subject. -/
def hasAdvanced (c : Context) (s : Subject c) (names : List String) :
    StateM MatchCache Bool := do
  let found ← c.findAdvanced s true
  return names.all fun name => found.contains name

/-- The matches of the method in a slot. -/
def matchesAt (c : Context) (slot : Slot) (m : Method) : StateM MatchCache MethodMatches := do
  let simple ← c.answerSimple (some slot) m true
  let advanced ← c.answerAdvanced (some slot) m true
  return ⟨m.key, simple, advanced⟩

/-- The matches of every method, in class and declaration order. -/
def analyze (c : Context) : StateM MatchCache (List MethodMatches) :=
  c.members.mapM fun (slot, m) => c.matchesAt slot m

end Context

end ClassLens
