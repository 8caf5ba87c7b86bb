/-
Visiting things one after the other until one of them fails.

A visit gives what was found up to its end, and why it ended early if it did.
What was found before a failure is kept, since it has been told about already.
-/

set_option autoImplicit false

namespace ClassLens.Scan

/-- What a visit found, and the failure that ended it. -/
structure Visit (ε α : Type) where
  found : List α
  failure : Option ε
  deriving DecidableEq, Repr

namespace Visit

variable {ε α β : Type}

/-- A visit that finds nothing. -/
def nothing : Visit ε α := ⟨[], none⟩

/-- A visit that finds one thing. -/
def one (a : α) : Visit ε α := ⟨[a], none⟩

/-- A visit that fails at once. -/
def fail (e : ε) : Visit ε α := ⟨[], some e⟩

/-- A visit that finds what there is, or fails. -/
def ofExcept : Except ε α → Visit ε α
  | .ok a => one a
  | .error e => fail e

/-- Goes on with another visit, unless the first one has failed. -/
def andThen (v : Visit ε α) (next : Unit → Visit ε α) : Visit ε α :=
  match v.failure with
  | some _ => v
  | none =>
    let later := next ()
    ⟨v.found ++ later.found, later.failure⟩

/-- Visits some things one after the other. -/
def all (visit : β → Visit ε α) : List β → Visit ε α
  | [] => nothing
  | b :: rest => (visit b).andThen fun _ => all visit rest

end Visit

end ClassLens.Scan
