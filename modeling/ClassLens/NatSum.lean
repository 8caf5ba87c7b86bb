/-
Sums of natural numbers.

The sum of the standard library takes the addition and the zero of any type, and
which zero it finds for the natural numbers depends on what is imported. This
one is the same everywhere.
-/

set_option autoImplicit false

namespace ClassLens

/-- The sum of some numbers. -/
def natSum : List Nat → Nat
  | [] => 0
  | n :: ns => n + natSum ns

@[simp] theorem natSum_nil : natSum [] = 0 := rfl

@[simp] theorem natSum_cons (n : Nat) (ns : List Nat) : natSum (n :: ns) = n + natSum ns := rfl

@[simp] theorem natSum_append (ns ns' : List Nat) :
    natSum (ns ++ ns') = natSum ns + natSum ns' := by
  induction ns with
  | nil => rw [List.nil_append, natSum_nil, Nat.zero_add]
  | cons n ns ih => rw [List.cons_append, natSum_cons, natSum_cons, ih, Nat.add_assoc]

/-- The length of lists in a row. -/
theorem length_flatMap_eq_natSum {α β : Type} (f : α → List β) (l : List α) :
    (l.flatMap f).length = natSum (l.map fun a => (f a).length) := by
  induction l with
  | nil => rfl
  | cons a l ih => rw [List.flatMap_cons, List.length_append, ih, List.map_cons, natSum_cons]

end ClassLens
