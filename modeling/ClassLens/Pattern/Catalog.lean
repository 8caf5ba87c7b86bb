/-
Patterns and the catalogues that hold them.

A pattern is a name with a predicate, either on methods or on single
instructions. A catalogue is an ordered list of patterns in which no name occurs
twice; the order is the order of answers. Matching never fails.
-/
import ClassLens.Method

set_option autoImplicit false

namespace ClassLens

/-! ## Patterns -/

/-- The groups that patterns are listed in. -/
inductive PatternCategory where
  | calling
  | controlFlow
  | dataFlow
  | objectOriented
  deriving DecidableEq, Repr

/-- The name of a group. -/
def PatternCategory.label : PatternCategory → String
  | calling => "Calling"
  | controlFlow => "Control Flow"
  | dataFlow => "Data Flow"
  | objectOriented => "Object-Oriented"

/-- What a pattern looks for. -/
inductive Matcher where
  | method (holds : Method → Bool)
  | instruction (holds : Instruction → Bool)

/-- A small structural idiom of a method or of one of its instructions. -/
structure Pattern where
  name : String
  category : PatternCategory
  description : String
  matcher : Matcher

namespace Pattern

/-- Whether the pattern is matched once a method and not once an instruction. -/
def isSimple (p : Pattern) : Bool :=
  match p.matcher with
  | .method _ => true
  | .instruction _ => false

/-- Whether the pattern is one of methods and the method shows it. -/
def holdsFor (p : Pattern) (m : Method) : Bool :=
  match p.matcher with
  | .method holds => holds m
  | .instruction _ => false

/-- Whether the pattern is one of instructions and the instruction shows it. -/
def holdsAt (p : Pattern) (i : Instruction) : Bool :=
  match p.matcher with
  | .method _ => false
  | .instruction holds => holds i

end Pattern

/-! ## Catalogues -/

/-- Patterns in the order they are matched in, under distinct names. -/
structure Catalog where
  patterns : List Pattern
  names_nodup : (patterns.map (·.name)).Nodup

/-- The refusal of a name that is taken. -/
structure DuplicatePattern where
  name : String
  deriving DecidableEq, Repr

/-- The text of the refusal. -/
def DuplicatePattern.message (e : DuplicatePattern) : String :=
  "nanopattern " ++ e.name ++ " is already registered"

namespace Catalog

/-- The catalogue without patterns. -/
def empty : Catalog :=
  ⟨[], by simp⟩

/-- The pattern of a name. -/
def get? (c : Catalog) (name : String) : Option Pattern :=
  c.patterns.find? (·.name == name)

/-- The names in order. -/
def names (c : Catalog) : List String :=
  c.patterns.map (·.name)

/-- The number of patterns. -/
def size (c : Catalog) : Nat :=
  c.patterns.length

/-- Appends a pattern whose name is not taken. -/
def register (c : Catalog) (p : Pattern) : Except DuplicatePattern Catalog :=
  if h : p.name ∈ c.patterns.map (·.name) then .error ⟨p.name⟩
  else .ok ⟨c.patterns ++ [p], by
    rw [List.map_append, List.nodup_append]
    refine ⟨c.names_nodup, by simp, ?_⟩
    intro a ha b hb hab
    simp only [List.map_cons, List.map_nil, List.mem_singleton] at hb
    exact h (hb ▸ hab ▸ ha)⟩

/-- The names of the method patterns that a method shows, in order. -/
def matchSimple (c : Catalog) (m : Method) : List String :=
  (c.patterns.filter (·.holdsFor m)).map (·.name)

/-- The names of the instruction patterns that a method shows: for each
instruction in order, each pattern in order that it shows. -/
def matchAdvanced (c : Catalog) (m : Method) : List String :=
  m.instructions.flatMap fun i => (c.patterns.filter (·.holdsAt i)).map (·.name)

end Catalog

end ClassLens
