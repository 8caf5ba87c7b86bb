/-
A set of classes under analysis, and what can be asked of it by name.

The same class may be in the set more than once, so a key does not name one
method. Methods are therefore told apart by their slot, the position of the
class and the position of the method in it, and the key index leads from a key
to all its slots. The index is a function of the classes, which the context
keeps as a field.
-/
import ClassLens.Pattern.Catalog
import ClassLens.NatSum
import Std.Data.HashMap

set_option autoImplicit false

namespace ClassLens

/-- The place of a method in a list of classes. -/
structure Slot where
  classIndex : Nat
  methodIndex : Nat
  deriving DecidableEq, Hashable, Repr

/-! ## The key index -/

/-- Every method of some classes with its slot: classes in order, and the
methods of each in order. -/
def members (classes : List Class) : List (Slot × Method) :=
  classes.zipIdx.flatMap fun (c, i) => c.methods.zipIdx.map fun (m, j) => (⟨i, j⟩, m)

/-- Slots by key. -/
abbrev KeyIndex := Std.HashMap String (List Slot)

/-- Puts a slot in front of those of its key. -/
def KeyIndex.add (index : KeyIndex) (key : String) (slot : Slot) : KeyIndex :=
  index.insert key (slot :: index.getD key [])

/-- The slots of each key, in the order of the members. -/
def keyIndex (classes : List Class) : KeyIndex :=
  (members classes).foldr (fun (slot, m) index => index.add m.key slot) ∅

/-! ## Contexts -/

/-- Classes and a catalogue to match them with. -/
structure Context where
  classes : List Class
  catalog : Catalog
  index : KeyIndex
  index_eq : index = keyIndex classes

namespace Context

/-- The context of some classes and a catalogue. -/
def make (classes : List Class) (catalog : Catalog) : Context :=
  ⟨classes, catalog, keyIndex classes, rfl⟩

/-- Every method with its slot, in class and declaration order. -/
def members (c : Context) : List (Slot × Method) :=
  ClassLens.members c.classes

/-- Every method, in class and declaration order. -/
def methods (c : Context) : List Method :=
  c.classes.flatMap (·.methods)

/-- The number of methods. -/
def methodCount (c : Context) : Nat :=
  natSum (c.classes.map (·.methods.length))

/-- The method in a slot. -/
def methodAt? (c : Context) (slot : Slot) : Option Method :=
  c.classes[slot.classIndex]?.bind (·.methods[slot.methodIndex]?)

/-- Every method declared under a key, in order. -/
def resolveAll (c : Context) (key : String) : List (Slot × Method) :=
  (c.index.getD key []).filterMap fun slot => (c.methodAt? slot).map fun m => (slot, m)

/-- The first method declared under a key. -/
def resolve? (c : Context) (key : String) : Option (Slot × Method) :=
  (c.resolveAll key).head?

/-- The methods with a call that names a key. Dynamic calls name none. -/
def callers (c : Context) (key : String) : List (Slot × Method) :=
  c.members.filter fun (_, m) => m.methodCalls.any (·.key == key)

/-! ## Methods inside and outside -/

/-- A method that a question is about. It may be one of the context's own, and
is then known by its slot, or one from elsewhere, whatever its key. -/
inductive Subject (c : Context) where
  | inside (slot : Slot) (method : Method) (found : c.methodAt? slot = some method)
  | outside (method : Method)

namespace Subject

/-- The method itself. -/
def method {c : Context} : Subject c → Method
  | inside _ m _ => m
  | outside m => m

/-- Whether the subject is the method in a slot. -/
def isAt {c : Context} (slot : Slot) : Subject c → Bool
  | inside own _ _ => own == slot
  | outside _ => false

end Subject

/-- The context's own method in a slot. -/
def subjectAt? (c : Context) (slot : Slot) : Option (Subject c) :=
  match h : c.methodAt? slot with
  | some m => some (.inside slot m h)
  | none => none

/-- The slot of a subject, searched among those of its key. A method from
elsewhere has none. -/
def slotOf? (c : Context) (s : Subject c) : Option Slot :=
  (c.index.getD s.method.key []).find? fun slot => s.isAt slot

end Context

end ClassLens
