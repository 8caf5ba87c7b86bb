/-
The built-in patterns: nine of methods, then nine of instructions.
-/
import ClassLens.Descriptor
import ClassLens.Flow.Graph
import ClassLens.Pattern.Catalog

set_option autoImplicit false

namespace ClassLens

/-! ## Predicates on methods -/

namespace Method

/-- The method's own descriptor, where it can be read. -/
def signature? (m : Method) : Option MethodDescriptor :=
  (MethodDescriptor.parse m.descriptor).toOption

/-- Takes no arguments. A descriptor that cannot be read is no evidence. -/
def takesNothing (m : Method) : Bool :=
  m.signature?.any (·.parameterCount == 0)

/-- Gives nothing back. -/
def returnsNothing (m : Method) : Bool :=
  m.signature?.any (·.returnsVoid)

/-- Gives back the type that declares it, and is called on an object. -/
def isChained (m : Method) : Bool :=
  m.isInstance && MethodDescriptor.returnsClass m.descriptor m.owner

/-- Calls itself: same owner, name and descriptor. -/
def isRecursive (m : Method) : Bool :=
  m.methodCalls.any fun call =>
    call.owner == m.owner && call.name == m.name && call.descriptor == m.descriptor

/-- Calls another method of its name: another owner or another descriptor. -/
def callsSameName (m : Method) : Bool :=
  m.methodCalls.any fun call =>
    call.name == m.name && (call.owner != m.owner || call.descriptor != m.descriptor)

/-- Calls no method. Dynamic calls do not count. -/
def isLeaf (m : Method) : Bool :=
  m.methodCalls.isEmpty

/-- Has no jump and no switch. -/
def isStraightLine (m : Method) : Bool :=
  !m.instructions.any (·.isBranching)

/-- Has a branch back to its own block or to an earlier one. -/
def hasLoop (m : Method) : Bool :=
  !(Flow.graph m).backEdges.isEmpty

/-- Handles exceptions, or throws one. -/
def usesExceptions (m : Method) : Bool :=
  !m.handlers.isEmpty || m.instructions.any (·.opcode == Opcode.athrow)

end Method

/-! ## The catalogue -/

/-- A pattern that an instruction shows if its opcode does. -/
def Pattern.ofOpcode (name : String) (category : PatternCategory) (description : String)
    (holds : Opcode → Bool) : Pattern :=
  ⟨name, category, description, .instruction (holds ·.opcode)⟩

/-- The built-in patterns of methods, in the order they are matched in. -/
def simplePatterns : List Pattern := [
  ⟨"NoParams", .calling, "Takes no arguments", .method Method.takesNothing⟩,
  ⟨"NoReturn", .calling, "Returns void", .method Method.returnsNothing⟩,
  ⟨"Chained", .calling, "Instance method returning its own declaring type",
    .method Method.isChained⟩,
  ⟨"Recursive", .calling, "Calls itself", .method Method.isRecursive⟩,
  ⟨"SameName", .calling, "Calls another method with the same name",
    .method Method.callsSameName⟩,
  ⟨"Leaf", .calling, "Makes no method calls", .method Method.isLeaf⟩,
  ⟨"StraightLine", .controlFlow, "Contains no branches or switches",
    .method Method.isStraightLine⟩,
  ⟨"Looping", .controlFlow, "Contains a loop", .method Method.hasLoop⟩,
  ⟨"Exceptions", .controlFlow, "Catches or throws exceptions",
    .method Method.usesExceptions⟩]

/-- The built-in patterns of instructions, in the order they are matched in. An
increment writes its variable in place, so it is a write without being a
store. -/
def advancedPatterns : List Pattern := [
  .ofOpcode "ObjectCreator" .objectOriented "Creates a new object" (· == 0xbb),
  .ofOpcode "FieldReader" .objectOriented "Reads a field"
    fun op => op == 0xb4 || op == 0xb2,
  .ofOpcode "FieldWriter" .objectOriented "Writes a field"
    fun op => op == 0xb5 || op == 0xb3,
  .ofOpcode "TypeManipulator" .objectOriented "Casts or tests the type of a reference"
    fun op => op == 0xc0 || op == 0xc1,
  .ofOpcode "LocalReader" .dataFlow "Reads a local variable" (Opcode.between 0x15 0x2d),
  .ofOpcode "LocalWriter" .dataFlow "Writes a local variable"
    fun op => Opcode.between 0x36 0x4e op || op == Opcode.iinc,
  .ofOpcode "ArrayCreator" .dataFlow "Creates an array"
    fun op => op == 0xbc || op == 0xbd || op == 0xc5,
  .ofOpcode "ArrayReader" .dataFlow "Reads an array element" (Opcode.between 0x2e 0x35),
  .ofOpcode "ArrayWriter" .dataFlow "Writes an array element" (Opcode.between 0x4f 0x56)]

/-- The built-in catalogue: the patterns of methods, then those of
instructions. -/
def Catalog.builtin : Catalog :=
  ⟨simplePatterns ++ advancedPatterns, by decide⟩

end ClassLens
