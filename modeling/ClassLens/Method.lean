/-
Methods and classes: what is left of a class file once the code of its methods
is decoded.
-/
import ClassLens.Instruction

set_option autoImplicit false

namespace ClassLens

/-- A range of code offsets whose exceptions are handled at one place. -/
structure ExceptionHandler where
  /-- The first offset of the range. -/
  startPc : UInt32
  /-- The offset just past the range. -/
  endPc : UInt32
  handlerPc : UInt32
  /-- The internal name of the class handled; none for every exception. -/
  catchType : Option String
  deriving DecidableEq, Repr

/-- The access flags that analyses look at. -/
structure MethodAccess where
  isPublic : Bool
  isStatic : Bool
  isAbstract : Bool
  deriving DecidableEq, Repr

/-- A method with its decoded code. A method without code has no
instructions. -/
structure Method where
  /-- The internal name of the declaring class. -/
  owner : String
  name : String
  descriptor : String
  access : MethodAccess
  instructions : List Instruction
  handlers : List ExceptionHandler
  deriving DecidableEq, Repr

namespace Method

/-- The key of the method: owner, a dot, then name and descriptor run
together. -/
def key (m : Method) : String :=
  m.owner ++ "." ++ m.name ++ m.descriptor

/-- Whether local variable 0 holds the receiver on entry. -/
def isInstance (m : Method) : Bool :=
  !m.access.isStatic

/-- The calls of the method, in instruction order. -/
def calls (m : Method) : List CallSite :=
  m.instructions.filterMap fun i =>
    match i.operand with
    | .call site => some site
    | _ => none

/-- The calls that name a method: all but the dynamic ones. -/
def methodCalls (m : Method) : List CallSite :=
  m.calls.filter (·.kind != .dynamic)

end Method

/-- A class with its methods in declaration order. -/
structure Class where
  name : String
  superName : Option String
  methods : List Method
  deriving DecidableEq, Repr

end ClassLens
