/-
Decoded instructions: an opcode with the operands it was written with, at a
place in the code and a position in the sequence.

Nothing here ties the operand to the opcode. A decoder produces only pairs that
belong together, but every analysis is a total function of the pair, so an
instruction put together by hand is as good an input as a decoded one.

Floating point literals are kept as the bits they are stored in. Equality of
literals is then equality of bits, and the payload of a not-a-number survives.
-/
import ClassLens.Opcode

set_option autoImplicit false

namespace ClassLens

/-- A literal that an instruction pushes. -/
inductive Constant where
  | null
  | int (value : Int32)
  | long (value : Int64)
  | float (bits : UInt32)
  | double (bits : UInt64)
  | string (value : String)
  /-- A class, by its internal name. -/
  | classLiteral (name : String)
  /-- Anything without a literal form, by the descriptor of its static type. -/
  | other (descriptor : String)
  deriving DecidableEq, Repr

/-- The descriptor of a literal's static type. -/
def Constant.typeDescriptor : Constant → String
  | null => "Ljava/lang/Object;"
  | int _ => "I"
  | long _ => "J"
  | float _ => "F"
  | double _ => "D"
  | string _ => "Ljava/lang/String;"
  | classLiteral _ => "Ljava/lang/Class;"
  | other descriptor => descriptor

/-- A field named by its declaring class, name and type. -/
structure FieldRef where
  owner : String
  name : String
  descriptor : String
  deriving DecidableEq, Repr

/-- How a call finds its target. -/
inductive CallKind where
  | virtual
  | interface
  | special
  | static
  | dynamic
  deriving DecidableEq, Repr

/-- Whether the call pops an object below its arguments. -/
def CallKind.hasReceiver : CallKind → Bool
  | virtual | interface | special => true
  | static | dynamic => false

/-- A call as written in the code. A dynamic call has no owner. -/
structure CallSite where
  owner : String
  name : String
  descriptor : String
  kind : CallKind
  /-- The offset of the calling instruction. -/
  offset : UInt32
  deriving DecidableEq, Repr

/-- The key of the method a call names, in the form of `Method.key`. -/
def CallSite.key (call : CallSite) : String :=
  call.owner ++ "." ++ call.name ++ call.descriptor

/-- The operands of an instruction. -/
inductive Operand where
  | field (ref : FieldRef)
  | call (site : CallSite)
  | constant (value : Constant)
  /-- A local variable. -/
  | slot (index : UInt16)
  /-- A local variable and the amount added to it. -/
  | increment (index : UInt16) (delta : Int16)
  /-- The absolute offset a jump goes to. -/
  | jump (target : UInt32)
  /-- The absolute offsets a switch goes to. -/
  | switch (fallback : UInt32) (targets : List UInt32)
  /-- A class, by its internal name. -/
  | classRef (name : String)
  /-- The element type code of a new array of a primitive type. -/
  | primitiveArray (code : UInt8)
  | multiArray (name : String) (dimensions : UInt8)
  | plain
  deriving DecidableEq, Repr

/-- One instruction of a method. -/
structure Instruction where
  /-- The position in the sequence of the method's instructions. -/
  index : Nat
  /-- The offset of the opcode in the code. -/
  offset : UInt32
  /-- The opcode; of a widened instruction, the opcode that was widened. -/
  opcode : Opcode
  operand : Operand
  deriving DecidableEq, Repr

namespace Instruction

/-- Where control may go from a jump or a switch, and nothing for any other
instruction. A switch gives its fallback first. -/
def branchTargets? (i : Instruction) : Option (List UInt32) :=
  match i.operand with
  | .jump target => some [target]
  | .switch fallback targets => some (fallback :: targets)
  | _ => none

/-- Whether the instruction is a jump or a switch. -/
def isBranching (i : Instruction) : Bool :=
  i.branchTargets?.isSome

end Instruction

end ClassLens
