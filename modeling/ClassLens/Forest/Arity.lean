/-
How many of the values produced before it an instruction consumes.

For most opcodes the number is fixed by the category. Calls and arrays of
several dimensions say it in their operand. An increment is the odd one: on a
parameter it is read as loop control and consumes nothing, on any other
variable it consumes one value. Whether a variable is a parameter is decided by
the number of declared parameters, and not by the slots they take.
-/
import ClassLens.Descriptor
import ClassLens.Method
import ClassLens.Text.Quoted

set_option autoImplicit false

namespace ClassLens

/-! ## Classes of arity -/

/-- How the number of operands of an instruction is found. -/
inductive ArityClass where
  | nullary
  | unary
  | binary
  | ternary
  | quaternary
  /-- The operand says how many. -/
  | nary
  deriving DecidableEq, Repr

namespace ArityClass

/-- The arity class of a category. -/
def ofCategory : Category → ArityClass
  | .nop | .constant | .localLoad | .duplicate | .jump | .subroutine | .subroutineReturn
  | .voidReturn | .staticRead | .new | .wide => nullary
  | .localStore | .pop | .negate | .increment | .conversion | .branch | .switch
  | .valueReturn | .staticWrite | .instanceRead | .newArray | .arrayLength | .throw
  | .typeCheck | .monitor => unary
  | .arrayLoad | .arithmetic | .comparison | .compareBranch | .instanceWrite => binary
  | .arrayStore => ternary
  | .invoke | .multiNewArray => nary

/-- The arity class of an opcode. A reserved opcode consumes nothing. -/
def of (op : Opcode) : ArityClass :=
  match Category.of? op with
  | some category => ofCategory category
  | none => nullary

/-- The word for an arity class. -/
def label : ArityClass → String
  | nullary => "nullary"
  | unary => "unary"
  | binary => "binary"
  | ternary => "ternary"
  | quaternary => "quaternary"
  | nary => "nary"

end ArityClass

/-! ## The number of operands -/

/-- A descriptor that the arity of an instruction hangs on and that cannot be
read. -/
structure DescriptorFault where
  index : Nat
  offset : UInt32
  opcode : Opcode
  descriptor : String
  reason : DescriptorError
  deriving DecidableEq, Repr

/-- The text of a descriptor fault. -/
def DescriptorFault.message (e : DescriptorFault) : String :=
  "invalid descriptor " ++ Text.quoted e.descriptor ++ " at instruction " ++ toString e.index ++
    " (offset " ++ toString e.offset.toNat ++ ", " ++ e.opcode.mnemonic ++ "): " ++
    e.reason.message

namespace Instruction

/-- Reads a descriptor on behalf of an instruction. -/
def signature (i : Instruction) (descriptor : String) :
    Except DescriptorFault MethodDescriptor :=
  match MethodDescriptor.parse descriptor with
  | .ok d => .ok d
  | .error reason => .error ⟨i.index, i.offset, i.opcode, descriptor, reason⟩

/-- The operands of an increment. The variable's number is compared with the
number of parameters after the receiver, which takes slot 0 of an instance
method, is taken off. -/
def incrementArity (i : Instruction) (m : Method) : Except DescriptorFault Nat :=
  match i.operand with
  | .increment index _ => do
    let d ← i.signature m.descriptor
    let argument : Int := if m.isInstance then (index.toNat : Int) - 1 else index.toNat
    return if argument < d.parameterCount then 0 else 1
  | _ => .ok 1

/-- The operands of an instruction whose operand says how many. -/
def naryArity (i : Instruction) : Except DescriptorFault Nat :=
  match i.operand with
  | .call site => do
    let d ← i.signature site.descriptor
    return d.argumentSlots + if site.kind.hasReceiver then 1 else 0
  | .multiArray _ dimensions => .ok dimensions.toNat
  | _ => .ok 0

/-- The number of values that an instruction of a method consumes. -/
def arity (i : Instruction) (m : Method) : Except DescriptorFault Nat :=
  match ArityClass.of i.opcode with
  | .nullary => .ok 0
  | .unary => if i.opcode = Opcode.iinc then i.incrementArity m else .ok 1
  | .binary => .ok 2
  | .ternary => .ok 3
  | .quaternary => .ok 4
  | .nary => i.naryArity

end Instruction

end ClassLens
