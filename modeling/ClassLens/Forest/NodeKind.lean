/-
What an instruction is as a node of an expression tree.

The kind depends on the opcode and on the operand together. An opcode whose
operand is not of the sort that its category calls for makes a basic node, and
so does an opcode of a category without a kind of its own: building a node never
fails.
-/
import ClassLens.Instruction

set_option autoImplicit false

namespace ClassLens

/-! ## Operators -/

/-- The arithmetic and bitwise operators on two values. -/
inductive MathOp where
  | add
  | sub
  | mul
  | div
  | rem
  | shl
  | shr
  | ushr
  | and
  | or
  | xor
  deriving DecidableEq, Repr

namespace MathOp

/-- The operator of an opcode. Each operator has one opcode a type, four for
arithmetic and two for the shifts and the bitwise ones. -/
def of? (op : Opcode) : Option MathOp :=
  let b := op.toNat
  if b < 0x60 then none
  else if b ≤ 0x63 then some add
  else if b ≤ 0x67 then some sub
  else if b ≤ 0x6b then some mul
  else if b ≤ 0x6f then some div
  else if b ≤ 0x73 then some rem
  else if b < 0x78 then none
  else if b ≤ 0x79 then some shl
  else if b ≤ 0x7b then some shr
  else if b ≤ 0x7d then some ushr
  else if b ≤ 0x7f then some and
  else if b ≤ 0x81 then some or
  else if b ≤ 0x83 then some xor
  else none

/-- The sign of an operator. -/
def symbol : MathOp → String
  | add => "+"
  | sub => "-"
  | mul => "*"
  | div => "/"
  | rem => "%"
  | shl => "<<"
  | shr => ">>"
  | ushr => ">>>"
  | and => "&"
  | or => "|"
  | xor => "^"

end MathOp

/-- The relations that conditional branches test. -/
inductive Comparison where
  | eq
  | ne
  | lt
  | ge
  | gt
  | le
  deriving DecidableEq, Repr

namespace Comparison

/-- The relation of a conditional branch, on one value or on two. The tests
against null are tests for equality. -/
def of? (op : Opcode) : Option Comparison :=
  match op.toNat with
  | 0x99 | 0x9f | 0xa5 | 0xc6 => some eq
  | 0x9a | 0xa0 | 0xa6 | 0xc7 => some ne
  | 0x9b | 0xa1 => some lt
  | 0x9c | 0xa2 => some ge
  | 0x9d | 0xa3 => some gt
  | 0x9e | 0xa4 => some le
  | _ => none

/-- The sign of a relation. -/
def symbol : Comparison → String
  | eq => "=="
  | ne => "!="
  | lt => "<"
  | ge => ">="
  | gt => ">"
  | le => "<="

end Comparison

/-- What a branch on one value compares it with. -/
inductive BranchOperand where
  | zero
  | null
  deriving DecidableEq, Repr

/-! ## Field accesses -/

/-- A read or a write of a field. -/
structure FieldAccess where
  field : FieldRef
  isGetter : Bool
  isStatic : Bool
  deriving DecidableEq, Repr

/-- What accesses of one field have in common: owner, a dot, and name. -/
def FieldAccess.key (a : FieldAccess) : String :=
  a.field.owner ++ "." ++ a.field.name

/-! ## Kinds -/

/-- The kind of a node, with what it needs of the operand. -/
inductive NodeKind where
  | field (access : FieldAccess)
  | call (site : CallSite)
  | constant (value : Constant)
  | math (op : MathOp)
  /-- A branch on two values. -/
  | compareBranch (comparison : Comparison) (target : UInt32)
  /-- A branch on one value. -/
  | branch (comparison : Comparison) (operand : BranchOperand) (target : UInt32)
  | jump (target : UInt32)
  | load (slot : UInt16)
  | store (slot : UInt16)
  /-- The return from a subroutine through a local variable. -/
  | ret (slot : UInt16)
  | basic
  deriving DecidableEq, Repr

/-- The kind of an instruction's node. -/
def Instruction.nodeKind (i : Instruction) : NodeKind :=
  match Category.of? i.opcode, i.operand with
  | some .staticRead, .field ref => .field ⟨ref, true, true⟩
  | some .staticWrite, .field ref => .field ⟨ref, false, true⟩
  | some .instanceRead, .field ref => .field ⟨ref, true, false⟩
  | some .instanceWrite, .field ref => .field ⟨ref, false, false⟩
  | some .invoke, .call site => .call site
  | some .constant, .constant value => .constant value
  | some .arithmetic, _ =>
    match MathOp.of? i.opcode with
    | some op => .math op
    | none => .basic
  | some .compareBranch, .jump target =>
    match Comparison.of? i.opcode with
    | some comparison => .compareBranch comparison target
    | none => .basic
  | some .branch, .jump target =>
    match Comparison.of? i.opcode with
    | some comparison =>
      let operand :=
        if i.opcode = Opcode.ifnull ∨ i.opcode = Opcode.ifnonnull then BranchOperand.null
        else BranchOperand.zero
      .branch comparison operand target
    | none => .basic
  | some .jump, .jump target | some .subroutine, .jump target => .jump target
  | some .localLoad, .slot index => .load index
  | some .localStore, .slot index => .store index
  | some .subroutineReturn, .slot index => .ret index
  | _, _ => .basic

/-- The field access that an instruction makes, if it makes one. -/
def Instruction.fieldAccess? (i : Instruction) : Option FieldAccess :=
  match i.nodeKind with
  | .field access => some access
  | _ => none

end ClassLens
