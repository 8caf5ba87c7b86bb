/-
Operand formats: how the bytes after an opcode are laid out.

The length of an instruction and the reading of its operands are two walks over
the same layout. Both go by the format of the opcode, so the table below is the
one statement of which opcode has which layout. A format that fixes the length
says so in `size?`; the switches and `wide` depend on what follows.
-/
import ClassLens.Instruction

set_option autoImplicit false

namespace ClassLens.Code

/-- The layout of an instruction's operands. -/
inductive Format where
  /-- No operand bytes and no operand. -/
  | plain
  /-- A literal that the opcode itself names. -/
  | implied (value : Constant)
  /-- A signed byte to push. -/
  | byteLiteral
  /-- Two bytes, a signed number to push. -/
  | shortLiteral
  /-- One byte, the index of a literal. -/
  | nearLiteral
  /-- Two bytes, the index of a literal. -/
  | farLiteral
  /-- One byte, a local variable. -/
  | slot
  /-- A local variable that the opcode itself names. -/
  | impliedSlot (index : UInt16)
  /-- One byte for a local variable, one signed byte to add to it. -/
  | increment
  /-- Two signed bytes, the distance of a jump. -/
  | jump
  /-- Four signed bytes, the distance of a jump. -/
  | farJump
  | tableSwitch
  | lookupSwitch
  /-- Two bytes, the index of a field. -/
  | field
  /-- Two bytes, the index of a method; of an interface call, two more. -/
  | call (kind : CallKind)
  /-- Two bytes, the index of a dynamic call target, and two more. -/
  | dynamicCall
  /-- Two bytes, the index of a class. -/
  | classRef
  /-- One byte, the element type code of an array. -/
  | primitiveArray
  /-- Two bytes, the index of a class, and one for the dimensions. -/
  | multiArray
  /-- The opcode of another instruction with a slot of two bytes. -/
  | widened
  deriving DecidableEq, Repr

namespace Format

/-- The bits of the single precision literals that have opcodes of their own:
0, 1 and 2. -/
def floatLiteral (n : Nat) : UInt32 :=
  if n = 0 then 0 else if n = 1 then 0x3f800000 else 0x40000000

/-- The bits of the double precision literals that have opcodes of their own:
0 and 1. -/
def doubleLiteral (n : Nat) : UInt64 :=
  if n = 0 then 0 else 0x3ff0000000000000

/-- The format of a defined opcode. The opcodes that name their local variable
come four to a type, slot 0 to slot 3, so the slot is the distance from the
first of them modulo four. -/
def of? (op : Opcode) : Option Format :=
  let b := op.toNat
  if b ≤ 0x00 then some .plain
  else if b ≤ 0x01 then some (.implied .null)
  else if b ≤ 0x08 then some (.implied (.int (Int32.ofInt ((b : Int) - 3))))
  else if b ≤ 0x0a then some (.implied (.long (Int64.ofInt ((b : Int) - 9))))
  else if b ≤ 0x0d then some (.implied (.float (floatLiteral (b - 0x0b))))
  else if b ≤ 0x0f then some (.implied (.double (doubleLiteral (b - 0x0e))))
  else if b ≤ 0x10 then some .byteLiteral
  else if b ≤ 0x11 then some .shortLiteral
  else if b ≤ 0x12 then some .nearLiteral
  else if b ≤ 0x14 then some .farLiteral
  else if b ≤ 0x19 then some .slot
  else if b ≤ 0x2d then some (.impliedSlot (UInt16.ofNat ((b - 0x1a) % 4)))
  else if b ≤ 0x35 then some .plain
  else if b ≤ 0x3a then some .slot
  else if b ≤ 0x4e then some (.impliedSlot (UInt16.ofNat ((b - 0x3b) % 4)))
  else if b ≤ 0x83 then some .plain
  else if b ≤ 0x84 then some .increment
  else if b ≤ 0x98 then some .plain
  else if b ≤ 0xa8 then some .jump
  else if b ≤ 0xa9 then some .slot
  else if b ≤ 0xaa then some .tableSwitch
  else if b ≤ 0xab then some .lookupSwitch
  else if b ≤ 0xb1 then some .plain
  else if b ≤ 0xb5 then some .field
  else if b ≤ 0xb6 then some (.call .virtual)
  else if b ≤ 0xb7 then some (.call .special)
  else if b ≤ 0xb8 then some (.call .static)
  else if b ≤ 0xb9 then some (.call .interface)
  else if b ≤ 0xba then some .dynamicCall
  else if b ≤ 0xbb then some .classRef
  else if b ≤ 0xbc then some .primitiveArray
  else if b ≤ 0xbd then some .classRef
  else if b ≤ 0xbf then some .plain
  else if b ≤ 0xc1 then some .classRef
  else if b ≤ 0xc3 then some .plain
  else if b ≤ 0xc4 then some .widened
  else if b ≤ 0xc5 then some .multiArray
  else if b ≤ 0xc7 then some .jump
  else if b ≤ 0xc9 then some .farJump
  else none

/-- The length, opcode included, of an instruction whose format fixes it. -/
def size? : Format → Option Nat
  | plain | implied _ | impliedSlot _ => some 1
  | byteLiteral | nearLiteral | slot | primitiveArray => some 2
  | shortLiteral | farLiteral | increment | jump | field | classRef => some 3
  | call .interface => some 5
  | call _ => some 3
  | multiArray => some 4
  | dynamicCall | farJump => some 5
  | tableSwitch | lookupSwitch | widened => none

end Format

end ClassLens.Code
