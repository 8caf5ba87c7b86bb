/-
Opcodes of the virtual machine: their mnemonics and the closed set of
categories they fall into.

One byte selects an instruction. 202 of the 256 bytes are defined; the rest are
reserved and have neither a category nor a mnemonic of their own. Every later
table (operand formats, arities, node kinds, patterns) is a function of the
category or of the byte itself, so this file is the only place where the
numbering is written down.

The category is found by comparing the byte with the upper end of each run of
neighbouring opcodes, in ascending order. The runs are contiguous from zero, so
the first end that is not exceeded names the run.
-/

set_option autoImplicit false

namespace ClassLens

/-- An opcode byte, defined or not. -/
abbrev Opcode := UInt8

namespace Opcode

/-! ## Opcodes that rules single out by name -/

/-- The opcode `iinc`. -/
@[match_pattern] abbrev iinc : Opcode := 0x84

/-- The opcode `tableswitch`. -/
@[match_pattern] abbrev tableswitch : Opcode := 0xaa

/-- The opcode `lookupswitch`. -/
@[match_pattern] abbrev lookupswitch : Opcode := 0xab

/-- The opcode `athrow`. -/
@[match_pattern] abbrev athrow : Opcode := 0xbf

/-- The opcode `wide`, which widens the slot of the instruction after it. -/
@[match_pattern] abbrev wide : Opcode := 0xc4

/-- The opcode `ifnull`. -/
@[match_pattern] abbrev ifnull : Opcode := 0xc6

/-- The opcode `ifnonnull`. -/
@[match_pattern] abbrev ifnonnull : Opcode := 0xc7

/-- Whether the opcode lies in the closed range from `low` to `high`. -/
def between (low high op : Opcode) : Bool :=
  low.toNat ≤ op.toNat && op.toNat ≤ high.toNat

/-! ## Mnemonics -/

/-- The mnemonics of the defined opcodes, in ascending order of the byte. -/
def mnemonics : Array String := #[
  "nop", "aconst_null", "iconst_m1", "iconst_0", "iconst_1", "iconst_2", "iconst_3",
  "iconst_4", "iconst_5", "lconst_0", "lconst_1", "fconst_0", "fconst_1", "fconst_2",
  "dconst_0", "dconst_1", "bipush", "sipush", "ldc", "ldc_w", "ldc2_w", "iload", "lload",
  "fload", "dload", "aload", "iload_0", "iload_1", "iload_2", "iload_3", "lload_0",
  "lload_1", "lload_2", "lload_3", "fload_0", "fload_1", "fload_2", "fload_3", "dload_0",
  "dload_1", "dload_2", "dload_3", "aload_0", "aload_1", "aload_2", "aload_3", "iaload",
  "laload", "faload", "daload", "aaload", "baload", "caload", "saload", "istore", "lstore",
  "fstore", "dstore", "astore", "istore_0", "istore_1", "istore_2", "istore_3", "lstore_0",
  "lstore_1", "lstore_2", "lstore_3", "fstore_0", "fstore_1", "fstore_2", "fstore_3",
  "dstore_0", "dstore_1", "dstore_2", "dstore_3", "astore_0", "astore_1", "astore_2",
  "astore_3", "iastore", "lastore", "fastore", "dastore", "aastore", "bastore", "castore",
  "sastore", "pop", "pop2", "dup", "dup_x1", "dup_x2", "dup2", "dup2_x1", "dup2_x2", "swap",
  "iadd", "ladd", "fadd", "dadd", "isub", "lsub", "fsub", "dsub", "imul", "lmul", "fmul",
  "dmul", "idiv", "ldiv", "fdiv", "ddiv", "irem", "lrem", "frem", "drem", "ineg", "lneg",
  "fneg", "dneg", "ishl", "lshl", "ishr", "lshr", "iushr", "lushr", "iand", "land", "ior",
  "lor", "ixor", "lxor", "iinc", "i2l", "i2f", "i2d", "l2i", "l2f", "l2d", "f2i", "f2l",
  "f2d", "d2i", "d2l", "d2f", "i2b", "i2c", "i2s", "lcmp", "fcmpl", "fcmpg", "dcmpl",
  "dcmpg", "ifeq", "ifne", "iflt", "ifge", "ifgt", "ifle", "if_icmpeq", "if_icmpne",
  "if_icmplt", "if_icmpge", "if_icmpgt", "if_icmple", "if_acmpeq", "if_acmpne", "goto",
  "jsr", "ret", "tableswitch", "lookupswitch", "ireturn", "lreturn", "freturn", "dreturn",
  "areturn", "return", "getstatic", "putstatic", "getfield", "putfield", "invokevirtual",
  "invokespecial", "invokestatic", "invokeinterface", "invokedynamic", "new", "newarray",
  "anewarray", "arraylength", "athrow", "checkcast", "instanceof", "monitorenter",
  "monitorexit", "wide", "multianewarray", "ifnull", "ifnonnull", "goto_w", "jsr_w"]

/-- The name an opcode has in diagnostics and outlines. A reserved byte has the
same stand-in whatever its value. -/
def mnemonic (op : Opcode) : String :=
  mnemonics[op.toNat]?.getD "<undefined>"

end Opcode

/-! ## Categories -/

/-- What an instruction does, as far as expression trees care. The set is
closed: each defined opcode is in exactly one category. -/
inductive Category where
  | nop
  | constant
  | localLoad
  | localStore
  | arrayLoad
  | arrayStore
  | pop
  | duplicate
  | arithmetic
  | negate
  | increment
  | conversion
  | comparison
  | branch
  | compareBranch
  | jump
  | subroutine
  | subroutineReturn
  | switch
  | valueReturn
  | voidReturn
  | staticRead
  | staticWrite
  | instanceRead
  | instanceWrite
  | invoke
  | new
  | newArray
  | multiNewArray
  | arrayLength
  | throw
  | typeCheck
  | monitor
  | wide
  deriving DecidableEq, Repr

/-- The category of a defined opcode, and nothing for a reserved byte. The
shifts and bitwise operators sit above the negations, so `arithmetic` is two
runs; the null tests and the far jumps sit above `wide`, so `branch`, `jump`
and `subroutine` are two runs each. -/
def Category.of? (op : Opcode) : Option Category :=
  let b := op.toNat
  if b ≤ 0x00 then some .nop
  else if b ≤ 0x14 then some .constant
  else if b ≤ 0x2d then some .localLoad
  else if b ≤ 0x35 then some .arrayLoad
  else if b ≤ 0x4e then some .localStore
  else if b ≤ 0x56 then some .arrayStore
  else if b ≤ 0x58 then some .pop
  else if b ≤ 0x5f then some .duplicate
  else if b ≤ 0x73 then some .arithmetic
  else if b ≤ 0x77 then some .negate
  else if b ≤ 0x83 then some .arithmetic
  else if b ≤ 0x84 then some .increment
  else if b ≤ 0x93 then some .conversion
  else if b ≤ 0x98 then some .comparison
  else if b ≤ 0x9e then some .branch
  else if b ≤ 0xa6 then some .compareBranch
  else if b ≤ 0xa7 then some .jump
  else if b ≤ 0xa8 then some .subroutine
  else if b ≤ 0xa9 then some .subroutineReturn
  else if b ≤ 0xab then some .switch
  else if b ≤ 0xb0 then some .valueReturn
  else if b ≤ 0xb1 then some .voidReturn
  else if b ≤ 0xb2 then some .staticRead
  else if b ≤ 0xb3 then some .staticWrite
  else if b ≤ 0xb4 then some .instanceRead
  else if b ≤ 0xb5 then some .instanceWrite
  else if b ≤ 0xba then some .invoke
  else if b ≤ 0xbb then some .new
  else if b ≤ 0xbd then some .newArray
  else if b ≤ 0xbe then some .arrayLength
  else if b ≤ 0xbf then some .throw
  else if b ≤ 0xc1 then some .typeCheck
  else if b ≤ 0xc3 then some .monitor
  else if b ≤ 0xc4 then some .wide
  else if b ≤ 0xc5 then some .multiNewArray
  else if b ≤ 0xc7 then some .branch
  else if b ≤ 0xc8 then some .jump
  else if b ≤ 0xc9 then some .subroutine
  else none

end ClassLens
