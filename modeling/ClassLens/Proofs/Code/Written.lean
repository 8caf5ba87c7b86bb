/-
Instructions as they are written: the other side of decoding.

A `Written` instruction says what an instruction means and every choice its
bytes leave open: which index names a constant, whether a slot is widened, what
stands in padding. `bytes` writes it, `opcode` and `operand` say what it means at
an offset, and `Fits` says when it can stand there.

Nothing here goes by the decoder's table of formats. The families of opcodes are
numbered as the instruction set numbers them: a family of loads has a first
opcode and goes up by the type, the ones with a slot of their own by four to a
type. So that the table has the right entry for each opcode is part of what the
round trip shows.
-/
import ClassLens.Proofs.Code.BigEndian

set_option autoImplicit false

namespace ClassLens.Code

/-! ## Families of opcodes -/

/-- The literals that have opcodes of their own. -/
inductive SmallLiteral where
  | null
  /-- From -1 to 5, counted from 0. -/
  | int (n : Fin 7)
  | long (n : Fin 2)
  | float (n : Fin 3)
  | double (n : Fin 2)

namespace SmallLiteral

def opcode : SmallLiteral → Opcode
  | null => 0x01
  | int n => UInt8.ofNat (0x02 + n)
  | long n => UInt8.ofNat (0x09 + n)
  | float n => UInt8.ofNat (0x0b + n)
  | double n => UInt8.ofNat (0x0e + n)

/-- The literal pushed. Floating point numbers are given by their bits. -/
def value : SmallLiteral → Constant
  | null => .null
  | int n => .int (Int32.ofInt (n - 1))
  | long n => .long (Int64.ofInt n)
  | float 0 => .float 0x00000000
  | float 1 => .float 0x3f800000
  | float 2 => .float 0x40000000
  | double 0 => .double 0x0000000000000000
  | double 1 => .double 0x3ff0000000000000

end SmallLiteral

/-- The types of local variables, in the order of their opcodes. -/
inductive LocalType where
  | int
  | long
  | float
  | double
  | reference

def LocalType.position : LocalType → Nat
  | int => 0
  | long => 1
  | float => 2
  | double => 3
  | reference => 4

/-- What is done with a local variable that an operand names. -/
inductive SlotUse where
  | load (type : LocalType)
  | store (type : LocalType)
  /-- Return from a subroutine to the address in the variable. -/
  | ret

def SlotUse.opcode : SlotUse → Opcode
  | load type => UInt8.ofNat (0x15 + type.position)
  | store type => UInt8.ofNat (0x36 + type.position)
  | ret => 0xa9

/-- The opcode of a call. -/
def callOpcode : CallKind → Opcode
  | .virtual => 0xb6
  | .special => 0xb7
  | .static => 0xb8
  | .interface => 0xb9
  | .dynamic => 0xba

/-- The opcodes that are an instruction by themselves and name nothing: no-op,
array access, the stack, arithmetic, conversions and comparisons, returns, array
length, throw and monitors. -/
def isBare (op : Opcode) : Bool :=
  op == 0x00 || Opcode.between 0x2e 0x35 op || Opcode.between 0x4f 0x83 op ||
    Opcode.between 0x85 0x98 op || Opcode.between 0xac 0xb1 op || op == 0xbe || op == 0xbf ||
    op == 0xc2 || op == 0xc3

/-- The opcodes with a jump distance of 16 bits: the conditional branches, `goto`
and `jsr`, and the tests against null. -/
def isNearJump (op : Opcode) : Bool :=
  Opcode.between 0x99 0xa8 op || op == 0xc6 || op == 0xc7

/-- The opcodes that name a class and nothing else: `new`, `anewarray`,
`checkcast` and `instanceof`. -/
def isClassUse (op : Opcode) : Bool :=
  op == 0xbb || op == 0xbd || op == 0xc0 || op == 0xc1

/-! ## Instructions -/

/-- An instruction with the choices its bytes make. -/
inductive Written where
  | bare (op : Opcode)
  | literal (l : SmallLiteral)
  | pushByte (value : Int8)
  | pushShort (value : Int16)
  /-- A literal from the pool, by an index of one byte. -/
  | pushNear (index : UInt8) (value : Constant)
  /-- A literal from the pool, by an index of two bytes. -/
  | pushFar (op : Opcode) (index : UInt16) (value : Constant)
  | slot (use : SlotUse) (index : UInt8)
  | wideSlot (use : SlotUse) (index : UInt16)
  | shortLoad (type : LocalType) (index : Fin 4)
  | shortStore (type : LocalType) (index : Fin 4)
  | increment (index : UInt8) (delta : Int8)
  | wideIncrement (index : UInt16) (delta : Int16)
  | nearJump (op : Opcode) (distance : Int16)
  | farJump (op : Opcode) (distance : Int32)
  /-- A table that starts at `low` and has a distance for each value from there
  on. -/
  | tableSwitch (pad : List UInt8) (fallback low : Int32) (distances : List Int32)
  /-- A list of keys with a distance each. -/
  | lookupSwitch (pad : List UInt8) (fallback : Int32) (pairs : List (Int32 × Int32))
  | field (op : Opcode) (index : UInt16) (ref : MemberRef)
  /-- A call that names a method. Only the call of an interface method has bytes
  after the index. -/
  | call (kind : CallKind) (index : UInt16) (ref : MemberRef) (extra : List UInt8)
  | dynamicCall (index : UInt16) (ref : DynamicRef) (extra : List UInt8)
  | classUse (op : Opcode) (index : UInt16) (name : String)
  | primitiveArray (code : UInt8)
  | multiArray (index : UInt16) (name : String) (dimensions : UInt8)

namespace Written

/-- The opcode of the instruction; of a widened one, the opcode behind `wide`. -/
def opcode : Written → Opcode
  | bare op | pushFar op _ _ | nearJump op _ | farJump op _ | field op _ _ | classUse op _ _ => op
  | literal l => l.opcode
  | pushByte _ => 0x10
  | pushShort _ => 0x11
  | pushNear _ _ => 0x12
  | slot use _ | wideSlot use _ => use.opcode
  | shortLoad type index => UInt8.ofNat (0x1a + 4 * type.position + index)
  | shortStore type index => UInt8.ofNat (0x3b + 4 * type.position + index)
  | increment _ _ | wideIncrement _ _ => 0x84
  | tableSwitch _ _ _ _ => 0xaa
  | lookupSwitch _ _ _ => 0xab
  | call kind _ _ _ => callOpcode kind
  | dynamicCall _ _ _ => callOpcode .dynamic
  | primitiveArray _ => 0xbc
  | multiArray _ _ _ => 0xc5

/-- The last value of a table that starts at `low`. -/
def tableHigh (low : Int32) (distances : List Int32) : Int :=
  low.toInt + distances.length - 1

/-- What stands behind the opcode. -/
def operandBytes : Written → List UInt8
  | bare _ | literal _ | shortLoad _ _ | shortStore _ _ => []
  | pushByte value => [value.toUInt8]
  | pushShort value => bigEndian16 value.toUInt16
  | pushNear index _ | slot _ index => [index]
  | pushFar _ index _ | wideSlot _ index | field _ index _ | classUse _ index _ =>
    bigEndian16 index
  | increment index delta => [index, delta.toUInt8]
  | wideIncrement index delta => bigEndian16 index ++ bigEndian16 delta.toUInt16
  | nearJump _ distance => bigEndian16 distance.toUInt16
  | farJump _ distance => bigEndian32 distance.toUInt32
  | tableSwitch pad fallback low distances =>
    pad ++ (bigEndian32 fallback.toUInt32 ++ (bigEndian32 low.toUInt32 ++
      (bigEndian32 (Int32.ofInt (tableHigh low distances)).toUInt32 ++
        distances.flatMap fun distance => bigEndian32 distance.toUInt32)))
  | lookupSwitch pad fallback pairs =>
    pad ++ (bigEndian32 fallback.toUInt32 ++ (bigEndian32 (Int32.ofInt pairs.length).toUInt32 ++
      pairs.flatMap fun pair => bigEndian32 pair.1.toUInt32 ++ bigEndian32 pair.2.toUInt32))
  | call _ index _ extra | dynamicCall index _ extra => bigEndian16 index ++ extra
  | primitiveArray code => [code]
  | multiArray index _ dimensions => bigEndian16 index ++ [dimensions]

/-- Whether the instruction is written behind `wide`. -/
def isWidened : Written → Bool
  | wideSlot _ _ | wideIncrement _ _ => true
  | _ => false

/-- The bytes of the instruction. -/
def bytes (w : Written) : List UInt8 :=
  (if w.isWidened then [0xc4] else []) ++ w.opcode :: w.operandBytes

/-! ## Meaning -/

/-- Where a jump from `offset` over `distance` goes, if that is an offset at
all. -/
def jumpTarget (offset : Nat) (distance : Int) : UInt32 :=
  UInt32.ofNat ((offset : Int) + distance).toNat

/-- What the instruction says when it stands at `offset`. -/
def operand (offset : Nat) : Written → Operand
  | bare _ => .plain
  | literal l => .constant l.value
  | pushByte value => .constant (.int value.toInt32)
  | pushShort value => .constant (.int value.toInt32)
  | pushNear _ value | pushFar _ _ value => .constant value
  | slot _ index => .slot index.toUInt16
  | wideSlot _ index => .slot index
  | shortLoad _ index | shortStore _ index => .slot (UInt16.ofNat index)
  | increment index delta => .increment index.toUInt16 delta.toInt16
  | wideIncrement index delta => .increment index delta
  | nearJump _ distance => .jump (jumpTarget offset distance.toInt)
  | farJump _ distance => .jump (jumpTarget offset distance.toInt)
  | tableSwitch _ fallback _ distances =>
    .switch (jumpTarget offset fallback.toInt)
      (distances.map fun distance => jumpTarget offset distance.toInt)
  | lookupSwitch _ fallback pairs =>
    .switch (jumpTarget offset fallback.toInt)
      (pairs.map fun pair => jumpTarget offset pair.2.toInt)
  | field _ _ ref => .field ⟨ref.owner, ref.name, ref.descriptor⟩
  | call kind _ ref _ =>
    .call ⟨ref.owner, ref.name, ref.descriptor, kind, UInt32.ofNat offset⟩
  | dynamicCall _ ref _ => .call ⟨"", ref.name, ref.descriptor, .dynamic, UInt32.ofNat offset⟩
  | classUse _ _ name => .classRef name
  | primitiveArray code => .primitiveArray code
  | multiArray _ name dimensions => .multiArray name dimensions

/-- The jump ends at an offset that 32 bits can hold. -/
def Reaches (offset : Nat) (distance : Int) : Prop :=
  0 ≤ (offset : Int) + distance ∧ (offset : Int) + distance < UInt32.size

/-- The padding goes from the opcode at `offset` to the next multiple of four. -/
def Aligns (offset : Nat) (pad : List UInt8) : Prop :=
  pad.length < 4 ∧ (offset + 1 + pad.length) % 4 = 0

/-- The instruction can stand at `offset`: its opcode is of the right family, the
pool resolves its index for the use it is put to, its jumps end at offsets, and
the operands of a switch are aligned. -/
def Fits (pool : Pool) (offset : Nat) : Written → Prop
  | bare op => isBare op
  | pushNear index value => pool.literal? index.toUInt16 = some value
  | pushFar op index value => (op = 0x13 ∨ op = 0x14) ∧ pool.literal? index = some value
  | nearJump op distance => isNearJump op ∧ Reaches offset distance.toInt
  | farJump op distance => (op = 0xc8 ∨ op = 0xc9) ∧ Reaches offset distance.toInt
  | tableSwitch pad fallback low distances =>
    Aligns offset pad ∧ Reaches offset fallback.toInt ∧
      (∀ distance ∈ distances, Reaches offset distance.toInt) ∧
      Int32.minValue.toInt ≤ tableHigh low distances ∧
      tableHigh low distances ≤ Int32.maxValue.toInt
  | lookupSwitch pad fallback pairs =>
    Aligns offset pad ∧ Reaches offset fallback.toInt ∧
      ∀ pair ∈ pairs, Reaches offset pair.2.toInt
  | field op index ref => Opcode.between 0xb2 0xb5 op ∧ pool.member? index = some ref
  | call kind index ref extra =>
    kind ≠ .dynamic ∧ extra.length = (if kind = .interface then 2 else 0) ∧
      pool.member? index = some ref
  | dynamicCall index ref extra => extra.length = 2 ∧ pool.dynamic? index = some ref
  | classUse op index name => isClassUse op ∧ pool.className? index = some name
  | multiArray index name _ => pool.className? index = some name
  | literal _ | pushByte _ | pushShort _ | slot _ _ | wideSlot _ _ | shortLoad _ _
  | shortStore _ _ | increment _ _ | wideIncrement _ _ | primitiveArray _ => True

end Written

/-! ## Programs -/

/-- The bytes of several instructions, one after the other. -/
def encode (ws : List Written) : List UInt8 :=
  ws.flatMap Written.bytes

/-- Each of the instructions can stand where it comes to stand, if the first one
stands at `offset`. -/
def FitFrom (pool : Pool) : Nat → List Written → Prop
  | _, [] => True
  | offset, w :: ws => w.Fits pool offset ∧ FitFrom pool (offset + w.bytes.length) ws

/-- What the instructions say, numbered from `index`, if the first one stands at
`offset`. -/
def listing : Nat → Nat → List Written → List Instruction
  | _, _, [] => []
  | offset, index, w :: ws =>
    ⟨index, UInt32.ofNat offset, w.opcode, w.operand offset⟩ ::
      listing (offset + w.bytes.length) (index + 1) ws

end ClassLens.Code
