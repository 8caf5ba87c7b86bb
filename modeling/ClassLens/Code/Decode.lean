/-
Decoding: from the bytes of a method's code to its instructions.

The code is a list of bytes, and an instruction is read from the list that
starts at its opcode, together with the offset of that opcode. Everything an
instruction says is relative to these two: operands lie at fixed distances from
the opcode, a switch is aligned by the offset, and a target is the offset plus a
distance. So the same reading serves at every place of the code.

An instruction is accepted in two steps. Its length is found first, which reads
no more than the opcode and the counts of a switch; then the bytes must be
there; then the operands are read. A switch that claims more entries than the
code has bytes is refused before any entry is looked at.
-/
import ClassLens.Code.DecodeError
import ClassLens.Code.Format
import ClassLens.Code.Pool

set_option autoImplicit false

namespace ClassLens.Code

/-! ## Numbers, high byte first -/

/-- The byte that stands at `place`, where `bytes` is what lies from there on. -/
def byteAt (place : Nat) : List UInt8 → Except DecodeError UInt8
  | b :: _ => .ok b
  | [] => .error (.at place .endOfCode)

/-- The number in two bytes. -/
def word16 (a b : UInt8) : UInt16 :=
  UInt16.ofNat (a.toNat * 256 + b.toNat)

/-- The number in four bytes. -/
def word32 (a b c d : UInt8) : UInt32 :=
  UInt32.ofNat (((a.toNat * 256 + b.toNat) * 256 + c.toNat) * 256 + d.toNat)

/-- The two-byte number at `place`. -/
def word16At (place : Nat) : List UInt8 → Except DecodeError UInt16
  | a :: b :: _ => .ok (word16 a b)
  | _ => .error (.at place .endOfCode)

/-- The four-byte number at `place`. -/
def word32At (place : Nat) : List UInt8 → Except DecodeError UInt32
  | a :: b :: c :: d :: _ => .ok (word32 a b c d)
  | _ => .error (.at place .endOfCode)

/-- The signed two-byte number at `place`. -/
def int16At (place : Nat) (bytes : List UInt8) : Except DecodeError Int16 := do
  let w ← word16At place bytes
  return w.toInt16

/-- The signed four-byte number at `place`. -/
def int32At (place : Nat) (bytes : List UInt8) : Except DecodeError Int32 := do
  let w ← word32At place bytes
  return w.toInt32

/-! ## Lengths -/

/-- The bytes between the opcode of a switch and its operands, which start at a
multiple of four. -/
def padding (offset : Nat) : Nat :=
  (4 - (offset + 1) % 4) % 4

/-- The number of entries of a table from `low` to `high`. It must be a
non-negative number of 32 bits; the empty table, with `high` just below `low`,
is allowed. -/
def tableCount (offset : Nat) (low high : Int32) : Except DecodeError Nat :=
  let count := high.toInt - low.toInt + 1
  if 0 ≤ count ∧ count < 0x80000000 then .ok count.toNat
  else .error (.at offset (.tableRange low high))

/-- The number of pairs of a lookup. -/
def pairCount (offset : Nat) (count : Int32) : Except DecodeError Nat :=
  if 0 ≤ count.toInt then .ok count.toInt.toNat
  else .error (.at offset (.pairCount count))

/-- The entries of the table switch whose opcode starts `bytes`. -/
def tableEntries (offset : Nat) (bytes : List UInt8) : Except DecodeError Nat := do
  let start := 1 + padding offset
  let low ← int32At (offset + start + 4) (bytes.drop (start + 4))
  let high ← int32At (offset + start + 8) (bytes.drop (start + 8))
  tableCount offset low high

/-- The pairs of the lookup switch whose opcode starts `bytes`. -/
def lookupEntries (offset : Nat) (bytes : List UInt8) : Except DecodeError Nat := do
  let start := 1 + padding offset
  let count ← int32At (offset + start + 4) (bytes.drop (start + 4))
  pairCount offset count

/-- The length of the instruction that starts `bytes` and stands at `offset`.
The bytes it takes need not be there. -/
def instructionLength (offset : Nat) (bytes : List UInt8) : Except DecodeError Nat := do
  let op ← byteAt offset bytes
  match Format.of? op with
  | none => .error (.at offset (.undefinedOpcode op))
  | some format =>
    match format with
    | .widened =>
      let widened ← byteAt (offset + 1) (bytes.drop 1)
      return if widened = Opcode.iinc then 6 else 4
    | .tableSwitch =>
      let entries ← tableEntries offset bytes
      return 1 + padding offset + 12 + 4 * entries
    | .lookupSwitch =>
      let pairs ← lookupEntries offset bytes
      return 1 + padding offset + 8 + 8 * pairs
    | fixed => return fixed.size?.getD 1

/-- The length of the instruction at an offset of the code. -/
def lengthAt (code : List UInt8) (offset : Nat) : Except DecodeError Nat :=
  instructionLength offset (code.drop offset)

/-! ## Operands -/

/-- Where a jump from `offset` over `distance` goes. -/
def branchTarget (offset : Nat) (distance : Int) : Except DecodeError UInt32 :=
  let target := (offset : Int) + distance
  if 0 ≤ target ∧ target < UInt32.size then .ok (UInt32.ofNat target.toNat)
  else .error (.at offset (.targetRange target))

/-- What a lookup finds, or a fault at the instruction. -/
def resolve {α : Type} (offset : Nat) (cause : DecodeCause) : Option α → Except DecodeError α
  | some found => .ok found
  | none => .error (.at offset cause)

/-- The targets of `count` entries of a switch at `offset`, of which each is
`skip` bytes followed by a distance. `place` is where `bytes` starts, and the
targets read so far come newest first. -/
def switchTargets (offset skip : Nat) :
    Nat → Nat → List UInt8 → List UInt32 → Except DecodeError (List UInt32)
  | 0, _, _, read => .ok read.reverse
  | count + 1, place, bytes, read => do
    let distance ← int32At (place + skip) (bytes.drop skip)
    let target ← branchTarget offset distance.toInt
    switchTargets offset skip count (place + skip + 4) (bytes.drop (skip + 4)) (target :: read)

/-- The operand of a table switch: the fallback, then one target an entry. -/
def tableOperand (offset : Nat) (bytes : List UInt8) : Except DecodeError Operand := do
  let start := 1 + padding offset
  let distance ← int32At (offset + start) (bytes.drop start)
  let fallback ← branchTarget offset distance.toInt
  let entries ← tableEntries offset bytes
  let targets ←
    switchTargets offset 0 entries (offset + start + 12) (bytes.drop (start + 12)) []
  return .switch fallback targets

/-- The operand of a lookup switch: the fallback, then one target a pair. The
keys are not kept. -/
def lookupOperand (offset : Nat) (bytes : List UInt8) : Except DecodeError Operand := do
  let start := 1 + padding offset
  let distance ← int32At (offset + start) (bytes.drop start)
  let fallback ← branchTarget offset distance.toInt
  let pairs ← lookupEntries offset bytes
  let targets ←
    switchTargets offset 4 pairs (offset + start + 8) (bytes.drop (start + 8)) []
  return .switch fallback targets

/-- The opcode and operand of a widened instruction. Only an instruction with a
slot can be widened. -/
def widenedOperand (offset : Nat) (bytes : List UInt8) :
    Except DecodeError (Opcode × Operand) := do
  let op ← byteAt (offset + 1) (bytes.drop 1)
  let index ← word16At (offset + 2) (bytes.drop 2)
  match Format.of? op with
  | some .increment =>
    let delta ← int16At (offset + 4) (bytes.drop 4)
    return (op, .increment index delta)
  | some .slot => return (op, .slot index)
  | _ => .error (.at offset (.notWidened op))

/-- The operand of an instruction whose format does not change its opcode. -/
def formatOperand (pool : Pool) (format : Format) (offset : Nat) (bytes : List UInt8) :
    Except DecodeError Operand :=
  match format with
  | .plain | .widened => .ok .plain
  | .implied value => .ok (.constant value)
  | .byteLiteral => do
    let b ← byteAt (offset + 1) (bytes.drop 1)
    return .constant (.int b.toInt8.toInt32)
  | .shortLiteral => do
    let n ← int16At (offset + 1) (bytes.drop 1)
    return .constant (.int n.toInt32)
  | .nearLiteral => do
    let b ← byteAt (offset + 1) (bytes.drop 1)
    let value ← resolve offset (.literalIndex b.toUInt16) (pool.literal? b.toUInt16)
    return .constant value
  | .farLiteral => do
    let index ← word16At (offset + 1) (bytes.drop 1)
    let value ← resolve offset (.literalIndex index) (pool.literal? index)
    return .constant value
  | .slot => do
    let b ← byteAt (offset + 1) (bytes.drop 1)
    return .slot b.toUInt16
  | .impliedSlot index => .ok (.slot index)
  | .increment => do
    let b ← byteAt (offset + 1) (bytes.drop 1)
    let d ← byteAt (offset + 2) (bytes.drop 2)
    return .increment b.toUInt16 d.toInt8.toInt16
  | .jump => do
    let distance ← int16At (offset + 1) (bytes.drop 1)
    let target ← branchTarget offset distance.toInt
    return .jump target
  | .farJump => do
    let distance ← int32At (offset + 1) (bytes.drop 1)
    let target ← branchTarget offset distance.toInt
    return .jump target
  | .tableSwitch => tableOperand offset bytes
  | .lookupSwitch => lookupOperand offset bytes
  | .field => do
    let index ← word16At (offset + 1) (bytes.drop 1)
    let ref ← resolve offset (.memberIndex index) (pool.member? index)
    return .field ⟨ref.owner, ref.name, ref.descriptor⟩
  | .call kind => do
    let index ← word16At (offset + 1) (bytes.drop 1)
    let ref ← resolve offset (.memberIndex index) (pool.member? index)
    return .call ⟨ref.owner, ref.name, ref.descriptor, kind, UInt32.ofNat offset⟩
  | .dynamicCall => do
    let index ← word16At (offset + 1) (bytes.drop 1)
    let ref ← resolve offset (.dynamicIndex index) (pool.dynamic? index)
    return .call ⟨"", ref.name, ref.descriptor, .dynamic, UInt32.ofNat offset⟩
  | .classRef => do
    let index ← word16At (offset + 1) (bytes.drop 1)
    let name ← resolve offset (.classIndex index) (pool.className? index)
    return .classRef name
  | .primitiveArray => do
    let code ← byteAt (offset + 1) (bytes.drop 1)
    return .primitiveArray code
  | .multiArray => do
    let index ← word16At (offset + 1) (bytes.drop 1)
    let name ← resolve offset (.classIndex index) (pool.className? index)
    let dimensions ← byteAt (offset + 3) (bytes.drop 3)
    return .multiArray name dimensions

/-- The opcode and operand of the instruction that starts `bytes`. A widened
instruction goes under the opcode that it widens. -/
def operandAt (pool : Pool) (offset : Nat) (bytes : List UInt8) :
    Except DecodeError (Opcode × Operand) := do
  let op ← byteAt offset bytes
  match Format.of? op with
  | some .widened => widenedOperand offset bytes
  | some format =>
    let operand ← formatOperand pool format offset bytes
    return (op, operand)
  | none => return (op, .plain)

/-! ## The whole code -/

/-- Decodes what is left of the code. `bytes` starts at `offset`, and the
instructions before it come newest first. An instruction of length `n` is there
if the code goes on for `n` bytes, that is if something is left after `n - 1`;
what follows that byte is the rest of the code. -/
def decodeFrom (pool : Pool) (offset index : Nat) (bytes : List UInt8)
    (read : List Instruction) : Except DecodeError (List Instruction) :=
  match bytes with
  | [] => .ok read.reverse
  | op :: tail =>
    match instructionLength offset (op :: tail) with
    | .error e => .error e
    | .ok length =>
      match _h : (op :: tail).drop (length - 1) with
      | [] => .error (.at offset (.pastEnd op))
      | _ :: rest =>
        match operandAt pool offset (op :: tail) with
        | .error e => .error e
        | .ok (opcode, operand) =>
          decodeFrom pool (offset + length) (index + 1) rest
            (⟨index, UInt32.ofNat offset, opcode, operand⟩ :: read)
termination_by bytes.length
decreasing_by
  have hle := congrArg List.length _h
  simp only [List.length_drop, List.length_cons] at hle ⊢
  omega

/-- The instructions of a method's code. -/
def decode (pool : Pool) (code : List UInt8) : Except DecodeError (List Instruction) :=
  decodeFrom pool 0 0 code []

end ClassLens.Code
