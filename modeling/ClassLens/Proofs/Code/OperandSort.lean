/-
Sorts of operand: what an opcode calls for, and that decoding keeps to it.

An instruction is any pair of an opcode and an operand, and every analysis takes
any such pair. The decoder makes fewer: it picks the operand by the format of the
opcode, and the analyses pick what they do by its category. Formats and
categories are two tables over the same bytes, written apart. This file holds the
one against the other. Each names a sort of operand, a format the one it reads
and a category the one it is meant for, and the two are the same for all 256
bytes (`map_operandSort_of?`).

`WellSorted` is what comes of that for one instruction. It is all that the
analyses need to know of the decoder, so nothing behind it opens the reading of
operands again.
-/
import ClassLens.Proofs.Code.Boundaries
import ClassLens.Proofs.Code.Written

set_option autoImplicit false

namespace ClassLens

/-! ## Sorts -/

/-- The sorts of operand, one for each constructor of `Operand`. -/
inductive OperandSort where
  | field
  | call
  | constant
  | slot
  | increment
  | jump
  | switch
  | classRef
  | primitiveArray
  | multiArray
  | plain
  deriving DecidableEq, Repr

/-- The sort of an operand. -/
def Operand.sort : Operand → OperandSort
  | .field _ => .field
  | .call _ => .call
  | .constant _ => .constant
  | .slot _ => .slot
  | .increment _ _ => .increment
  | .jump _ => .jump
  | .switch _ _ => .switch
  | .classRef _ => .classRef
  | .primitiveArray _ => .primitiveArray
  | .multiArray _ _ => .multiArray
  | .plain => .plain

/-- The sort of operand that an opcode of the category is meant to have. The
opcode itself matters to the category of new arrays alone: `newarray` names a
primitive type, and `anewarray` a class. -/
def Category.operandSort (op : Opcode) : Category → OperandSort
  | .staticRead | .staticWrite | .instanceRead | .instanceWrite => .field
  | .invoke => .call
  | .constant => .constant
  | .localLoad | .localStore | .subroutineReturn => .slot
  | .increment => .increment
  | .branch | .compareBranch | .jump | .subroutine => .jump
  | .switch => .switch
  | .new | .typeCheck => .classRef
  | .newArray => if op = 0xbc then .primitiveArray else .classRef
  | .multiNewArray => .multiArray
  | .nop | .arrayLoad | .arrayStore | .pop | .duplicate | .arithmetic | .negate | .conversion
  | .comparison | .valueReturn | .voidReturn | .arrayLength | .throw | .monitor | .wide => .plain

namespace Code

/-- The sort of operand that is read by a format. A widened instruction is read
by the format of the opcode that it widens. -/
def Format.operandSort : Format → OperandSort
  | .plain | .widened => .plain
  | .implied _ | .byteLiteral | .shortLiteral | .nearLiteral | .farLiteral => .constant
  | .slot | .impliedSlot _ => .slot
  | .increment => .increment
  | .jump | .farJump => .jump
  | .tableSwitch | .lookupSwitch => .switch
  | .field => .field
  | .call _ | .dynamicCall => .call
  | .classRef => .classRef
  | .primitiveArray => .primitiveArray
  | .multiArray => .multiArray

/-- The kind of the calls that are read by a format. -/
def Format.callKind? : Format → Option CallKind
  | .call kind => some kind
  | .dynamicCall => some .dynamic
  | _ => none

/-! ## The two tables -/

/-- The table of formats and the table of categories call for the same sort of
operand, opcode by opcode. -/
theorem map_operandSort_of? (op : Opcode) :
    (Format.of? op).map (·.operandSort) = (Category.of? op).map (·.operandSort op) := by
  revert op
  apply forall_opcode
  decide +kernel

/-- A format of calls belongs to the one opcode of their kind. -/
theorem callOpcode_of_format {op : Opcode} {format : Format} {kind : CallKind}
    (hformat : Format.of? op = some format) (hkind : format.callKind? = some kind) :
    callOpcode kind = op := by
  have htable : ∀ op : Opcode,
      ((Format.of? op).bind Format.callKind?).all (callOpcode · == op) = true := by
    apply forall_opcode
    decide +kernel
  have hop := htable op
  rw [hformat, Option.bind_some, hkind] at hop
  exact eq_of_beq hop

/-! ## What is read -/

variable {pool : Pool} {offset : Nat}

/-- What is read by a format is of the sort of the format. -/
theorem sort_of_formatOperand {format : Format} {bytes : List UInt8} {operand : Operand}
    (h : formatOperand pool format offset bytes = .ok operand) :
    operand.sort = format.operandSort := by
  cases format with
  | plain | widened | implied value | impliedSlot index =>
    rw [← Except.ok.inj h]
    rfl
  | byteLiteral | shortLiteral | slot | primitiveArray =>
    obtain ⟨_, -, h⟩ := bind_eq_ok_iff.mp h
    rw [← Except.ok.inj h]
    rfl
  | nearLiteral | farLiteral | increment | jump | farJump | field | call kind | dynamicCall
  | classRef =>
    obtain ⟨_, -, h⟩ := bind_eq_ok_iff.mp h
    obtain ⟨_, -, h⟩ := bind_eq_ok_iff.mp h
    rw [← Except.ok.inj h]
    rfl
  | multiArray =>
    obtain ⟨_, -, h⟩ := bind_eq_ok_iff.mp h
    obtain ⟨_, -, h⟩ := bind_eq_ok_iff.mp h
    obtain ⟨_, -, h⟩ := bind_eq_ok_iff.mp h
    rw [← Except.ok.inj h]
    rfl
  | tableSwitch | lookupSwitch =>
    obtain ⟨_, -, h⟩ := bind_eq_ok_iff.mp h
    obtain ⟨_, -, h⟩ := bind_eq_ok_iff.mp h
    obtain ⟨_, -, h⟩ := bind_eq_ok_iff.mp h
    obtain ⟨_, -, h⟩ := bind_eq_ok_iff.mp h
    rw [← Except.ok.inj h]
    rfl

/-- A call that is read has the kind of its opcode, and it stands where it is
read. -/
theorem call_of_formatOperand {op : Opcode} {format : Format} {bytes : List UInt8}
    {site : CallSite} (hformat : Format.of? op = some format)
    (h : formatOperand pool format offset bytes = .ok (.call site)) :
    callOpcode site.kind = op ∧ site.offset = UInt32.ofNat offset := by
  have hsort := sort_of_formatOperand h
  cases format with
  | call kind | dynamicCall =>
    obtain ⟨_, -, h⟩ := bind_eq_ok_iff.mp h
    obtain ⟨_, -, h⟩ := bind_eq_ok_iff.mp h
    obtain rfl := Operand.call.inj (Except.ok.inj h)
    exact ⟨callOpcode_of_format hformat rfl, rfl⟩
  | _ => exact absurd hsort (by simp [Operand.sort, Format.operandSort])

/-- Behind `wide` there is a slot or an increment, as the opcode there calls
for. -/
theorem sort_of_widenedOperand {bytes : List UInt8} {opcode : Opcode} {operand : Operand}
    (h : widenedOperand offset bytes = .ok (opcode, operand)) :
    Format.of? opcode = some .slot ∧ operand.sort = .slot ∨
      Format.of? opcode = some .increment ∧ operand.sort = .increment := by
  rw [widenedOperand] at h
  obtain ⟨second, -, h⟩ := bind_eq_ok_iff.mp h
  obtain ⟨index, -, h⟩ := bind_eq_ok_iff.mp h
  split at h
  · rename_i hformat
    obtain ⟨delta, -, h⟩ := bind_eq_ok_iff.mp h
    obtain ⟨rfl, rfl⟩ := Prod.mk.inj (Except.ok.inj h)
    exact .inr ⟨hformat, rfl⟩
  · rename_i hformat
    obtain ⟨rfl, rfl⟩ := Prod.mk.inj (Except.ok.inj h)
    exact .inl ⟨hformat, rfl⟩
  · exact absurd h (by simp)

end Code

/-! ## Instructions -/

/-- The opcode is defined and not `wide`, the operand is of the sort that the
opcode calls for, and a call is of the kind that the opcode names and knows its
own offset. -/
structure Instruction.WellSorted (i : Instruction) (c : Category) : Prop where
  category : Category.of? i.opcode = some c
  narrow : c ≠ .wide
  operand : i.operand.sort = c.operandSort i.opcode
  call : ∀ site, i.operand = .call site →
    i.opcode = Code.callOpcode site.kind ∧ site.offset = i.offset

namespace Code

variable {pool : Pool} {offset : Nat}

/-- An instruction read by the format of its opcode is well sorted. -/
theorem wellSorted_of_format {i : Instruction} {format : Format}
    (hformat : Format.of? i.opcode = some format) (hne : i.opcode ≠ Opcode.wide)
    (hsort : i.operand.sort = format.operandSort)
    (hcall : ∀ site, i.operand = .call site →
      i.opcode = callOpcode site.kind ∧ site.offset = i.offset) :
    ∃ c, i.WellSorted c := by
  have htables := map_operandSort_of? i.opcode
  rw [hformat, Option.map_some, eq_comm, Option.map_eq_some_iff] at htables
  obtain ⟨c, hcategory, hagree⟩ := htables
  refine ⟨c, hcategory, ?_, by rw [hsort, hagree], hcall⟩
  rintro rfl
  have hwide : ∀ op, Category.of? op = some .wide → op = Opcode.wide := by
    apply forall_opcode
    decide +kernel
  exact hne (hwide _ hcategory)

theorem wellSorted_of_operandAt {i : Instruction} {op : Opcode} {format : Format}
    {tail : List UInt8} (hformat : Format.of? op = some format)
    (hoffset : i.offset = UInt32.ofNat offset)
    (h : operandAt pool offset (op :: tail) = .ok (i.opcode, i.operand)) :
    ∃ c, i.WellSorted c := by
  obtain ⟨hsame, -, hne, -⟩ := opcode_of_operandAt hformat h
  by_cases hwide : op = Opcode.wide
  · subst hwide
    rw [operandAt_wide] at h
    -- Only a call has a kind and an offset to look at, and none is widened.
    rcases sort_of_widenedOperand h with ⟨hslot, hsort⟩ | ⟨hincrement, hsort⟩
    · refine wellSorted_of_format hslot hne hsort fun site hsite => ?_
      rw [hsite] at hsort
      exact absurd hsort (by simp [Operand.sort])
    · refine wellSorted_of_format hincrement hne hsort fun site hsite => ?_
      rw [hsite] at hsort
      exact absurd hsort (by simp [Operand.sort])
  · have hop : i.opcode = op := hsame hwide
    rw [operandAt_format tail hformat hwide] at h
    obtain ⟨operand, hoperand, h⟩ := bind_eq_ok_iff.mp h
    obtain ⟨-, rfl⟩ := Prod.mk.inj (Except.ok.inj h)
    refine wellSorted_of_format (by rwa [hop]) hne (sort_of_formatOperand hoperand)
      fun site hsite => ?_
    rw [hsite] at hoperand
    obtain ⟨hkind, hplace⟩ := call_of_formatOperand hformat hoperand
    exact ⟨by rw [hop, hkind], by rw [hplace, hoffset]⟩

/-- Decoded instructions are well sorted, whatever the code is. -/
theorem exists_wellSorted_of_decode {code : List UInt8} {xs : List Instruction}
    (h : decode pool code = .ok xs) {i : Instruction} (hi : i ∈ xs) : ∃ c, i.WellSorted c := by
  obtain ⟨p, hp, rfl⟩ := List.getElem_of_mem hi
  obtain ⟨before, bytes, after, -, hpiece, -⟩ := (decode_eq_ok_iff.mp h).exists_isPiece p hp
  obtain ⟨op, tail, format, hbytes, hformat⟩ := exists_format_of_instructionLength hpiece.length
  have hoperand := hpiece.operand
  rw [hbytes] at hoperand
  exact wellSorted_of_operandAt hformat hpiece.offset hoperand

end Code

end ClassLens
