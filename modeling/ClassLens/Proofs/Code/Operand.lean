/-
Operands: how the reading of an instruction goes by its opcode.

An instruction other than `wide` keeps its opcode and has the operand of its
format. A widened one takes the opcode that stands after `wide`, and that opcode
must be one with a slot: so no instruction keeps the opcode `wide`, and none
gets an undefined one in its place.
-/
import ClassLens.Proofs.Code.Length

set_option autoImplicit false

namespace ClassLens.Code

variable {pool : Pool} {offset : Nat}

theorem operandAt_format {op : Opcode} {format : Format} (tail : List UInt8)
    (hformat : Format.of? op = some format) (hne : op ≠ Opcode.wide) :
    operandAt pool offset (op :: tail) =
      formatOperand pool format offset (op :: tail) >>= fun operand => .ok (op, operand) := by
  have hwidened : format ≠ .widened := by
    rintro rfl
    exact hne ((Format.of?_eq_widened_iff op).mp hformat)
  unfold operandAt
  rw [byteAt_cons, ok_bind]
  simp only [hformat]
  cases format with
  | widened => exact absurd rfl hwidened
  | _ => rfl

theorem operandAt_wide (tail : List UInt8) :
    operandAt pool offset (Opcode.wide :: tail) =
      widenedOperand offset (Opcode.wide :: tail) := by
  have hformat := (Format.of?_eq_widened_iff Opcode.wide).mpr rfl
  unfold operandAt
  rw [byteAt_cons, ok_bind]
  simp only [hformat]

/-- Only an opcode with a slot can be widened. -/
theorem format_of_widenedOperand {op opcode : Opcode} {tail : List UInt8} {operand : Operand}
    (h : widenedOperand offset (op :: tail) = .ok (opcode, operand)) :
    (∃ rest, tail = opcode :: rest) ∧
      (Format.of? opcode = some .slot ∨ Format.of? opcode = some .increment) := by
  rw [widenedOperand] at h
  obtain ⟨second, hsecond, h⟩ := bind_eq_ok_iff.mp h
  obtain ⟨index, -, h⟩ := bind_eq_ok_iff.mp h
  -- Either way of reading on keeps the opcode and has looked at its format.
  have hopcode : second = opcode ∧
      (Format.of? second = some .slot ∨ Format.of? second = some .increment) := by
    split at h
    · rename_i hformat
      obtain ⟨delta, -, h⟩ := bind_eq_ok_iff.mp h
      exact ⟨congrArg Prod.fst (Except.ok.inj h), .inr hformat⟩
    · rename_i hformat
      exact ⟨congrArg Prod.fst (Except.ok.inj h), .inl hformat⟩
    · exact absurd h (by simp)
  obtain ⟨rfl, hformat⟩ := hopcode
  refine ⟨?_, hformat⟩
  cases tail with
  | nil => simp [byteAt] at hsecond
  | cons b rest =>
    rw [List.drop_succ_cons, List.drop_zero, byteAt_cons, Except.ok.injEq] at hsecond
    exact ⟨rest, by rw [hsecond]⟩

/-- The opcode of an instruction is the first byte, or the second one behind
`wide`; either way it is defined and is not `wide`. -/
theorem opcode_of_operandAt {op opcode : Opcode} {format : Format} {tail : List UInt8}
    {operand : Operand} (hformat : Format.of? op = some format)
    (h : operandAt pool offset (op :: tail) = .ok (opcode, operand)) :
    (op ≠ Opcode.wide → opcode = op) ∧
      (op = Opcode.wide → ∃ rest, tail = opcode :: rest) ∧
      opcode ≠ Opcode.wide ∧ (Format.of? opcode).isSome := by
  by_cases hwide : op = Opcode.wide
  · subst hwide
    rw [operandAt_wide] at h
    -- `wide` behind `wide` is refused because `wide` itself has no slot.
    obtain ⟨hsecond, hslot⟩ := format_of_widenedOperand h
    refine ⟨fun hne => absurd rfl hne, fun _ => hsecond, ?_, ?_⟩
    · rintro rfl
      rw [(Format.of?_eq_widened_iff _).mpr rfl] at hslot
      simp at hslot
    · rcases hslot with hslot | hslot <;> rw [hslot] <;> rfl
  · rw [operandAt_format tail hformat hwide] at h
    obtain ⟨read, -, h⟩ := bind_eq_ok_iff.mp h
    obtain rfl : op = opcode := congrArg Prod.fst (Except.ok.inj h)
    exact ⟨fun _ => rfl, fun heq => absurd heq hwide, hwide, by rw [hformat]; rfl⟩

end ClassLens.Code
