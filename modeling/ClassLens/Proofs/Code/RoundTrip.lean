/-
The round trip: decoding what was written.

Decoding walks over an instruction twice, once for its length and once for its
operand. So there are two facts to show of each way to write an instruction:
whatever comes after it, the length found is the number of bytes written, and
the operand read is the one meant. With both, the written code is cut where the
instructions end, and the rest is induction.

The formats that fix the length need the table of formats and nothing else. What
the switches need besides is shown for them alone, before.
-/
import ClassLens.Proofs.Code.Boundaries
import ClassLens.Proofs.Code.Switch

set_option autoImplicit false

namespace ClassLens.Code

namespace Written

variable {pool : Pool} {offset : Nat} {w : Written}

/-! ## The table of formats -/

/-- The format that the table should give for the opcode. -/
def format : Written → Format
  | bare _ => .plain
  | literal l => .implied l.value
  | pushByte _ => .byteLiteral
  | pushShort _ => .shortLiteral
  | pushNear _ _ => .nearLiteral
  | pushFar _ _ _ => .farLiteral
  | slot _ _ | wideSlot _ _ => .slot
  | shortLoad _ index | shortStore _ index => .impliedSlot (UInt16.ofNat index)
  | increment _ _ | wideIncrement _ _ => .increment
  | nearJump _ _ => .jump
  | farJump _ _ => .farJump
  | tableSwitch _ _ _ _ => .tableSwitch
  | lookupSwitch _ _ _ => .lookupSwitch
  | field _ _ _ => .field
  | call kind _ _ _ => .call kind
  | dynamicCall _ _ _ => .dynamicCall
  | classUse _ _ _ => .classRef
  | primitiveArray _ => .primitiveArray
  | multiArray _ _ _ => .multiArray

theorem of?_literal (l : SmallLiteral) : Format.of? l.opcode = some (.implied l.value) := by
  cases l with
  | null => rfl
  | int n => revert n; decide
  | long n => revert n; decide
  | float n => revert n; decide
  | double n => revert n; decide

theorem of?_slotUse (use : SlotUse) : Format.of? use.opcode = some .slot := by
  cases use with
  | load type | store type => cases type <;> rfl
  | ret => rfl

theorem of?_shortLoad (type : LocalType) (index : Fin 4) :
    Format.of? (shortLoad type index).opcode = some (.impliedSlot (UInt16.ofNat index)) := by
  revert index
  cases type <;> decide

theorem of?_shortStore (type : LocalType) (index : Fin 4) :
    Format.of? (shortStore type index).opcode = some (.impliedSlot (UInt16.ofNat index)) := by
  revert index
  cases type <;> decide

/-- The table of formats has the right entry for every opcode that is written. -/
theorem of?_opcode (h : w.Fits pool offset) : Format.of? w.opcode = some w.format := by
  cases w with
  | bare op =>
    exact forall_opcode (P := fun op => isBare op → Format.of? op = some .plain)
      (by decide +kernel) op h
  | literal l => exact of?_literal l
  | pushFar op index value =>
    obtain ⟨rfl | rfl, -⟩ := h <;> rfl
  | slot use index | wideSlot use index => exact of?_slotUse use
  | shortLoad type index => exact of?_shortLoad type index
  | shortStore type index => exact of?_shortStore type index
  | nearJump op distance =>
    exact forall_opcode (P := fun op => isNearJump op → Format.of? op = some .jump)
      (by decide +kernel) op h.1
  | farJump op distance =>
    obtain ⟨rfl | rfl, -⟩ := h <;> rfl
  | field op index ref =>
    exact forall_opcode (P := fun op => Opcode.between 0xb2 0xb5 op → Format.of? op = some .field)
      (by decide +kernel) op h.1
  | call kind index ref extra =>
    cases kind with
    | dynamic => exact absurd rfl h.1
    | _ => rfl
  | classUse op index name =>
    exact forall_opcode (P := fun op => isClassUse op → Format.of? op = some .classRef)
      (by decide +kernel) op h.1
  | _ => rfl

/-- `wide` is written in front of other opcodes only. -/
theorem opcode_ne_wide (h : w.Fits pool offset) : w.opcode ≠ Opcode.wide := by
  intro heq
  have hformat := of?_opcode h
  rw [(Format.of?_eq_widened_iff _).mpr heq] at hformat
  -- None of the written instructions has the format of `wide`.
  cases w <;> simp [format] at hformat

/-! ## One instruction -/

/-- Whatever comes after it, a written instruction is as long as its bytes. -/
theorem instructionLength_bytes (h : w.Fits pool offset) (hlength : w.bytes.length < UInt32.size)
    (rest : List UInt8) : instructionLength offset (w.bytes ++ rest) = .ok w.bytes.length := by
  have hformat := of?_opcode h
  cases w with
  | wideSlot use index =>
    -- A slot that is not incremented, so the short one of the widened forms.
    have hne : use.opcode ≠ Opcode.iinc := by
      intro heq
      have hslot := of?_slotUse use
      rw [heq] at hslot
      exact absurd hslot (by decide)
    have hwidened : HasLength offset (Opcode.wide :: use.opcode :: (bigEndian16 index ++ rest))
        (if use.opcode = Opcode.iinc then 6 else 4) :=
      .widened use.opcode _
    rw [if_neg hne] at hwidened
    exact instructionLength_eq_ok_iff.mpr hwidened
  | wideIncrement index delta => exact instructionLength_eq_ok_iff.mpr (.widened Opcode.iinc _)
  | tableSwitch pad fallback low distances =>
    exact instructionLength_tableSwitch_bytes h hlength rest
  | lookupSwitch pad fallback pairs => exact instructionLength_lookupSwitch_bytes h hlength rest
  | call kind index ref extra =>
    obtain ⟨hkind, hextra, -⟩ := h
    have hsize : (Format.call kind).size? = some (extra.length + 3) := by
      rw [hextra]
      cases kind with
      | dynamic => exact absurd rfl hkind
      | _ => rfl
    exact instructionLength_fixed _ hformat hsize
  | dynamicCall index ref extra =>
    have hsize : Format.dynamicCall.size? = some (extra.length + 3) := by rw [h.1]; rfl
    exact instructionLength_fixed _ hformat hsize
  | _ => exact instructionLength_fixed _ hformat rfl

/-- The bytes behind the opcode are read as they are meant. -/
theorem formatOperand_bytes (h : w.Fits pool offset) (hlength : w.bytes.length < UInt32.size)
    (hwide : w.isWidened = false) (rest : List UInt8) :
    formatOperand pool w.format offset (w.opcode :: (w.operandBytes ++ rest)) =
      .ok (w.operand offset) := by
  cases w with
  | bare op => rfl
  | literal l => rfl
  | shortLoad type index => rfl
  | shortStore type index => rfl
  | pushByte value => rfl
  | pushShort value =>
    simp only [format, formatOperand, operandBytes, List.drop_succ_cons, List.drop_zero,
      int16At_bigEndian16, ok_bind]
    rfl
  | pushNear index value =>
    have hvalue : pool.literal? index.toUInt16 = some value := h
    simp only [format, formatOperand, operandBytes, List.cons_append, List.drop_succ_cons,
      List.drop_zero, byteAt, hvalue, resolve, ok_bind]
    rfl
  | pushFar op index value =>
    simp only [format, formatOperand, operandBytes, List.drop_succ_cons, List.drop_zero,
      word16At_bigEndian16, h.2, resolve, ok_bind]
    rfl
  | slot use index => rfl
  | increment index delta => rfl
  | nearJump op distance =>
    simp only [format, formatOperand, operandBytes, List.drop_succ_cons, List.drop_zero,
      int16At_bigEndian16, branchTarget_of_reaches h.2, ok_bind]
    rfl
  | farJump op distance =>
    simp only [format, formatOperand, operandBytes, List.drop_succ_cons, List.drop_zero,
      int32At_bigEndian32, branchTarget_of_reaches h.2, ok_bind]
    rfl
  | tableSwitch pad fallback low distances => exact tableOperand_bytes h hlength rest
  | lookupSwitch pad fallback pairs => exact lookupOperand_bytes h hlength rest
  | field op index ref =>
    simp only [format, formatOperand, operandBytes, List.drop_succ_cons, List.drop_zero,
      word16At_bigEndian16, h.2, resolve, ok_bind]
    rfl
  | call kind index ref extra =>
    simp only [format, formatOperand, operandBytes, List.append_assoc, List.drop_succ_cons,
      List.drop_zero, word16At_bigEndian16, h.2.2, resolve, ok_bind]
    rfl
  | dynamicCall index ref extra =>
    simp only [format, formatOperand, operandBytes, List.append_assoc, List.drop_succ_cons,
      List.drop_zero, word16At_bigEndian16, h.2, resolve, ok_bind]
    rfl
  | classUse op index name =>
    simp only [format, formatOperand, operandBytes, List.drop_succ_cons, List.drop_zero,
      word16At_bigEndian16, h.2, resolve, ok_bind]
    rfl
  | primitiveArray code => rfl
  | multiArray index name dimensions =>
    have hname : pool.className? index = some name := h
    have hdimensions : (bigEndian16 index ++ ([dimensions] ++ rest)).drop 2 = dimensions :: rest :=
      rfl
    simp only [format, formatOperand, operandBytes, List.append_assoc, List.drop_succ_cons,
      List.drop_zero, word16At_bigEndian16, hname, hdimensions, byteAt, resolve, ok_bind]
    rfl
  | wideSlot _ _ | wideIncrement _ _ => simp [isWidened] at hwide

/-- Whatever comes after it, the opcode and operand of a written instruction are
read as they are meant. -/
theorem operandAt_bytes (h : w.Fits pool offset) (hlength : w.bytes.length < UInt32.size)
    (rest : List UInt8) :
    operandAt pool offset (w.bytes ++ rest) = .ok (w.opcode, w.operand offset) := by
  have hformat := of?_opcode h
  cases hwide : w.isWidened with
  -- Nothing in front of the opcode: the operand goes by the format.
  | false =>
    have hbytes : w.bytes ++ rest = w.opcode :: (w.operandBytes ++ rest) := by
      rw [bytes, hwide]
      rfl
    rw [hbytes, operandAt_format _ hformat (opcode_ne_wide h),
      formatOperand_bytes h hlength hwide rest, ok_bind]
  -- Behind `wide` the slot has two bytes, and so has what is added to it.
  | true =>
    cases w with
    | wideSlot use index =>
      have hcode : (wideSlot use index).bytes ++ rest =
          Opcode.wide :: use.opcode :: (bigEndian16 index ++ rest) := rfl
      rw [hcode, operandAt_wide, widenedOperand]
      simp only [List.drop_succ_cons, List.drop_zero, byteAt, word16At_bigEndian16, ok_bind,
        of?_slotUse use]
      rfl
    | wideIncrement index delta =>
      have hcode : (wideIncrement index delta).bytes ++ rest =
          Opcode.wide :: Opcode.iinc ::
            (bigEndian16 index ++ (bigEndian16 delta.toUInt16 ++ rest)) := rfl
      have hdelta : (bigEndian16 index ++ (bigEndian16 delta.toUInt16 ++ rest)).drop 2 =
          bigEndian16 delta.toUInt16 ++ rest := rfl
      have hiinc : Format.of? Opcode.iinc = some .increment := rfl
      rw [hcode, operandAt_wide, widenedOperand]
      simp only [List.drop_succ_cons, List.drop_zero, byteAt, word16At_bigEndian16, ok_bind,
        hiinc, hdelta, int16At_bigEndian16]
      rfl
    | _ => simp [isWidened] at hwide

end Written

/-! ## Programs -/

/-- Code that is written is cut where its instructions end. -/
theorem decodes_encode {pool : Pool} (ws : List Written) {offset : Nat} (index : Nat)
    (hfit : FitFrom pool offset ws) (hlength : (encode ws).length < UInt32.size) :
    Decodes pool offset index (encode ws) (listing offset index ws) := by
  induction ws generalizing offset index with
  | nil => exact .nil offset index
  | cons w ws ih =>
    obtain ⟨hw, hws⟩ := hfit
    have hcode : encode (w :: ws) = w.bytes ++ encode ws := List.flatMap_cons
    rw [hcode, List.length_append] at hlength
    rw [hcode]
    exact .cons (Written.instructionLength_bytes hw (by omega) _)
      (Written.operandAt_bytes hw (by omega) _) (ih (index + 1) hws (by omega))

/-- Decoding inverts writing: if each instruction can stand where it comes to
stand, and the code is shorter than `UInt32.size`, then decoding succeeds and gives
what the instructions say, in order, each with its number and its offset. -/
theorem decode_encode {pool : Pool} {ws : List Written} (hfit : FitFrom pool 0 ws)
    (hlength : (encode ws).length < UInt32.size) :
    decode pool (encode ws) = .ok (listing 0 0 ws) :=
  decode_eq_ok_iff.mpr (decodes_encode ws 0 hfit hlength)

/-- A pool with one method and one literal. -/
def tinyPool : Pool where
  className? _ := none
  member? index := if index = 300 then some ⟨"a/B", "c", "()V"⟩ else none
  dynamic? _ := none
  literal? index := if index = 7 then some (.string "x") else none

/-- A program with a widened slot, bytes behind an interface call, and a table
switch behind three bytes of padding that goes back to the start. -/
def tinyProgram : List Written :=
  [.literal (.int 0), .wideSlot (.store .int) 256, .pushNear 7 (.string "x"),
    .call .interface 300 ⟨"a/B", "c", "()V"⟩ [1, 0],
    .tableSwitch [0xff, 0xff, 0xff] 24 (-1) [-12, 24], .bare 0xb1]

theorem decode_encode_tinyProgram :
    FitFrom tinyPool 0 tinyProgram ∧ (encode tinyProgram).length < UInt32.size ∧
    decode tinyPool (encode tinyProgram) = .ok
      [⟨0, 0, 0x02, .constant (.int (-1))⟩, ⟨1, 1, 0x36, .slot 256⟩,
        ⟨2, 5, 0x12, .constant (.string "x")⟩,
        ⟨3, 7, 0xb9, .call ⟨"a/B", "c", "()V", .interface, 7⟩⟩,
        ⟨4, 12, 0xaa, .switch 36 [0, 36]⟩, ⟨5, 36, 0xb1, .plain⟩] := by
  have hswitch : (Written.tableSwitch [0xff, 0xff, 0xff] 24 (-1) [-12, 24]).Fits tinyPool 12 := by
    refine ⟨⟨by decide, by decide⟩, ⟨by decide, by decide⟩, ?_, by decide, by decide⟩
    rw [List.forall_mem_cons, List.forall_mem_singleton]
    exact ⟨⟨by decide, by decide⟩, ⟨by decide, by decide⟩⟩
  have hfit : FitFrom tinyPool 0 tinyProgram :=
    ⟨trivial, trivial, rfl, ⟨by decide, rfl, rfl⟩, hswitch, rfl, trivial⟩
  have hlength : (encode tinyProgram).length < UInt32.size := by decide
  exact ⟨hfit, hlength, decode_encode hfit hlength⟩

end ClassLens.Code
