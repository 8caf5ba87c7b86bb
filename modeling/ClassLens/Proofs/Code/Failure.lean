/-
Failures: how far decoding gets, and what it blames.

Decoding goes from one instruction to the next and gives all of them or one
fault. `GetsTo` follows it as far as it goes and `FailsAt` says in which of three
ways it may not go on: there is no length, there are not that many bytes, or there
is no operand. It fails exactly if it gets somewhere and cannot go on there
(`decode_eq_error_iff`).

Up to that place the code decodes on its own, since nothing before it was read
from behind it. And the place that is blamed is not far: of the three ways only
the length may want for bytes, and it reads no further than the counts of a
switch, which end sixteen bytes behind the opcode at most.
-/
import ClassLens.Proofs.Code.Extent

set_option autoImplicit false

namespace ClassLens.Code

variable {pool : Pool} {code : List UInt8} {k : Nat} {xs : List Instruction} {e : DecodeError}

/-! ## The course of decoding -/

/-- Decoding the code gets to `k`, and has read `xs` when it is there. -/
inductive GetsTo (pool : Pool) (code : List UInt8) : Nat → List Instruction → Prop where
  | start : GetsTo pool code 0 []
  | step {k n : Nat} {xs : List Instruction} {opcode : Opcode} {operand : Operand}
      (hxs : GetsTo pool code k xs) (hlength : lengthAt code k = .ok n)
      (hn : k + n ≤ code.length)
      (hoperand : operandAt pool k (code.drop k) = .ok (opcode, operand)) :
      GetsTo pool code (k + n) (xs ++ [⟨xs.length, UInt32.ofNat k, opcode, operand⟩])

/-- There is code left at `k`, and it does not start with an instruction. -/
inductive FailsAt (pool : Pool) (code : List UInt8) (k : Nat) : DecodeError → Prop where
  | length {e : DecodeError} (hk : k < code.length) (h : lengthAt code k = .error e) :
      FailsAt pool code k e
  | pastEnd {n : Nat} {op : Opcode} (hop : code[k]? = some op) (hlength : lengthAt code k = .ok n)
      (hn : code.length < k + n) : FailsAt pool code k (.at k (.pastEnd op))
  | operand {n : Nat} {e : DecodeError} (hlength : lengthAt code k = .ok n)
      (hn : k + n ≤ code.length) (h : operandAt pool k (code.drop k) = .error e) :
      FailsAt pool code k e

theorem FailsAt.lt_length (h : FailsAt pool code k e) : k < code.length := by
  cases h with
  | length hk _ => exact hk
  | pastEnd hop _ _ => exact (List.getElem?_eq_some_iff.mp hop).1
  | operand hlength hn _ =>
    have hpos := one_le_of_instructionLength hlength
    omega

/-! ### The loop -/

/-- One round of decoding: the length, then whether the bytes are there, then the
operand, then the rest. -/
theorem decodeFrom_cons (offset index : Nat) (op : UInt8) (tail : List UInt8)
    (read : List Instruction) :
    decodeFrom pool offset index (op :: tail) read =
      instructionLength offset (op :: tail) >>= fun n =>
        if n ≤ (op :: tail).length then
          operandAt pool offset (op :: tail) >>= fun x =>
            decodeFrom pool (offset + n) (index + 1) ((op :: tail).drop n)
              (⟨index, UInt32.ofNat offset, x.1, x.2⟩ :: read)
        else .error (.at offset (.pastEnd op)) := by
  rw [decodeFrom]
  cases hlength : instructionLength offset (op :: tail) with
  | error e => rfl
  | ok n =>
    have hpos := one_le_of_instructionLength hlength
    rw [ok_bind]
    dsimp only
    split
    -- Nothing is left behind all but one of the bytes, so there are less.
    · rename_i hdrop
      rw [List.drop_eq_nil_iff] at hdrop
      rw [if_neg (by omega)]
    · rename_i b rest hdrop
      obtain ⟨hrest, hn⟩ := drop_of_drop_pred_eq_cons hpos hdrop
      rw [if_pos hn, hrest]
      cases operandAt pool offset (op :: tail) <;> rfl

/-- One round of decoding at a place in the code. -/
theorem decodeFrom_drop (hk : k < code.length) (index : Nat) (read : List Instruction) :
    decodeFrom pool k index (code.drop k) read =
      lengthAt code k >>= fun n =>
        if k + n ≤ code.length then
          operandAt pool k (code.drop k) >>= fun x =>
            decodeFrom pool (k + n) (index + 1) (code.drop (k + n))
              (⟨index, UInt32.ofNat k, x.1, x.2⟩ :: read)
        else .error (.at k (.pastEnd code[k])) := by
  have hbytes : code.drop k = code[k] :: code.drop (k + 1) := List.drop_eq_getElem_cons hk
  have hfits (n : Nat) : n ≤ (code.drop k).length ↔ k + n ≤ code.length := by
    rw [List.length_drop]
    omega
  rw [lengthAt, hbytes, decodeFrom_cons]
  simp only [← hbytes, hfits, List.drop_drop]

/-- What is left to do when decoding has got somewhere. -/
theorem GetsTo.decode_eq (h : GetsTo pool code k xs) :
    decode pool code = decodeFrom pool k xs.length (code.drop k) xs.reverse := by
  induction h with
  | start => rfl
  | @step k n xs opcode operand _ hlength hn hoperand ih =>
    have hpos := one_le_of_instructionLength hlength
    rw [ih, decodeFrom_drop (by omega), hlength, ok_bind, if_pos hn, hoperand, ok_bind,
      List.length_append, List.length_singleton, List.reverse_append, List.reverse_singleton,
      List.singleton_append]

theorem FailsAt.decodeFrom_eq (h : FailsAt pool code k e) (index : Nat) (read : List Instruction) :
    decodeFrom pool k index (code.drop k) read = .error e := by
  rw [decodeFrom_drop h.lt_length]
  cases h with
  | length hk h =>
    rw [h]
    rfl
  | @pastEnd n op hop hlength hn =>
    obtain ⟨hk, rfl⟩ := List.getElem?_eq_some_iff.mp hop
    rw [hlength, ok_bind, if_neg (by omega)]
  | operand hlength hn h =>
    rw [hlength, ok_bind, if_pos hn, h]
    rfl

/-- Decoding that fails gets somewhere and cannot go on there. -/
theorem exists_failsAt_of_decodeFrom (pool : Pool) (offset index : Nat) (bytes : List UInt8)
    (read : List Instruction) (h : decodeFrom pool offset index bytes read = .error e)
    (hbytes : code.drop offset = bytes) (hindex : read.length = index)
    (hread : GetsTo pool code offset read.reverse) :
    ∃ k xs, GetsTo pool code k xs ∧ FailsAt pool code k e := by
  have hleft : bytes.length = code.length - offset := by rw [← hbytes, List.length_drop]
  -- The induction follows the loop. What it has read, newest first, is what decoding the
  -- code gets to, so the round that fails does so where decoding has got.
  fun_induction decodeFrom pool offset index bytes read with
  | case1 offset index read => simp at h
  | case2 offset index read op tail e' hlength =>
    obtain rfl := Except.error.inj h
    rw [List.length_cons] at hleft
    exact ⟨offset, _, hread, .length (by omega) (by rw [lengthAt, hbytes, hlength])⟩
  | case3 offset index read op tail n hlength hdrop =>
    obtain rfl := Except.error.inj h
    have hpos := one_le_of_instructionLength hlength
    have hop : code[offset]? = some op := by
      rw [← Nat.add_zero offset, ← List.getElem?_drop, hbytes]
      rfl
    rw [List.drop_eq_nil_iff] at hdrop
    rw [← hbytes] at hlength
    exact ⟨offset, _, hread, .pastEnd hop hlength (by omega)⟩
  | case4 offset index read op tail n hlength b rest hdrop e' hoperand =>
    obtain rfl := Except.error.inj h
    have hpos := one_le_of_instructionLength hlength
    obtain ⟨-, hn⟩ := drop_of_drop_pred_eq_cons hpos hdrop
    rw [← hbytes] at hlength hoperand
    exact ⟨offset, _, hread, .operand hlength (by omega) hoperand⟩
  | case5 offset index read op tail n hlength b rest hdrop opcode operand hoperand ih =>
    have hpos := one_le_of_instructionLength hlength
    obtain ⟨hrest, hn⟩ := drop_of_drop_pred_eq_cons hpos hdrop
    rw [← hbytes] at hlength hoperand hrest
    rw [List.drop_drop] at hrest
    have hstep := GetsTo.step hread hlength (by omega) hoperand
    rw [List.length_reverse, hindex, ← List.reverse_cons] at hstep
    refine ih h hrest ?_ hstep ?_
    · rw [List.length_cons, hindex]
    · rw [← hrest, List.length_drop]

theorem decode_eq_error_iff :
    decode pool code = .error e ↔ ∃ k xs, GetsTo pool code k xs ∧ FailsAt pool code k e := by
  constructor
  · exact fun h => exists_failsAt_of_decodeFrom pool 0 0 code [] h rfl rfl .start
  · rintro ⟨k, xs, hxs, hfail⟩
    rw [hxs.decode_eq, hfail.decodeFrom_eq]

/-! ## The part before the failure -/

section Piece

variable {n : Nat} (hlength : lengthAt code k = .ok n) (hn : k + n ≤ code.length)

include hn in
theorem length_piece : ((code.drop k).take n).length = n := by
  apply List.length_take_of_le
  rw [List.length_drop]
  omega

include hlength hn

/-- The bytes of an instruction are enough to tell how long it is. -/
theorem instructionLength_piece (rest : List UInt8) :
    instructionLength k ((code.drop k).take n ++ rest) = .ok n := by
  rw [lengthAt, ← List.take_append_drop n (code.drop k)] at hlength
  exact instructionLength_append hlength (Nat.le_of_eq (length_piece hn).symm) rest

/-- The bytes of an instruction are enough to read it. -/
theorem operandAt_piece (rest : List UInt8) :
    operandAt pool k ((code.drop k).take n ++ rest) = operandAt pool k (code.drop k) := by
  have hpiece : instructionLength k ((code.drop k).take n) = .ok n := by
    simpa using instructionLength_piece hlength hn []
  have hconfined : Confined k ((code.drop k).take n) (operandAt pool k) :=
    confined_operandAt hpiece (Nat.le_of_eq (length_piece hn).symm)
  -- What is behind the instruction in the code is as good as any other rest.
  rw [hconfined.append rest, ← hconfined.append ((code.drop k).drop n), List.take_append_drop]

end Piece

/-- What has been read is all there is in the code up to there. -/
theorem GetsTo.decodes (h : GetsTo pool code k xs) : Decodes pool 0 0 (code.take k) xs := by
  induction h with
  | start => exact .nil 0 0
  | @step k n xs opcode operand _ hlength hn hoperand ih =>
    have hk : (code.take k).length = k := List.length_take_of_le (by omega)
    have hlast : Decodes pool k xs.length ((code.drop k).take n ++ [])
        [⟨xs.length, UInt32.ofNat k, opcode, operand⟩] := by
      refine .cons ?_ ?_ (.nil _ _)
      · rw [instructionLength_piece hlength hn, length_piece hn]
      · rw [operandAt_piece hlength hn, hoperand]
    rw [List.append_nil] at hlast
    rw [List.take_add]
    refine ih.append ?_
    rwa [hk, Nat.zero_add, Nat.zero_add]

/-! ## The place that is blamed -/

/-- What fails is blamed on a place at most twelve bytes behind `offset`. -/
def BlamedNear {α : Type} (offset : Nat) (x : Except DecodeError α) : Prop :=
  ∀ e, x = .error e → ∃ d, d ≤ 12 ∧ e.offset = UInt32.ofNat (offset + d)

namespace BlamedNear

variable {α β : Type} {offset d : Nat}

theorem ok (a : α) : BlamedNear offset (.ok a) :=
  fun _ h => nomatch h

theorem error (cause : DecodeCause) :
    BlamedNear offset (.error (.at offset cause) : Except DecodeError α) := by
  intro e he
  obtain rfl := Except.error.inj he
  exact ⟨0, by omega, rfl⟩

theorem bind {x : Except DecodeError α} {f : α → Except DecodeError β}
    (hx : BlamedNear offset x) (hf : ∀ a, BlamedNear offset (f a)) :
    BlamedNear offset (x >>= f) := by
  intro e he
  cases x with
  | error e' =>
    obtain rfl : e' = e := Except.error.inj he
    exact hx e' rfl
  | ok a => exact hf a e he

theorem byteAt (hd : d ≤ 12) (bytes : List UInt8) :
    BlamedNear offset (Code.byteAt (offset + d) bytes) := by
  intro e he
  cases bytes with
  | nil => exact ⟨d, hd, by rw [← Except.error.inj he]; rfl⟩
  | cons b tail => nomatch he

theorem int32At (hd : d ≤ 12) (bytes : List UInt8) :
    BlamedNear offset (Code.int32At (offset + d) bytes) := by
  refine bind ?_ fun w => .ok w.toInt32
  intro e he
  rw [word32At.eq_def] at he
  split at he
  · nomatch he
  · exact ⟨d, hd, by rw [← Except.error.inj he]; rfl⟩

theorem check {p : Prop} [Decidable p] (a : α) (cause : DecodeCause) :
    BlamedNear offset (if p then .ok a else .error (.at offset cause)) := by
  split
  · exact .ok a
  · exact .error cause

end BlamedNear

section Near

variable {offset : Nat} (bytes : List UInt8)

theorem padding_le (offset : Nat) : padding offset ≤ 3 := by
  rw [padding]
  omega

theorem blamedNear_tableEntries : BlamedNear offset (tableEntries offset bytes) := by
  have hpadding := padding_le offset
  rw [tableEntries]
  simp only [Nat.add_assoc]
  exact .bind (.int32At (by omega) _) fun low =>
    .bind (.int32At (by omega) _) fun high => .check _ _

theorem blamedNear_lookupEntries : BlamedNear offset (lookupEntries offset bytes) := by
  have hpadding := padding_le offset
  rw [lookupEntries]
  simp only [Nat.add_assoc]
  exact .bind (.int32At (by omega) _) fun count => .check _ _

/-- The last thing that a length may want for is the second bound of a table. -/
theorem blamedNear_instructionLength : BlamedNear offset (instructionLength offset bytes) := by
  cases bytes with
  | nil =>
    have hnil : instructionLength offset [] = .error (.at offset .endOfCode) := rfl
    rw [hnil]
    exact .error _
  | cons op tail =>
    cases hformat : Format.of? op with
    | none =>
      rw [instructionLength, byteAt_cons, ok_bind]
      simp only [hformat]
      exact .error _
    | some format =>
      cases hsize : format.size? with
      | some size =>
        rw [instructionLength_fixed tail hformat hsize]
        exact .ok size
      | none =>
        rcases Format.size?_eq_none_iff.mp hsize with rfl | rfl | rfl
        · rw [instructionLength_widened tail hformat]
          exact .bind (.byteAt (by omega) tail) fun second => .ok _
        · rw [instructionLength_tableSwitch tail hformat]
          exact .bind (blamedNear_tableEntries _) fun entries => .ok _
        · rw [instructionLength_lookupSwitch tail hformat]
          exact .bind (blamedNear_lookupEntries _) fun pairs => .ok _

end Near

/-- The place that is blamed is not in front of the instruction that fails, and not
far behind its start. -/
theorem FailsAt.offset_mem (h : FailsAt pool code k e)
    (hlength : code.length < UInt32.size - 12) :
    k ≤ e.offset.toNat ∧ e.offset.toNat ≤ k + 12 := by
  have hk := h.lt_length
  obtain ⟨d, hd, hoffset⟩ : ∃ d, d ≤ 12 ∧ e.offset = UInt32.ofNat (k + d) := by
    cases h with
    | length _ h => exact blamedNear_instructionLength _ e h
    | pastEnd _ _ _ => exact ⟨0, by omega, rfl⟩
    -- An operand only fails at checks, and these blame the opcode.
    | operand hlength hn h =>
      have hbytes := List.length_drop (i := k) (l := code)
      have hconfined : Confined k (code.drop k) (operandAt pool k) :=
        confined_operandAt hlength (by omega)
      exact ⟨0, by omega, (hconfined.blame e h).1⟩
  rw [hoffset, UInt32.toNat_ofNat_of_lt' (by omega)]
  omega

/-! ## Inside and near -/

/-- Reading the instruction at `offset`, which is `n` bytes long, does not look at
any other byte of the code, does not come to the end of the code, and makes room
for no more targets than four bytes each of the instruction can hold. -/
structure ReadsInside (pool : Pool) (code : List UInt8) (offset n : Nat) : Prop where
  bytes : ∀ other : List UInt8,
    (∀ p, offset ≤ p → p < offset + n → other[p]? = code[p]?) →
      operandAt pool offset (other.drop offset) = operandAt pool offset (code.drop offset)
  complete : ∀ e, operandAt pool offset (code.drop offset) = .error e → e.cause ≠ .endOfCode
  room : ∃ count, statedTargets offset (code.drop offset) = .ok count ∧ count ≤ n / 4 ∧
    ∀ opcode fallback targets,
      operandAt pool offset (code.drop offset) = .ok (opcode, .switch fallback targets) →
        targets.length = count

theorem readsInside {offset n : Nat} (hlength : lengthAt code offset = .ok n)
    (hn : offset + n ≤ code.length) : ReadsInside pool code offset n := by
  have hleft : n ≤ (code.drop offset).length := by rw [List.length_drop]; omega
  refine ⟨?_, ?_, ?_⟩
  -- Two codes that agree on the bytes of the instruction have the same piece there.
  · intro other hother
    have hpiece : (other.drop offset).take n = (code.drop offset).take n := by
      apply List.ext_getElem?
      intro p
      rw [List.getElem?_take, List.getElem?_take, List.getElem?_drop, List.getElem?_drop]
      split
      · exact hother (offset + p) (by omega) (by omega)
      · rfl
    rw [← List.take_append_drop n (other.drop offset), hpiece, operandAt_piece hlength hn]
  · intro e he
    have hconfined : Confined offset (code.drop offset) (operandAt pool offset) :=
      confined_operandAt hlength hleft
    exact (hconfined.blame e he).2
  · obtain ⟨count, hcount, hle⟩ := exists_statedTargets hlength
    refine ⟨count, hcount, by omega, ?_⟩
    intro opcode fallback targets htargets
    rw [statedTargets_of_operandAt htargets] at hcount
    exact Except.ok.inj hcount

/-- Failures are local. An instruction that is there as a whole is read off its own
bytes. And where decoding fails, it has got to some `k`, what is before `k` decodes
on its own to what it has read by then, and the place it blames is `k` or at most
twelve bytes behind it. -/
theorem failures_local (hlength : code.length < UInt32.size - 12) :
    (∀ offset n, lengthAt code offset = .ok n → offset + n ≤ code.length →
      ReadsInside pool code offset n) ∧
    ∀ e, decode pool code = .error e → ∃ k xs, GetsTo pool code k xs ∧ FailsAt pool code k e ∧
      decode pool (code.take k) = .ok xs ∧ k ≤ e.offset.toNat ∧ e.offset.toNat ≤ k + 12 := by
  refine ⟨fun offset n => readsInside, fun e he => ?_⟩
  obtain ⟨k, xs, hxs, hfail⟩ := decode_eq_error_iff.mp he
  exact ⟨k, xs, hxs, hfail, decode_eq_ok_iff.mpr hxs.decodes, hfail.offset_mem hlength⟩

/-- A table switch with one entry, and behind it another one that is cut off in
front of its upper bound. -/
def cutSwitchCode : List UInt8 :=
  [0xaa, 0, 0, 0, 0, 0, 0, 16, 0, 0, 0, 5, 0, 0, 0, 5, 0, 0, 0, 16,
    0xaa, 0, 0, 0, 0, 0, 0, 0, 0, 0, 0, 5]

theorem failures_local_cutSwitch :
    cutSwitchCode.length < UInt32.size - 12 ∧
    lengthAt cutSwitchCode 0 = .ok 20 ∧ 0 + 20 ≤ cutSwitchCode.length ∧
    ReadsInside emptyPool cutSwitchCode 0 20 ∧
    decode emptyPool cutSwitchCode = .error ⟨32, .endOfCode⟩ ∧
    ∃ k xs, GetsTo emptyPool cutSwitchCode k xs ∧
      FailsAt emptyPool cutSwitchCode k ⟨32, .endOfCode⟩ ∧
      decode emptyPool (cutSwitchCode.take k) = .ok xs ∧ k ≤ 32 ∧ 32 ≤ k + 12 := by
  have hlength : cutSwitchCode.length < UInt32.size - 12 := by decide
  have hfirst : lengthAt cutSwitchCode 0 = .ok 20 := rfl
  have hfail : decode emptyPool cutSwitchCode = .error ⟨32, .endOfCode⟩ :=
    decode_eq_error_iff.mpr ⟨20, [⟨0, 0, 0xaa, .switch 16 [16]⟩],
      .step .start hfirst (by decide) rfl, .length (by decide) rfl⟩
  obtain ⟨hinside, hlocal⟩ := @failures_local emptyPool _ hlength
  exact ⟨hlength, hfirst, by decide, hinside 0 20 hfirst (by decide), hfail, hlocal _ hfail⟩

end ClassLens.Code
