/-
Boundaries: the decoded instructions tile the code.

`Decodes` says what decoding does without saying how: code is cut into pieces,
each piece is as long as the instruction at its start, and each gives one
instruction with the opcode and the operand read there. The decoder accepts
exactly the code that can be cut this way, so every fact about decoded
instructions is an induction on the cut, or a look at one piece of it.

Offsets are natural numbers here and words of 32 bits in the instructions. The
two agree as long as the code is shorter than `UInt32.size`, and this is the only
place where the length of the code matters.
-/
import ClassLens.Proofs.Code.Operand

set_option autoImplicit false

namespace ClassLens.Code

/-! ## Cutting code into instructions -/

/-- `code`, which starts at `offset`, is cut into the instructions `xs`, of which
the first has the number `index`. -/
inductive Decodes (pool : Pool) : Nat → Nat → List UInt8 → List Instruction → Prop where
  | nil (offset index : Nat) : Decodes pool offset index [] []
  | cons {offset index : Nat} {bytes rest : List UInt8} {opcode : Opcode} {operand : Operand}
      {xs : List Instruction}
      (hlength : instructionLength offset (bytes ++ rest) = .ok bytes.length)
      (hoperand : operandAt pool offset (bytes ++ rest) = .ok (opcode, operand))
      (hrest : Decodes pool (offset + bytes.length) (index + 1) rest xs) :
      Decodes pool offset index (bytes ++ rest)
        (⟨index, UInt32.ofNat offset, opcode, operand⟩ :: xs)

/-- If something is left after all but one of `n` bytes, `n` bytes are there, and
what is behind that byte is what is left after them. -/
theorem drop_of_drop_pred_eq_cons {l rest : List UInt8} {b : UInt8} {n : Nat} (hpos : 1 ≤ n)
    (h : l.drop (n - 1) = b :: rest) : l.drop n = rest ∧ n ≤ l.length := by
  obtain ⟨k, rfl⟩ : ∃ k, n = k + 1 := ⟨n - 1, by omega⟩
  rw [Nat.add_sub_cancel] at h
  have hlength := congrArg List.length h
  rw [List.length_drop, List.length_cons] at hlength
  refine ⟨?_, by omega⟩
  rw [← List.drop_drop, h, List.drop_succ_cons, List.drop_zero]

theorem exists_decodes_of_decodeFrom (pool : Pool) (offset index : Nat) (bytes : List UInt8)
    (read out : List Instruction) (h : decodeFrom pool offset index bytes read = .ok out) :
    ∃ xs, out = read.reverse ++ xs ∧ Decodes pool offset index bytes xs := by
  fun_induction decodeFrom pool offset index bytes read with
  | case1 offset index read =>
    rw [← Except.ok.inj h]
    exact ⟨[], by rw [List.append_nil], .nil offset index⟩
  | case5 offset index read op tail length hlength b rest hdrop opcode operand hoperand ih =>
    -- The only way to go on: a length, that many bytes, and an operand.
    obtain ⟨xs, hout, hxs⟩ := ih h
    obtain ⟨hrest, hle⟩ :=
      drop_of_drop_pred_eq_cons (one_le_of_instructionLength hlength) hdrop
    have htake : ((op :: tail).take length).length = length := List.length_take_of_le hle
    refine ⟨⟨index, UInt32.ofNat offset, opcode, operand⟩ :: xs, ?_, ?_⟩
    · rw [hout, List.reverse_cons, List.append_assoc, List.singleton_append]
    · rw [← List.take_append_drop length (op :: tail), hrest] at hlength hoperand ⊢
      refine .cons ?_ hoperand ?_
      · rw [htake, hlength]
      · rwa [htake]
  | _ => simp at h

theorem decodeFrom_of_decodes {pool : Pool} {offset index : Nat} {code : List UInt8}
    {xs : List Instruction} (h : Decodes pool offset index code xs) (read : List Instruction) :
    decodeFrom pool offset index code read = .ok (read.reverse ++ xs) := by
  induction h generalizing read with
  | nil offset index => rw [decodeFrom, List.append_nil]
  | @cons offset index bytes rest opcode operand xs hlength hoperand _ ih =>
    have hpos := one_le_of_instructionLength hlength
    cases bytes with
    | nil => simp at hpos
    | cons op tail =>
      rw [List.cons_append] at hlength hoperand ⊢
      rw [decodeFrom]
      simp only [hlength]
      split
      -- The piece is as long as the instruction, so its bytes are there.
      · rename_i hdrop
        have hnil := congrArg List.length hdrop
        simp only [List.length_drop, List.length_cons, List.length_append, List.length_nil] at hnil
        omega
      · rename_i b rest' hdrop
        obtain ⟨hrest, -⟩ := drop_of_drop_pred_eq_cons hpos hdrop
        rw [← List.cons_append, List.drop_left] at hrest
        simp only [hoperand]
        rw [← hrest, ih, List.reverse_cons, List.append_assoc, List.singleton_append]

theorem decode_eq_ok_iff {pool : Pool} {code : List UInt8} {xs : List Instruction} :
    decode pool code = .ok xs ↔ Decodes pool 0 0 code xs := by
  constructor
  · intro h
    obtain ⟨ys, rfl, hys⟩ := exists_decodes_of_decodeFrom pool 0 0 code [] xs h
    exact hys
  · exact fun h => decodeFrom_of_decodes h []

/-! ## One piece of the code -/

/-- `x`, the instruction with the number `index`, is read off `bytes`, which
stand at `offset` with `after` behind them. -/
structure IsPiece (pool : Pool) (offset index : Nat) (bytes after : List UInt8)
    (x : Instruction) : Prop where
  length : instructionLength offset (bytes ++ after) = .ok bytes.length
  operand : operandAt pool offset (bytes ++ after) = .ok (x.opcode, x.operand)
  index : x.index = index
  offset : x.offset = UInt32.ofNat offset

/-- Each decoded instruction is read off a piece of the code, and what is behind
the piece decodes to the instructions after it. -/
theorem Decodes.exists_isPiece {pool : Pool} {offset index : Nat} {code : List UInt8}
    {xs : List Instruction} (h : Decodes pool offset index code xs) (i : Nat)
    (hi : i < xs.length) :
    ∃ before bytes after, code = before ++ (bytes ++ after) ∧
      IsPiece pool (offset + before.length) (index + i) bytes after xs[i] ∧
      Decodes pool (offset + before.length + bytes.length) (index + i + 1) after
        (xs.drop (i + 1)) := by
  induction h generalizing i with
  | nil offset index => simp at hi
  | @cons offset index bytes rest opcode operand xs hlength hoperand hrest ih =>
    cases i with
    | zero => exact ⟨[], bytes, rest, rfl, ⟨hlength, hoperand, rfl, rfl⟩, hrest⟩
    | succ i =>
      -- A piece of the rest is a piece of the whole, with the first one before it.
      obtain ⟨before, bytes', after, hcode, hpiece, hafter⟩ := ih i (Nat.lt_of_succ_lt_succ hi)
      have hoffset : offset + bytes.length + before.length =
          offset + (bytes ++ before).length := by
        rw [List.length_append, Nat.add_assoc]
      have hindex : index + 1 + i = index + (i + 1) := by omega
      rw [hoffset, hindex] at hpiece hafter
      exact ⟨bytes ++ before, bytes', after, by rw [hcode, List.append_assoc], hpiece, hafter⟩

/-- The first instruction of what is left stands where that starts; if nothing
is left, that is where the code ends. -/
theorem Decodes.offset_head {pool : Pool} {offset index : Nat} {code : List UInt8}
    {xs : List Instruction} (h : Decodes pool offset index code xs)
    (hlength : offset + code.length < UInt32.size) :
    (xs.head?.map (·.offset.toNat)).getD (offset + code.length) = offset := by
  cases h with
  | nil => rfl
  | cons _ _ _ =>
    rw [List.head?_cons, Option.map_some, Option.getD_some]
    exact UInt32.toNat_ofNat_of_lt' (by omega)

/-- Code that is not empty has an instruction. -/
theorem Decodes.eq_nil {pool : Pool} {offset index : Nat} {code : List UInt8}
    (h : Decodes pool offset index code []) : code = [] := by
  cases h
  rfl

/-! ## Tiling -/

/-- The instructions are what lies between the boundaries of the code: they are
numbered, the first starts at 0, each ends where the next one starts, the last
one ends with the code, and each has the opcode that stands at its offset, or
behind a `wide` there. -/
structure Tiles (code : List UInt8) (xs : List Instruction) : Prop where
  index : ∀ (i : Nat) (h : i < xs.length), xs[i].index = i
  first : ∀ x ∈ xs.head?, x.offset.toNat = 0
  next : ∀ (i : Nat) (h : i < xs.length), ∃ l, lengthAt code xs[i].offset.toNat = .ok l ∧
    1 ≤ l ∧ xs[i].offset.toNat + l = (xs[i + 1]?.map (·.offset.toNat)).getD code.length
  opcode : ∀ x ∈ xs, ∃ op, code[x.offset.toNat]? = some op ∧
    (op ≠ Opcode.wide → x.opcode = op) ∧
    (op = Opcode.wide → code[x.offset.toNat + 1]? = some x.opcode)
  defined : ∀ x ∈ xs, x.opcode ≠ Opcode.wide ∧ (Category.of? x.opcode).isSome
  nonempty : xs = [] → code = []

/-- The piece behind `before` starts with the opcode of its instruction, or with
`wide` and then that opcode. -/
theorem IsPiece.exists_opcode {pool : Pool} {offset index : Nat} {before bytes after : List UInt8}
    {x : Instruction} (h : IsPiece pool offset index bytes after x) :
    (∃ op, (before ++ (bytes ++ after))[before.length]? = some op ∧
      (op ≠ Opcode.wide → x.opcode = op) ∧
      (op = Opcode.wide →
        (before ++ (bytes ++ after))[before.length + 1]? = some x.opcode)) ∧
    x.opcode ≠ Opcode.wide ∧ (Category.of? x.opcode).isSome := by
  obtain ⟨op, tail, format, hbytes, hformat⟩ := exists_format_of_instructionLength h.length
  have hoperand := h.operand
  rw [hbytes] at hoperand ⊢
  obtain ⟨hsame, hsecond, hne, hdefined⟩ := opcode_of_operandAt hformat hoperand
  refine ⟨⟨op, ?_, hsame, fun hwide => ?_⟩, hne, by rwa [← Format.isSome_of?_eq]⟩
  · rw [List.getElem?_append_right (Nat.le_refl _), Nat.sub_self]
    rfl
  · obtain ⟨rest, rfl⟩ := hsecond hwide
    rw [List.getElem?_append_right (by omega), Nat.add_sub_cancel_left]
    rfl

/-- The offsets of what is decoded lie in the range of the code. -/
theorem Decodes.offset_mem {pool : Pool} {offset index : Nat} {code : List UInt8}
    {xs : List Instruction} (h : Decodes pool offset index code xs)
    (hlength : offset + code.length < UInt32.size) :
    ∀ x ∈ xs, offset ≤ x.offset.toNat ∧ x.offset.toNat < offset + code.length := by
  induction h with
  | nil offset index => simp
  | @cons offset index bytes rest opcode operand xs hbytes _ _ ih =>
    have hpos := one_le_of_instructionLength hbytes
    rw [List.length_append] at hlength ⊢
    intro x hx
    rcases List.mem_cons.mp hx with rfl | hx
    · rw [UInt32.toNat_ofNat_of_lt' (by omega)]
      omega
    · have := ih (by omega) x hx
      omega

theorem Decodes.pairwise_offset {pool : Pool} {offset index : Nat} {code : List UInt8}
    {xs : List Instruction} (h : Decodes pool offset index code xs)
    (hlength : offset + code.length < UInt32.size) : xs.Pairwise (·.offset < ·.offset) := by
  induction h with
  | nil offset index => exact .nil
  | @cons offset index bytes rest opcode operand xs hbytes _ hrest ih =>
    have hpos := one_le_of_instructionLength hbytes
    rw [List.length_append] at hlength
    refine .cons (fun x hx => ?_) (ih (by omega))
    -- All that follows lies behind the piece, and the piece is not empty.
    have hx := hrest.offset_mem (by omega) x hx
    rw [UInt32.lt_iff_toNat_lt, UInt32.toNat_ofNat_of_lt' (by omega)]
    omega

theorem Decodes.tiles {pool : Pool} {code : List UInt8} {xs : List Instruction}
    (h : Decodes pool 0 0 code xs) (hlength : code.length < UInt32.size) : Tiles code xs := by
  -- Every field but two is about one instruction, so it is read off its piece.
  have hpiece : ∀ (i : Nat) (hi : i < xs.length), ∃ before bytes after,
      code = before ++ (bytes ++ after) ∧ xs[i].offset.toNat = before.length ∧
      IsPiece pool before.length i bytes after xs[i] ∧
      Decodes pool (before.length + bytes.length) (i + 1) after (xs.drop (i + 1)) := by
    intro i hi
    obtain ⟨before, bytes, after, hcode, hpiece, hafter⟩ := h.exists_isPiece i hi
    rw [Nat.zero_add, Nat.zero_add] at hpiece hafter
    refine ⟨before, bytes, after, hcode, ?_, hpiece, hafter⟩
    rw [hcode, List.length_append] at hlength
    rw [hpiece.offset, UInt32.toNat_ofNat_of_lt' (by omega)]
  have hopcode : ∀ x ∈ xs, (∃ op, code[x.offset.toNat]? = some op ∧
      (op ≠ Opcode.wide → x.opcode = op) ∧
      (op = Opcode.wide → code[x.offset.toNat + 1]? = some x.opcode)) ∧
      x.opcode ≠ Opcode.wide ∧ (Category.of? x.opcode).isSome := by
    intro x hx
    obtain ⟨i, hi, rfl⟩ := List.getElem_of_mem hx
    obtain ⟨before, bytes, after, hcode, hoffset, hx, -⟩ := hpiece i hi
    rw [hoffset, hcode]
    exact hx.exists_opcode
  refine ⟨fun i hi => ?_, fun x hx => ?_, fun i hi => ?_, fun x hx => (hopcode x hx).1,
    fun x hx => (hopcode x hx).2, fun hnil => ?_⟩
  · obtain ⟨before, bytes, after, -, -, hx, -⟩ := hpiece i hi
    exact hx.index
  · have hfirst := h.offset_head (by omega)
    rwa [Option.mem_def.mp hx] at hfirst
  · obtain ⟨before, bytes, after, hcode, hoffset, hx, hafter⟩ := hpiece i hi
    have htotal : before.length + bytes.length + after.length = code.length := by
      rw [hcode, List.length_append, List.length_append, Nat.add_assoc]
    refine ⟨bytes.length, ?_, one_le_of_instructionLength hx.length, ?_⟩
    · rw [lengthAt, hoffset, hcode, List.drop_left, hx.length]
    -- Where the piece ends, what is left of the code starts.
    · have hnext := hafter.offset_head (by omega)
      rw [List.head?_drop, htotal] at hnext
      rw [hoffset, hnext]
  · subst hnil
    exact h.eq_nil

/-- The decoded instructions of code shorter than `UInt32.size` tile it. So their
offsets strictly increase, and there is room for one more offset after each of
them. -/
theorem tiles_decode {pool : Pool} {code : List UInt8} {xs : List Instruction}
    (h : decode pool code = .ok xs) (hlength : code.length < UInt32.size) :
    Tiles code xs ∧ xs.Pairwise (·.offset < ·.offset) ∧
      ∀ x ∈ xs, (x.offset + 1).toNat = x.offset.toNat + 1 := by
  have hdecodes := decode_eq_ok_iff.mp h
  have hroom : 0 + code.length < UInt32.size := by omega
  refine ⟨hdecodes.tiles hlength, hdecodes.pairwise_offset hroom, fun x hx => ?_⟩
  have hx := hdecodes.offset_mem hroom x hx
  rw [UInt32.size] at hlength
  rw [UInt32.toNat_add, UInt32.toNat_one, Nat.mod_eq_of_lt (by omega)]

/-- The pool that resolves nothing. -/
def emptyPool : Pool :=
  ⟨fun _ => none, fun _ => none, fun _ => none, fun _ => none⟩

/-- `iconst_0`, a widened `iload`, a table switch behind two bytes of padding
that goes back to the start, and `return`. -/
def switchCode : List UInt8 :=
  [0x03, 0xc4, 0x15, 0x01, 0x00, 0xaa, 0, 0, 0, 0, 0, 0x13, 0, 0, 0, 5, 0, 0, 0, 5,
    0xff, 0xff, 0xff, 0xfb, 0xb1]

theorem tiles_decode_switchCode :
    ∃ xs, decode emptyPool switchCode = .ok xs ∧ switchCode.length < UInt32.size ∧
      xs.map (·.offset) = [0, 1, 5, 24] ∧ Tiles switchCode xs := by
  have hcut : Decodes emptyPool 0 0
      ([0x03] ++ ([0xc4, 0x15, 0x01, 0x00] ++
        ([0xaa, 0, 0, 0, 0, 0, 0x13, 0, 0, 0, 5, 0, 0, 0, 5, 0xff, 0xff, 0xff, 0xfb] ++
          ([0xb1] ++ []))))
      [⟨0, 0, 0x03, .constant (.int 0)⟩, ⟨1, 1, 0x15, .slot 256⟩, ⟨2, 5, 0xaa, .switch 24 [0]⟩,
        ⟨3, 24, 0xb1, .plain⟩] :=
    .cons rfl rfl (.cons rfl rfl (.cons rfl rfl (.cons rfl rfl (.nil 25 4))))
  have hdecode := decode_eq_ok_iff.mpr hcut
  have hlength : switchCode.length < UInt32.size := by decide
  exact ⟨_, hdecode, hlength, rfl, (tiles_decode hdecode hlength).1⟩

end ClassLens.Code
