/-
Relocation: the same code at another place.

An operand is read at fixed distances from the opcode, and the place of the opcode
matters to three things only: to what calls and faults note down, to targets,
which are counted from there, and to the padding of a switch. So code that is moved
by some bytes reads as before, with each place in it moved as well, unless a switch
comes to stand at another distance from a multiple of four. It may still fail, at
the one target that is moved behind the last offset there is.

Together with the fact that nothing is read from behind an instruction
(`Decodes.append`), code decodes to the instructions of its parts.
-/
import ClassLens.Proofs.Code.Extent
import ClassLens.Proofs.Flow.Leaders

set_option autoImplicit false

namespace ClassLens

/-! ## Moved instructions -/

/-- The offset `places` bytes further on. -/
def furtherOn (places : Nat) (o : UInt32) : UInt32 :=
  UInt32.ofNat (o.toNat + places)

theorem furtherOn_ofNat (places offset : Nat) :
    furtherOn places (UInt32.ofNat offset) = UInt32.ofNat (offset + places) := by
  rw [furtherOn, UInt32.ofNat_add, UInt32.ofNat_add, UInt32.ofNat_toNat]

/-- The operand of an instruction that is moved by `places` bytes: its targets are,
and so is the place that a call notes down. -/
def Operand.moved (places : Nat) : Operand → Operand
  | .call site => .call { site with offset := furtherOn places site.offset }
  | other => other.mapTargets (furtherOn places)

/-- The instruction moved by `places` bytes, with `count` more in front of it. -/
def Instruction.moved (places count : Nat) (i : Instruction) : Instruction :=
  { i with
    index := i.index + count
    offset := furtherOn places i.offset
    operand := i.operand.moved places }

/-- No place that the instruction names is moved behind the last offset there
is. -/
structure Instruction.Movable (places : Nat) (i : Instruction) : Prop where
  offset : i.offset.toNat + places < UInt32.size
  targets : ∀ t ∈ i.targets, t.toNat + places < UInt32.size
  call : ∀ site, i.operand = .call site → site.offset.toNat + places < UInt32.size

namespace Code

variable {pool : Pool} {offset places : Nat} {bytes : List UInt8}

/-! ## What does not depend on the place -/

theorem byteAt_of_eq_ok {place : Nat} {b : UInt8} (h : byteAt place bytes = .ok b)
    (other : Nat) : byteAt other bytes = .ok b := by
  cases bytes with
  | nil => nomatch h
  | cons first tail => exact h

theorem word16At_of_eq_ok {place : Nat} {w : UInt16} (h : word16At place bytes = .ok w)
    (other : Nat) : word16At other bytes = .ok w := by
  rw [word16At.eq_def] at h ⊢
  split at h
  · exact h
  · nomatch h

theorem int16At_of_eq_ok {place : Nat} {n : Int16} (h : int16At place bytes = .ok n)
    (other : Nat) : int16At other bytes = .ok n := by
  obtain ⟨w, hw, h⟩ := bind_eq_ok_iff.mp h
  rw [int16At, word16At_of_eq_ok hw]
  exact h

theorem int32At_of_eq_ok {place : Nat} {n : Int32} (h : int32At place bytes = .ok n)
    (other : Nat) : int32At other bytes = .ok n := by
  obtain ⟨w, hw, h⟩ := bind_eq_ok_iff.mp h
  have hother : word32At other bytes = .ok w := by
    rw [word32At.eq_def] at hw ⊢
    split at hw
    · exact hw
    · nomatch hw
  rw [int32At, hother]
  exact h

theorem resolve_of_eq_ok {α : Type} {cause : DecodeCause} {found? : Option α} {found : α}
    (h : resolve offset cause found? = .ok found) (other : Nat) :
    resolve other cause found? = .ok found := by
  cases found? with
  | none => nomatch h
  | some a => exact h

/-! ## Targets -/

theorem branchTarget_moved {distance : Int} {t : UInt32}
    (h : branchTarget offset distance = .ok t) (ht : t.toNat + places < UInt32.size) :
    branchTarget (offset + places) distance = .ok (furtherOn places t) := by
  rw [branchTarget] at h ⊢
  split at h
  · rename_i hrange
    obtain rfl := Except.ok.inj h
    rw [UInt32.toNat_ofNat_of_lt' (by omega)] at ht
    rw [if_pos (by omega), furtherOn_ofNat]
    congr 2
    omega
  · nomatch h

/-- What has been read before an entry is still there in the end. -/
theorem subset_of_switchTargets {skip count place : Nat} {read targets : List UInt32}
    (h : switchTargets offset skip count place bytes read = .ok targets) : read ⊆ targets := by
  induction count generalizing place bytes read with
  | zero =>
    rw [← Except.ok.inj h]
    exact fun t ht => List.mem_reverse.mpr ht
  | succ count ih =>
    obtain ⟨distance, -, h⟩ := bind_eq_ok_iff.mp h
    obtain ⟨target, -, h⟩ := bind_eq_ok_iff.mp h
    exact fun t ht => ih h (List.mem_cons_of_mem target ht)

theorem switchTargets_moved {skip count place : Nat} {read targets : List UInt32}
    (h : switchTargets offset skip count place bytes read = .ok targets)
    (ht : ∀ t ∈ targets, t.toNat + places < UInt32.size) (other : Nat) :
    switchTargets (offset + places) skip count other bytes (read.map (furtherOn places)) =
      .ok (targets.map (furtherOn places)) := by
  induction count generalizing place other bytes read with
  | zero =>
    rw [← Except.ok.inj h, switchTargets, List.map_reverse]
  | succ count ih =>
    obtain ⟨distance, hdistance, h⟩ := bind_eq_ok_iff.mp h
    obtain ⟨target, htarget, h⟩ := bind_eq_ok_iff.mp h
    have hroom := ht target (subset_of_switchTargets h List.mem_cons_self)
    rw [switchTargets, int32At_of_eq_ok hdistance, ok_bind, branchTarget_moved htarget hroom,
      ok_bind, ← List.map_cons]
    exact ih h _

/-! ## Switches -/

theorem padding_add (h : places % 4 = 0) (offset : Nat) :
    padding (offset + places) = padding offset := by
  rw [padding, padding]
  omega

theorem tableEntries_moved {entries : Nat} (h : tableEntries offset bytes = .ok entries)
    (hpadding : padding (offset + places) = padding offset) :
    tableEntries (offset + places) bytes = .ok entries := by
  obtain ⟨low, hlow, h⟩ := bind_eq_ok_iff.mp h
  obtain ⟨high, hhigh, h⟩ := bind_eq_ok_iff.mp h
  rw [tableEntries]
  simp only [hpadding]
  rw [int32At_of_eq_ok hlow, ok_bind, int32At_of_eq_ok hhigh, ok_bind]
  rw [tableCount] at h ⊢
  split at h
  · rename_i hrange
    rw [← h, if_pos hrange]
  · nomatch h

theorem lookupEntries_moved {pairs : Nat} (h : lookupEntries offset bytes = .ok pairs)
    (hpadding : padding (offset + places) = padding offset) :
    lookupEntries (offset + places) bytes = .ok pairs := by
  obtain ⟨count, hcount, h⟩ := bind_eq_ok_iff.mp h
  rw [lookupEntries]
  simp only [hpadding]
  rw [int32At_of_eq_ok hcount, ok_bind]
  rw [pairCount] at h ⊢
  split at h
  · rename_i hrange
    rw [← h, if_pos hrange]
  · nomatch h

theorem switchOperand_moved {entries : Nat → List UInt8 → Except DecodeError Nat}
    {skip header : Nat} {x : Instruction}
    (h : switchOperand entries skip header offset bytes = .ok x.operand)
    (hentries : ∀ count, entries offset bytes = .ok count →
      entries (offset + places) bytes = .ok count)
    (hpadding : padding (offset + places) = padding offset)
    (ht : ∀ t ∈ x.targets, t.toNat + places < UInt32.size) :
    switchOperand entries skip header (offset + places) bytes = .ok (x.operand.moved places) := by
  obtain ⟨distance, hdistance, h⟩ := bind_eq_ok_iff.mp h
  obtain ⟨fallback, hfallback, h⟩ := bind_eq_ok_iff.mp h
  obtain ⟨count, hcount, h⟩ := bind_eq_ok_iff.mp h
  obtain ⟨targets, htargets, h⟩ := bind_eq_ok_iff.mp h
  have hoperand := Except.ok.inj h
  rw [Instruction.targets, ← hoperand, List.forall_mem_cons] at ht
  -- The same bytes are looked at, since there are as many between the opcode and the header.
  rw [switchOperand]
  simp only [hpadding]
  rw [int32At_of_eq_ok hdistance, ok_bind, branchTarget_moved hfallback ht.1, ok_bind,
    hentries count hcount, ok_bind, ← List.map_nil, switchTargets_moved htargets ht.2, ← hoperand]
  rfl

theorem tableOperand_moved {x : Instruction} (h : tableOperand offset bytes = .ok x.operand)
    (hpadding : padding (offset + places) = padding offset)
    (ht : ∀ t ∈ x.targets, t.toNat + places < UInt32.size) :
    tableOperand (offset + places) bytes = .ok (x.operand.moved places) := by
  rw [tableOperand_eq] at h ⊢
  exact switchOperand_moved h (fun _ hcount => tableEntries_moved hcount hpadding) hpadding ht

theorem lookupOperand_moved {x : Instruction} (h : lookupOperand offset bytes = .ok x.operand)
    (hpadding : padding (offset + places) = padding offset)
    (ht : ∀ t ∈ x.targets, t.toNat + places < UInt32.size) :
    lookupOperand (offset + places) bytes = .ok (x.operand.moved places) := by
  rw [lookupOperand_eq] at h ⊢
  exact switchOperand_moved h (fun _ hcount => lookupEntries_moved hcount hpadding) hpadding ht

/-! ## Instructions -/

/-- An operand is read as before in another place, with the places in it moved. Only
a switch asks for the same padding. -/
theorem formatOperand_moved {format : Format} {x : Instruction}
    (h : formatOperand pool format offset bytes = .ok x.operand)
    (hpadding : x.operand.sort = .switch → padding (offset + places) = padding offset)
    (ht : ∀ t ∈ x.targets, t.toNat + places < UInt32.size) :
    formatOperand pool format (offset + places) bytes = .ok (x.operand.moved places) := by
  have hsort := sort_of_formatOperand h
  -- The readings are the same one after the other. Only the last step, which makes the
  -- operand of them, may note a place down.
  cases format with
  | plain | widened | implied value | impliedSlot index =>
    rw [← Except.ok.inj h]
    rfl
  | byteLiteral | slot | primitiveArray =>
    obtain ⟨b, hb, h⟩ := bind_eq_ok_iff.mp h
    rw [formatOperand, byteAt_of_eq_ok hb, ok_bind, ← Except.ok.inj h]
    rfl
  | shortLiteral =>
    obtain ⟨n, hn, h⟩ := bind_eq_ok_iff.mp h
    rw [formatOperand, int16At_of_eq_ok hn, ok_bind, ← Except.ok.inj h]
    rfl
  | nearLiteral =>
    obtain ⟨b, hb, h⟩ := bind_eq_ok_iff.mp h
    obtain ⟨value, hvalue, h⟩ := bind_eq_ok_iff.mp h
    rw [formatOperand, byteAt_of_eq_ok hb, ok_bind, resolve_of_eq_ok hvalue, ok_bind,
      ← Except.ok.inj h]
    rfl
  | farLiteral | field | dynamicCall | classRef | call =>
    obtain ⟨index, hindex, h⟩ := bind_eq_ok_iff.mp h
    obtain ⟨found, hfound, h⟩ := bind_eq_ok_iff.mp h
    rw [formatOperand, word16At_of_eq_ok hindex, ok_bind, resolve_of_eq_ok hfound, ok_bind,
      ← Except.ok.inj h]
    simp only [Operand.moved, furtherOn_ofNat]
    rfl
  | increment =>
    obtain ⟨b, hb, h⟩ := bind_eq_ok_iff.mp h
    obtain ⟨d, hd, h⟩ := bind_eq_ok_iff.mp h
    rw [formatOperand, byteAt_of_eq_ok hb, ok_bind, byteAt_of_eq_ok hd, ok_bind,
      ← Except.ok.inj h]
    rfl
  | jump =>
    obtain ⟨distance, hdistance, h⟩ := bind_eq_ok_iff.mp h
    obtain ⟨target, htarget, h⟩ := bind_eq_ok_iff.mp h
    have hoperand := Except.ok.inj h
    rw [Instruction.targets, ← hoperand, List.forall_mem_singleton] at ht
    rw [formatOperand, int16At_of_eq_ok hdistance, ok_bind, branchTarget_moved htarget ht, ok_bind,
      ← hoperand]
    rfl
  | farJump =>
    obtain ⟨distance, hdistance, h⟩ := bind_eq_ok_iff.mp h
    obtain ⟨target, htarget, h⟩ := bind_eq_ok_iff.mp h
    have hoperand := Except.ok.inj h
    rw [Instruction.targets, ← hoperand, List.forall_mem_singleton] at ht
    rw [formatOperand, int32At_of_eq_ok hdistance, ok_bind, branchTarget_moved htarget ht, ok_bind,
      ← hoperand]
    rfl
  | tableSwitch => exact tableOperand_moved h (hpadding hsort) ht
  | lookupSwitch => exact lookupOperand_moved h (hpadding hsort) ht
  | multiArray =>
    obtain ⟨index, hindex, h⟩ := bind_eq_ok_iff.mp h
    obtain ⟨name, hname, h⟩ := bind_eq_ok_iff.mp h
    obtain ⟨dimensions, hdimensions, h⟩ := bind_eq_ok_iff.mp h
    rw [formatOperand, word16At_of_eq_ok hindex, ok_bind, resolve_of_eq_ok hname, ok_bind,
      byteAt_of_eq_ok hdimensions, ok_bind, ← Except.ok.inj h]
    rfl

theorem widenedOperand_moved {x : Instruction}
    (h : widenedOperand offset bytes = .ok (x.opcode, x.operand)) :
    widenedOperand (offset + places) bytes = .ok (x.opcode, x.operand.moved places) := by
  obtain ⟨second, hsecond, h⟩ := bind_eq_ok_iff.mp h
  obtain ⟨index, hindex, h⟩ := bind_eq_ok_iff.mp h
  rw [widenedOperand, byteAt_of_eq_ok hsecond, ok_bind, word16At_of_eq_ok hindex, ok_bind]
  split at h
  · obtain ⟨delta, hdelta, h⟩ := bind_eq_ok_iff.mp h
    obtain ⟨hopcode, hoperand⟩ := Prod.mk.inj (Except.ok.inj h)
    simp only [int16At_of_eq_ok hdelta, ok_bind, ← hopcode, ← hoperand]
    rfl
  · obtain ⟨hopcode, hoperand⟩ := Prod.mk.inj (Except.ok.inj h)
    simp only [← hopcode, ← hoperand]
    rfl
  · cases h

/-- An instruction is read as before in another place, with the places in it
moved. -/
theorem operandAt_moved {x : Instruction}
    (h : operandAt pool offset bytes = .ok (x.opcode, x.operand))
    (hpadding : x.operand.sort = .switch → padding (offset + places) = padding offset)
    (ht : ∀ t ∈ x.targets, t.toNat + places < UInt32.size) :
    operandAt pool (offset + places) bytes = .ok (x.opcode, x.operand.moved places) := by
  obtain ⟨op, hop, h⟩ := bind_eq_ok_iff.mp h
  rw [operandAt, byteAt_of_eq_ok hop, ok_bind]
  split at h
  · exact widenedOperand_moved h
  · obtain ⟨operand, hoperand, h⟩ := bind_eq_ok_iff.mp h
    obtain ⟨hopcode, rfl⟩ := Prod.mk.inj (Except.ok.inj h)
    simp only [formatOperand_moved hoperand hpadding ht, ok_bind, ← hopcode]
    rfl
  · obtain ⟨hopcode, hoperand⟩ := Prod.mk.inj (Except.ok.inj h)
    simp only [← hopcode, ← hoperand]
    rfl

theorem sort_of_operandAt_format {op opcode : Opcode} {format : Format} {tail : List UInt8}
    {operand : Operand} (hformat : Format.of? op = some format) (hne : format ≠ .widened)
    (h : operandAt pool offset (op :: tail) = .ok (opcode, operand)) :
    operand.sort = format.operandSort := by
  rw [operandAt_format tail hformat (ne_wide_of_format hformat hne)] at h
  obtain ⟨_, hoperand, h⟩ := bind_eq_ok_iff.mp h
  obtain ⟨-, rfl⟩ := Prod.mk.inj (Except.ok.inj h)
  exact sort_of_formatOperand hoperand

/-- An instruction is as long as before in another place. Again only a switch asks for
the same padding. -/
theorem instructionLength_moved {n : Nat} {opcode : Opcode} {operand : Operand}
    (hlength : instructionLength offset bytes = .ok n)
    (h : operandAt pool offset bytes = .ok (opcode, operand))
    (hpadding : operand.sort = .switch → padding (offset + places) = padding offset) :
    instructionLength (offset + places) bytes = .ok n := by
  rw [instructionLength_eq_ok_iff] at hlength ⊢
  cases hlength with
  | fixed tail hformat hsize => exact .fixed tail hformat hsize
  | widened second tail => exact .widened second tail
  | @tableSwitch op tail entries hformat hentries =>
    have hpad := hpadding (sort_of_operandAt_format hformat nofun h)
    rw [← hpad]
    exact .tableSwitch hformat (tableEntries_moved hentries hpad)
  | @lookupSwitch op tail pairs hformat hpairs =>
    have hpad := hpadding (sort_of_operandAt_format hformat nofun h)
    rw [← hpad]
    exact .lookupSwitch hformat (lookupEntries_moved hpairs hpad)

/-- Code that is cut into instructions is cut the same way in another place. -/
theorem Decodes.moved {index : Nat} {xs : List Instruction}
    (h : Decodes pool offset index bytes xs) (places count : Nat)
    (halign : places % 4 = 0 ∨ ∀ x ∈ xs, x.operand.sort ≠ .switch)
    (ht : ∀ x ∈ xs, ∀ t ∈ x.targets, t.toNat + places < UInt32.size) :
    Decodes pool (offset + places) (index + count) bytes (xs.map (·.moved places count)) := by
  induction h with
  | nil offset index => exact .nil _ _
  | @cons offset index bytes rest opcode operand xs hlength hoperand _ ih =>
    rw [List.forall_mem_cons] at ht
    have hpadding : operand.sort = .switch → padding (offset + places) = padding offset := by
      intro hswitch
      rcases halign with hmod | hnone
      · exact padding_add hmod offset
      · exact absurd hswitch (hnone _ List.mem_cons_self)
    have hrest := ih (halign.imp_right fun hnone x hx => hnone x (List.mem_cons_of_mem _ hx)) ht.2
    rw [Nat.add_right_comm, Nat.add_right_comm index] at hrest
    rw [List.map_cons, Instruction.moved, furtherOn_ofNat]
    exact .cons (instructionLength_moved hlength hoperand hpadding)
      (operandAt_moved hoperand hpadding ht.1) hrest

/-! ## Concatenation -/

/-- Decoding turns code put one behind the other into instructions one behind the
other: those of the second part are moved behind the first. The second part must not
need another padding there, so either the first one ends at a multiple of four or the
second has no switch, and its targets must not be moved behind the last offset there
is. Then nothing that is moved wraps. -/
theorem decode_concat {a b : List UInt8} {xs ys : List Instruction} (ha : decode pool a = .ok xs)
    (hb : decode pool b = .ok ys)
    (halign : a.length % 4 = 0 ∨ ∀ y ∈ ys, y.operand.sort ≠ .switch)
    (hlength : a.length + b.length < UInt32.size)
    (htargets : ∀ y ∈ ys, ∀ t ∈ y.targets, t.toNat + a.length < UInt32.size) :
    decode pool (a ++ b) = .ok (xs ++ ys.map (·.moved a.length xs.length)) ∧
      ∀ y ∈ ys, y.Movable a.length := by
  have hfront := decode_eq_ok_iff.mp ha
  have hback := decode_eq_ok_iff.mp hb
  refine ⟨decode_eq_ok_iff.mpr (hfront.append (hback.moved _ _ halign htargets)), fun y hy => ?_⟩
  -- A call notes down the offset it stands at, which is one of the second part.
  have hoffset := (hback.offset_mem (by omega) y hy).2
  refine ⟨by omega, htargets y hy, fun site hsite => ?_⟩
  obtain ⟨category, hy⟩ := exists_wellSorted_of_decode hb hy
  rw [(hy.call site hsite).2]
  omega

/-- A table switch that goes back to itself, and a `return` behind it. -/
def selfSwitchCode : List UInt8 :=
  [0xaa, 0, 0, 0, 0, 0, 0, 20, 0, 0, 0, 5, 0, 0, 0, 5, 0, 0, 0, 0, 0xb1]

theorem decode_concat_selfSwitch :
    decode emptyPool [0x1a, 0x3b, 0x03, 0x57] =
      .ok [⟨0, 0, 0x1a, .slot 0⟩, ⟨1, 1, 0x3b, .slot 0⟩, ⟨2, 2, 0x03, .constant (.int 0)⟩,
        ⟨3, 3, 0x57, .plain⟩] ∧
    decode emptyPool selfSwitchCode =
      .ok [⟨0, 0, 0xaa, .switch 20 [0]⟩, ⟨1, 20, 0xb1, .plain⟩] ∧
    decode emptyPool ([0x1a, 0x3b, 0x03, 0x57] ++ selfSwitchCode) =
      .ok [⟨0, 0, 0x1a, .slot 0⟩, ⟨1, 1, 0x3b, .slot 0⟩, ⟨2, 2, 0x03, .constant (.int 0)⟩,
        ⟨3, 3, 0x57, .plain⟩, ⟨4, 4, 0xaa, .switch 24 [4]⟩, ⟨5, 24, 0xb1, .plain⟩] := by
  have hfront : Decodes emptyPool 0 0
      ([0x1a] ++ ([0x3b] ++ ([0x03] ++ ([0x57] ++ []))))
      [⟨0, 0, 0x1a, .slot 0⟩, ⟨1, 1, 0x3b, .slot 0⟩, ⟨2, 2, 0x03, .constant (.int 0)⟩,
        ⟨3, 3, 0x57, .plain⟩] :=
    .cons rfl rfl (.cons rfl rfl (.cons rfl rfl (.cons rfl rfl (.nil 4 4))))
  have hback : Decodes emptyPool 0 0
      ([0xaa, 0, 0, 0, 0, 0, 0, 20, 0, 0, 0, 5, 0, 0, 0, 5, 0, 0, 0, 0] ++ ([0xb1] ++ []))
      [⟨0, 0, 0xaa, .switch 20 [0]⟩, ⟨1, 20, 0xb1, .plain⟩] :=
    .cons rfl rfl (.cons rfl rfl (.nil 21 2))
  have ha := decode_eq_ok_iff.mpr hfront
  have hb := decode_eq_ok_iff.mpr hback
  refine ⟨ha, hb, (decode_concat ha hb (.inl rfl) (by decide) ?_).1⟩
  simp [Instruction.targets, UInt32.size]

end Code

end ClassLens
