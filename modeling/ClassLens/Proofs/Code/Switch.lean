/-
Switches: reading a written switch back.

A switch is the one instruction whose layout depends on where it stands: its
operands start at a multiple of four, and the padding before them is whatever
the writer left there. Its length depends on a count read from the code, too. A
table gives the count by its lowest and its highest value and a list of pairs
gives it outright, and both counts fit into 31 bits because the code is shorter
than `UInt32.size`.

Both kinds are shown to have the right length and the right targets, each from
the layout of its bytes and the count of its entries. The entries themselves are
read by one loop, and so there is one lemma about them.
-/
import ClassLens.Proofs.Code.Length
import ClassLens.Proofs.Code.Written

set_option autoImplicit false

namespace ClassLens.Code

namespace Written

variable {pool : Pool} {offset : Nat}

/-! ## Padding and targets -/

theorem branchTarget_of_reaches {distance : Int} (h : Reaches offset distance) :
    branchTarget offset distance = .ok (jumpTarget offset distance) :=
  if_pos h

theorem padding_eq {pad : List UInt8} (h : Aligns offset pad) : padding offset = pad.length := by
  obtain ⟨hlt, hmod⟩ := h
  rw [padding]
  omega

/-- Behind opcode and padding stand the operands of a switch. -/
theorem drop_padding {pad : List UInt8} (h : Aligns offset pad) (op : Opcode)
    (operands : List UInt8) :
    (op :: (pad ++ operands)).drop (1 + padding offset) = operands := by
  rw [padding_eq h, Nat.add_comm, List.drop_succ_cons, List.drop_left]

theorem drop_padding_add {pad : List UInt8} (h : Aligns offset pad) (op : Opcode)
    (operands : List UInt8) (k : Nat) :
    (op :: (pad ++ operands)).drop (1 + padding offset + k) = operands.drop k := by
  rw [← List.drop_drop, drop_padding h]

theorem drop_bigEndian32 (word : UInt32) (operands : List UInt8) :
    (bigEndian32 word ++ operands).drop 4 = operands := rfl

theorem drop_two_bigEndian32 (word word' : UInt32) (operands : List UInt8) :
    (bigEndian32 word ++ (bigEndian32 word' ++ operands)).drop 8 = operands := rfl

theorem drop_three_bigEndian32 (word word' word'' : UInt32) (operands : List UInt8) :
    (bigEndian32 word ++ (bigEndian32 word' ++ (bigEndian32 word'' ++ operands))).drop 12 =
      operands := rfl

/-- The entries of a switch, each a distance behind `skip` bytes of a key, give
their targets. -/
theorem switchTargets_flatMap {α : Type} (skip : Nat) (key : α → List UInt8)
    (distance : α → Int32) (hkey : ∀ x, (key x).length = skip) (xs : List α)
    (hreach : ∀ x ∈ xs, Reaches offset (distance x).toInt) (rest : List UInt8) (place : Nat)
    (read : List UInt32) :
    switchTargets offset skip xs.length place
        ((xs.flatMap fun x => key x ++ bigEndian32 (distance x).toUInt32) ++ rest) read =
      .ok (read.reverse ++ xs.map fun x => jumpTarget offset (distance x).toInt) := by
  induction xs generalizing place read with
  | nil => rw [List.length_nil, switchTargets, List.map_nil, List.append_nil]
  | cons x xs ih =>
    obtain ⟨htarget, hreach⟩ := List.forall_mem_cons.mp hreach
    -- The loop skips the key, reads the distance, and is behind the entry then.
    rw [List.flatMap_cons, List.append_assoc, List.append_assoc, List.length_cons, switchTargets,
      List.drop_left' (hkey x), int32At_bigEndian32, ← List.drop_drop, List.drop_left' (hkey x),
      drop_bigEndian32, ok_bind, branchTarget_of_reaches htarget, ok_bind, ih hreach,
      List.reverse_cons, List.append_assoc, List.map_cons, List.singleton_append]

theorem length_flatMap_eq {α : Type} (f : α → List UInt8) (k : Nat) (xs : List α)
    (h : ∀ x ∈ xs, (f x).length = k) : (xs.flatMap f).length = k * xs.length := by
  rw [List.length_flatMap, List.map_congr_left h, List.map_const', List.sum_replicate_nat,
    Nat.mul_comm]

/-! ## Tables -/

section TableSwitch

variable {pad : List UInt8} {fallback low : Int32} {distances : List Int32}

theorem tableSwitch_append (rest : List UInt8) :
    (tableSwitch pad fallback low distances).bytes ++ rest =
      0xaa :: (pad ++ (bigEndian32 fallback.toUInt32 ++ (bigEndian32 low.toUInt32 ++
        (bigEndian32 (Int32.ofInt (tableHigh low distances)).toUInt32 ++
          ((distances.flatMap fun distance => bigEndian32 distance.toUInt32) ++ rest))))) := by
  simp only [bytes, isWidened, operandBytes, opcode, Bool.false_eq_true, if_false, List.nil_append,
    List.cons_append, List.append_assoc]

theorem length_tableSwitch :
    (tableSwitch pad fallback low distances).bytes.length =
      1 + pad.length + 12 + 4 * distances.length := by
  have hentries := length_flatMap_eq (fun distance : Int32 => bigEndian32 distance.toUInt32) 4
    distances fun _ _ => rfl
  rw [← List.append_nil (bytes _), tableSwitch_append]
  simp only [List.length_cons, List.length_append, length_bigEndian32, List.length_nil, hentries]
  omega

/-- The count is right as long as the table is shorter than `UInt32.size` bytes. -/
theorem tableEntries_bytes (h : (tableSwitch pad fallback low distances).Fits pool offset)
    (hlength : (tableSwitch pad fallback low distances).bytes.length < UInt32.size)
    (rest : List UInt8) :
    tableEntries offset ((tableSwitch pad fallback low distances).bytes ++ rest) =
      .ok distances.length := by
  obtain ⟨halign, -, -, hmin, hmax⟩ := h
  rw [length_tableSwitch, UInt32.size] at hlength
  rw [Int32.toInt_minValue] at hmin
  rw [Int32.toInt_maxValue] at hmax
  have hhigh : (Int32.ofInt (tableHigh low distances)).toInt = tableHigh low distances :=
    Int32.toInt_ofInt_of_le hmin (by omega)
  -- The highest value is written as a word, and reading it back loses nothing.
  have hcount : (Int32.ofInt (tableHigh low distances)).toInt - low.toInt + 1 =
      distances.length := by
    rw [hhigh, tableHigh]
    omega
  rw [tableSwitch_append, tableEntries]
  simp only [drop_padding_add halign, drop_bigEndian32, drop_two_bigEndian32,
    int32At_bigEndian32, ok_bind, tableCount, hcount]
  rw [if_pos (by omega), Int.toNat_natCast]

theorem instructionLength_tableSwitch_bytes
    (h : (tableSwitch pad fallback low distances).Fits pool offset)
    (hlength : (tableSwitch pad fallback low distances).bytes.length < UInt32.size)
    (rest : List UInt8) :
    instructionLength offset ((tableSwitch pad fallback low distances).bytes ++ rest) =
      .ok (tableSwitch pad fallback low distances).bytes.length := by
  have hentries := tableEntries_bytes h hlength rest
  rw [length_tableSwitch, ← padding_eq h.1]
  rw [tableSwitch_append] at hentries ⊢
  exact instructionLength_eq_ok_iff.mpr (.tableSwitch rfl hentries)

theorem tableOperand_bytes (h : (tableSwitch pad fallback low distances).Fits pool offset)
    (hlength : (tableSwitch pad fallback low distances).bytes.length < UInt32.size)
    (rest : List UInt8) :
    tableOperand offset ((tableSwitch pad fallback low distances).bytes ++ rest) =
      .ok ((tableSwitch pad fallback low distances).operand offset) := by
  have hentries := tableEntries_bytes h hlength rest
  obtain ⟨halign, hfallback, hreach, -, -⟩ := h
  -- The entries of a table are distances with no key in front of them.
  have htargets (place : Nat) : switchTargets offset 0 distances.length place
      ((distances.flatMap fun distance => bigEndian32 distance.toUInt32) ++ rest) [] =
        .ok (distances.map fun distance => jumpTarget offset distance.toInt) :=
    switchTargets_flatMap 0 (fun _ => []) id (fun _ => rfl) distances hreach rest place []
  rw [tableSwitch_append] at hentries ⊢
  rw [tableOperand]
  simp only [hentries, drop_padding halign, drop_padding_add halign, drop_three_bigEndian32,
    int32At_bigEndian32, branchTarget_of_reaches hfallback, ok_bind]
  rw [htargets]
  rfl

end TableSwitch

/-! ## Lists of pairs -/

section LookupSwitch

variable {pad : List UInt8} {fallback : Int32} {pairs : List (Int32 × Int32)}

theorem lookupSwitch_append (rest : List UInt8) :
    (lookupSwitch pad fallback pairs).bytes ++ rest =
      0xab :: (pad ++ (bigEndian32 fallback.toUInt32 ++
        (bigEndian32 (Int32.ofInt pairs.length).toUInt32 ++
          ((pairs.flatMap fun pair => bigEndian32 pair.1.toUInt32 ++
            bigEndian32 pair.2.toUInt32) ++ rest)))) := by
  simp only [bytes, isWidened, operandBytes, opcode, Bool.false_eq_true, if_false, List.nil_append,
    List.cons_append, List.append_assoc]

theorem length_lookupSwitch :
    (lookupSwitch pad fallback pairs).bytes.length = 1 + pad.length + 8 + 8 * pairs.length := by
  have hentries := length_flatMap_eq (fun pair : Int32 × Int32 =>
    bigEndian32 pair.1.toUInt32 ++ bigEndian32 pair.2.toUInt32) 8 pairs fun _ _ => rfl
  rw [← List.append_nil (bytes _), lookupSwitch_append]
  simp only [List.length_cons, List.length_append, length_bigEndian32, List.length_nil, hentries]
  omega

/-- The count is right as long as the pairs take less than `UInt32.size` bytes. -/
theorem lookupEntries_bytes (h : (lookupSwitch pad fallback pairs).Fits pool offset)
    (hlength : (lookupSwitch pad fallback pairs).bytes.length < UInt32.size) (rest : List UInt8) :
    lookupEntries offset ((lookupSwitch pad fallback pairs).bytes ++ rest) =
      .ok pairs.length := by
  rw [length_lookupSwitch, UInt32.size] at hlength
  -- Each pair takes eight bytes, so there are less than `2 ^ 29`.
  have hcount : (Int32.ofInt pairs.length).toInt = pairs.length :=
    Int32.toInt_ofInt_of_le (by omega) (by omega)
  rw [lookupSwitch_append, lookupEntries]
  simp only [drop_padding_add h.1, drop_bigEndian32, int32At_bigEndian32, ok_bind, pairCount,
    hcount]
  rw [if_pos (by omega), Int.toNat_natCast]

theorem instructionLength_lookupSwitch_bytes
    (h : (lookupSwitch pad fallback pairs).Fits pool offset)
    (hlength : (lookupSwitch pad fallback pairs).bytes.length < UInt32.size) (rest : List UInt8) :
    instructionLength offset ((lookupSwitch pad fallback pairs).bytes ++ rest) =
      .ok (lookupSwitch pad fallback pairs).bytes.length := by
  have hpairs := lookupEntries_bytes h hlength rest
  rw [length_lookupSwitch, ← padding_eq h.1]
  rw [lookupSwitch_append] at hpairs ⊢
  exact instructionLength_eq_ok_iff.mpr (.lookupSwitch rfl hpairs)

theorem lookupOperand_bytes (h : (lookupSwitch pad fallback pairs).Fits pool offset)
    (hlength : (lookupSwitch pad fallback pairs).bytes.length < UInt32.size) (rest : List UInt8) :
    lookupOperand offset ((lookupSwitch pad fallback pairs).bytes ++ rest) =
      .ok ((lookupSwitch pad fallback pairs).operand offset) := by
  have hpairs := lookupEntries_bytes h hlength rest
  obtain ⟨halign, hfallback, hreach⟩ := h
  have htargets := switchTargets_flatMap 4
    (fun pair : Int32 × Int32 => bigEndian32 pair.1.toUInt32) Prod.snd (fun _ => rfl) pairs hreach
    rest
  rw [lookupSwitch_append] at hpairs ⊢
  rw [lookupOperand]
  simp only [hpairs, drop_padding halign, drop_padding_add halign, drop_two_bigEndian32,
    int32At_bigEndian32, branchTarget_of_reaches hfallback, ok_bind]
  rw [htargets]
  rfl

end LookupSwitch

end Written

end ClassLens.Code
