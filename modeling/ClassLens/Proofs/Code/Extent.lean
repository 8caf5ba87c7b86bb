/-
Extents: what is read of an instruction lies inside it.

The length of an instruction is found by one walk over its layout, and the
operand is read by another. The two have to agree: an operand that reached
behind the length would depend on the next instruction, and at the end of the
code it would fail there. They do, for every format, every alignment and every
count of a switch.

`Confined` is what that means for one reader, and it is closed under sequences.
So each format needs no more than the distances it reads at, and these are held
against its length. What comes of it is that a piece of code reads the same with
anything behind it, and that pieces can be put one behind the other
(`Decodes.append`).
-/
import ClassLens.Proofs.Code.OperandSort

set_option autoImplicit false

namespace ClassLens.Code

/-! ## Readers that keep to a front -/

/-- What `read` says of bytes that start with `front` it says of `front` alone.
Where it fails, it does so for a reason other than the end of the code, and
blames the offset of the instruction. -/
structure Confined {α : Type} (offset : Nat) (front : List UInt8)
    (read : List UInt8 → Except DecodeError α) : Prop where
  append : ∀ rest, read (front ++ rest) = read front
  blame : ∀ e, read front = .error e → e.offset = UInt32.ofNat offset ∧ e.cause ≠ .endOfCode

namespace Confined

variable {α β : Type} {offset : Nat} {front : List UInt8}

/-- What looks at no bytes is confined as long as it puts the blame right. -/
theorem const {x : Except DecodeError α}
    (h : ∀ e, x = .error e → e.offset = UInt32.ofNat offset ∧ e.cause ≠ .endOfCode) :
    Confined offset front fun _ => x :=
  ⟨fun _ => rfl, h⟩

theorem ok (a : α) : Confined offset front fun _ => .ok a :=
  const fun _ h => nomatch h

theorem error {cause : DecodeCause} (h : cause ≠ .endOfCode) :
    Confined offset front fun _ => (.error (.at offset cause) : Except DecodeError α) :=
  const fun e he => by
    obtain rfl := Except.error.inj he
    exact ⟨rfl, h⟩

/-- What is checked of numbers already read needs no bytes. -/
theorem check {p : Prop} [Decidable p] {cause : DecodeCause} (a : α) (h : cause ≠ .endOfCode) :
    Confined offset front fun _ => if p then .ok a else .error (.at offset cause) := by
  split
  · exact .ok a
  · exact .error h

/-- A sequence is confined if its steps are, the second one after what the first
one finds. -/
theorem bind {read : List UInt8 → Except DecodeError α}
    {next : α → List UInt8 → Except DecodeError β} (hread : Confined offset front read)
    (hnext : ∀ a, read front = .ok a → Confined offset front (next a)) :
    Confined offset front fun bytes => read bytes >>= fun a => next a bytes := by
  refine ⟨fun rest => ?_, fun e he => ?_⟩
  · show read (front ++ rest) >>= _ = read front >>= _
    rw [hread.append rest]
    cases hx : read front with
    | error e => rfl
    | ok a => exact (hnext a hx).append rest
  · cases hx : read front with
    | error e' =>
      rw [hx] at he
      obtain rfl : e' = e := Except.error.inj he
      exact hread.blame e' hx
    | ok a =>
      rw [hx, ok_bind] at he
      exact (hnext a hx).blame e he

/-- Readers that agree behind the front are confined together. -/
theorem congr {read other : List UInt8 → Except DecodeError α}
    (h : ∀ rest, read (front ++ rest) = other (front ++ rest))
    (hother : Confined offset front other) : Confined offset front read := by
  have hfront : read front = other front := by simpa using h []
  refine ⟨fun rest => ?_, fun e he => hother.blame e (by rw [← hfront, he])⟩
  rw [h, hother.append, hfront]

/-! ### Numbers -/

/-- A number is read off the bytes it takes, so it is enough that they lie in the
front. -/
theorem number {read : List UInt8 → Except DecodeError α} {k n : Nat}
    (hread : ∀ l : List UInt8, n ≤ l.length → ∃ a, ∀ rest, read (l ++ rest) = .ok a)
    (hk : k + n ≤ front.length) : Confined offset front fun bytes => read (bytes.drop k) := by
  obtain ⟨a, ha⟩ := hread (front.drop k) (by rw [List.length_drop]; omega)
  have hfront : read (front.drop k) = .ok a := by simpa using ha []
  refine ⟨fun rest => ?_, fun e he => ?_⟩
  · show read ((front ++ rest).drop k) = read (front.drop k)
    rw [List.drop_append_of_le_length (by omega), ha, hfront]
  · rw [hfront] at he
    nomatch he

variable {k : Nat} (place : Nat)

theorem byteAt (hk : k + 1 ≤ front.length) :
    Confined offset front fun bytes => Code.byteAt place (bytes.drop k) :=
  number (fun
    | b :: _, _ => ⟨b, fun _ => rfl⟩) hk

theorem word16At (hk : k + 2 ≤ front.length) :
    Confined offset front fun bytes => Code.word16At place (bytes.drop k) :=
  number (fun
    | a :: b :: _, _ => ⟨word16 a b, fun _ => rfl⟩) hk

theorem int16At (hk : k + 2 ≤ front.length) :
    Confined offset front fun bytes => Code.int16At place (bytes.drop k) :=
  number (fun
    | a :: b :: _, _ => ⟨(word16 a b).toInt16, fun _ => rfl⟩) hk

theorem int32At (hk : k + 4 ≤ front.length) :
    Confined offset front fun bytes => Code.int32At place (bytes.drop k) :=
  number (fun
    | a :: b :: c :: d :: _, _ => ⟨(word32 a b c d).toInt32, fun _ => rfl⟩) hk

end Confined

/-! ## Checks -/

section Checks

variable {offset : Nat} {front : List UInt8}

theorem confined_branchTarget (distance : Int) :
    Confined offset front fun _ => branchTarget offset distance :=
  .check _ nofun

theorem confined_tableCount (low high : Int32) :
    Confined offset front fun _ => tableCount offset low high :=
  .check _ nofun

theorem confined_pairCount (count : Int32) :
    Confined offset front fun _ => pairCount offset count :=
  .check _ nofun

theorem confined_resolve {α : Type} {cause : DecodeCause} (hcause : cause ≠ .endOfCode)
    (found? : Option α) : Confined offset front fun _ => resolve offset cause found? := by
  cases found? with
  | none => exact .error hcause
  | some found => exact .ok found

end Checks

/-! ## Switches -/

section Switches

variable {offset : Nat} {front : List UInt8}

theorem confined_tableEntries (h : 1 + padding offset + 12 ≤ front.length) :
    Confined offset front (tableEntries offset) :=
  (Confined.int32At _ (by omega)).bind fun low _ =>
    (Confined.int32At _ (by omega)).bind fun high _ => confined_tableCount low high

theorem confined_lookupEntries (h : 1 + padding offset + 8 ≤ front.length) :
    Confined offset front (lookupEntries offset) :=
  (Confined.int32At _ (by omega)).bind fun count _ => confined_pairCount count

/-- The entries of a switch are confined if the last of them ends in the
front. -/
theorem confined_switchTargets {skip count k : Nat} (place : Nat) (read : List UInt32)
    (h : k + count * (skip + 4) ≤ front.length) :
    Confined offset front fun bytes =>
      switchTargets offset skip count place (bytes.drop k) read := by
  induction count generalizing k place read with
  | zero => exact .ok read.reverse
  | succ count ih =>
    rw [Nat.succ_mul] at h
    -- The rest of the entries starts behind this one, whatever this one holds.
    have hbytes : (fun bytes : List UInt8 =>
        switchTargets offset skip (count + 1) place (bytes.drop k) read) = fun bytes =>
          int32At (place + skip) (bytes.drop (k + skip)) >>= fun distance =>
            branchTarget offset distance.toInt >>= fun target =>
              switchTargets offset skip count (place + skip + 4) (bytes.drop (k + (skip + 4)))
                (target :: read) := by
      funext bytes
      rw [switchTargets, List.drop_drop, List.drop_drop]
    rw [hbytes]
    exact (Confined.int32At _ (by omega)).bind fun distance _ =>
      (confined_branchTarget _).bind fun target _ => ih _ _ (by omega)

/-- The operand of either switch. The fallback stands first in the header, which is
`header` bytes long and says how many entries there are; in each of these the distance
stands behind `skip` other bytes. -/
def switchOperand (entries : Nat → List UInt8 → Except DecodeError Nat) (skip header offset : Nat)
    (bytes : List UInt8) : Except DecodeError Operand := do
  let start := 1 + padding offset
  let distance ← int32At (offset + start) (bytes.drop start)
  let fallback ← branchTarget offset distance.toInt
  let count ← entries offset bytes
  let targets ←
    switchTargets offset skip count (offset + start + header) (bytes.drop (start + header)) []
  return .switch fallback targets

theorem tableOperand_eq : tableOperand = switchOperand tableEntries 0 12 := rfl

theorem lookupOperand_eq : lookupOperand = switchOperand lookupEntries 4 8 := rfl

theorem confined_switchOperand {entries : Nat → List UInt8 → Except DecodeError Nat}
    {skip header count : Nat} (hentries : Confined offset front (entries offset))
    (hcount : entries offset front = .ok count) (hheader : 4 ≤ header)
    (h : 1 + padding offset + header + count * (skip + 4) ≤ front.length) :
    Confined offset front (switchOperand entries skip header offset) := by
  refine (Confined.int32At _ (by omega)).bind fun distance _ =>
    (confined_branchTarget _).bind fun fallback _ => hentries.bind fun found hfound => ?_
  -- What is found here is the count that the room in the front is for.
  rw [hcount] at hfound
  obtain rfl := Except.ok.inj hfound
  exact (confined_switchTargets _ [] h).bind fun targets _ => .ok _

end Switches

/-! ## Instructions -/

/-- The opcode `iinc` is the only one that increments. -/
theorem Format.of?_eq_increment_iff (op : Opcode) :
    Format.of? op = some .increment ↔ op = Opcode.iinc := by
  revert op
  apply forall_opcode
  decide +kernel

variable {pool : Pool} {offset : Nat}

/-- A format with a size is read inside that size. -/
theorem confined_formatOperand {front : List UInt8} {format : Format} {n : Nat}
    (hsize : format.size? = some n) (hn : n ≤ front.length) :
    Confined offset front (formatOperand pool format offset) := by
  cases format with
  | widened | tableSwitch | lookupSwitch => simp [Format.size?] at hsize
  | plain | implied value | impliedSlot index => exact .ok _
  | byteLiteral | slot | primitiveArray =>
    obtain rfl := Option.some.inj hsize
    exact (Confined.byteAt _ (by omega)).bind fun b _ => .ok _
  | shortLiteral =>
    obtain rfl := Option.some.inj hsize
    exact (Confined.int16At _ (by omega)).bind fun value _ => .ok _
  | nearLiteral =>
    obtain rfl := Option.some.inj hsize
    exact (Confined.byteAt _ (by omega)).bind fun index _ =>
      (confined_resolve (by simp) _).bind fun value _ => .ok _
  | farLiteral | field | dynamicCall | classRef =>
    obtain rfl := Option.some.inj hsize
    exact (Confined.word16At _ (by omega)).bind fun index _ =>
      (confined_resolve (by simp) _).bind fun found _ => .ok _
  | call kind =>
    have hthree : 3 ≤ n := by
      cases kind <;> simp only [Format.size?, Option.some.injEq] at hsize <;> omega
    exact (Confined.word16At _ (by omega)).bind fun index _ =>
      (confined_resolve (by simp) _).bind fun ref _ => .ok _
  | increment =>
    obtain rfl := Option.some.inj hsize
    exact (Confined.byteAt _ (by omega)).bind fun index _ =>
      (Confined.byteAt _ (by omega)).bind fun delta _ => .ok _
  | jump =>
    obtain rfl := Option.some.inj hsize
    exact (Confined.int16At _ (by omega)).bind fun distance _ =>
      (confined_branchTarget _).bind fun target _ => .ok _
  | farJump =>
    obtain rfl := Option.some.inj hsize
    exact (Confined.int32At _ (by omega)).bind fun distance _ =>
      (confined_branchTarget _).bind fun target _ => .ok _
  | multiArray =>
    obtain rfl := Option.some.inj hsize
    exact (Confined.word16At _ (by omega)).bind fun index _ =>
      (confined_resolve (by simp) _).bind fun name _ =>
        (Confined.byteAt _ (by omega)).bind fun dimensions _ => .ok _

/-- Behind `wide` there are two bytes more for an increment, and it alone has
something to read there. -/
theorem confined_widenedOperand {second : Opcode} {tail : List UInt8}
    (h : (if second = Opcode.iinc then 6 else 4) ≤ (Opcode.wide :: second :: tail).length) :
    Confined offset (Opcode.wide :: second :: tail) (widenedOperand offset) := by
  have hfour : 4 ≤ (Opcode.wide :: second :: tail).length := by
    split at h <;> omega
  refine (Confined.byteAt _ (by omega)).bind fun op hop =>
    (Confined.word16At _ (by omega)).bind fun index _ => ?_
  obtain rfl : second = op := Except.ok.inj hop
  split
  · rename_i hformat
    rw [if_pos ((Format.of?_eq_increment_iff second).mp hformat)] at h
    exact (Confined.int16At _ (by omega)).bind fun delta _ => .ok _
  · exact .ok _
  · exact .error nofun

theorem ne_wide_of_format {op : Opcode} {format : Format} (hformat : Format.of? op = some format)
    (hne : format ≠ .widened) : op ≠ Opcode.wide := by
  rintro rfl
  rw [(Format.of?_eq_widened_iff _).mpr rfl] at hformat
  exact hne (Option.some.inj hformat).symm

theorem confined_operandAt_format {op : Opcode} {format : Format} {tail : List UInt8}
    (hformat : Format.of? op = some format) (hne : format ≠ .widened)
    (h : Confined offset (op :: tail) (formatOperand pool format offset)) :
    Confined offset (op :: tail) (operandAt pool offset) :=
  .congr (fun rest => operandAt_format (tail ++ rest) hformat (ne_wide_of_format hformat hne))
    (h.bind fun _ _ => .ok _)

/-- An instruction is read inside its length, if the code goes on for that
long. -/
theorem confined_operandAt {front : List UInt8} {n : Nat}
    (hlength : instructionLength offset front = .ok n) (hn : n ≤ front.length) :
    Confined offset front (operandAt pool offset) := by
  cases instructionLength_eq_ok_iff.mp hlength with
  | widened second tail =>
    exact .congr (fun rest => operandAt_wide (second :: (tail ++ rest)))
      (confined_widenedOperand hn)
  | @fixed op format n tail hformat hsize =>
    have hne : format ≠ .widened := by
      rintro rfl
      simp [Format.size?] at hsize
    exact confined_operandAt_format hformat hne (confined_formatOperand hsize hn)
  | tableSwitch hformat hentries =>
    refine confined_operandAt_format hformat (by simp) ?_
    show Confined offset _ (tableOperand offset)
    rw [tableOperand_eq]
    exact confined_switchOperand (confined_tableEntries (by omega)) hentries (by omega) (by omega)
  | lookupSwitch hformat hpairs =>
    refine confined_operandAt_format hformat (by simp) ?_
    show Confined offset _ (lookupOperand offset)
    rw [lookupOperand_eq]
    exact confined_switchOperand (confined_lookupEntries (by omega)) hpairs (by omega) (by omega)

theorem exists_eq_cons_of_append_eq {front rest tail : List UInt8} {b : UInt8}
    (h : front ++ rest = b :: tail) (hpos : 1 ≤ front.length) :
    ∃ behind, front = b :: behind ∧ behind ++ rest = tail := by
  rcases List.append_eq_cons_iff.mp h with ⟨rfl, -⟩ | ⟨behind, rfl, htail⟩
  · simp at hpos
  · exact ⟨behind, rfl, htail.symm⟩

/-- The length of an instruction goes by the bytes of the instruction alone. -/
theorem instructionLength_append {front rest : List UInt8} {n : Nat}
    (h : instructionLength offset (front ++ rest) = .ok n) (hn : n ≤ front.length)
    (other : List UInt8) : instructionLength offset (front ++ other) = .ok n := by
  have hpos : 1 ≤ front.length := Nat.le_trans (one_le_of_instructionLength h) hn
  rw [instructionLength_eq_ok_iff] at h ⊢
  generalize hbytes : front ++ rest = bytes at h
  cases h with
  | fixed tail hformat hsize =>
    obtain ⟨behind, rfl, -⟩ := exists_eq_cons_of_append_eq hbytes hpos
    exact .fixed _ hformat hsize
  | widened second tail =>
    obtain ⟨behind, rfl, htail⟩ := exists_eq_cons_of_append_eq hbytes hpos
    have htwo : 1 ≤ behind.length := by
      rw [List.length_cons] at hn
      split at hn <;> omega
    obtain ⟨behind, rfl, -⟩ := exists_eq_cons_of_append_eq htail htwo
    exact .widened second _
  -- The counts stand in the front, so they are the same with any rest.
  | tableSwitch hformat hentries =>
    rw [← hbytes, (confined_tableEntries (by omega)).append rest] at hentries
    obtain ⟨behind, rfl, -⟩ := exists_eq_cons_of_append_eq hbytes hpos
    exact .tableSwitch hformat
      (((confined_tableEntries (by omega)).append other).trans hentries)
  | lookupSwitch hformat hpairs =>
    rw [← hbytes, (confined_lookupEntries (by omega)).append rest] at hpairs
    obtain ⟨behind, rfl, -⟩ := exists_eq_cons_of_append_eq hbytes hpos
    exact .lookupSwitch hformat
      (((confined_lookupEntries (by omega)).append other).trans hpairs)

/-! ## Pieces one behind the other -/

/-- What is cut into instructions can be put in front of other such code. -/
theorem Decodes.append {index : Nat} {front back : List UInt8} {xs ys : List Instruction}
    (hfront : Decodes pool offset index front xs)
    (hback : Decodes pool (offset + front.length) (index + xs.length) back ys) :
    Decodes pool offset index (front ++ back) (xs ++ ys) := by
  induction hfront with
  | nil offset index => exact hback
  | @cons offset index bytes rest opcode operand xs hlength hoperand _ ih =>
    have hbytes := instructionLength_append hlength (Nat.le_refl _)
    have hpiece : instructionLength offset bytes = .ok bytes.length := by simpa using hbytes []
    have hconfined : Confined offset bytes (operandAt pool offset) :=
      confined_operandAt hpiece (Nat.le_refl _)
    rw [List.append_assoc, List.cons_append]
    -- The operand was read with one rest behind it and is read with another.
    refine .cons (hbytes _) ?_ (ih ?_)
    · rw [hconfined.append, ← hoperand, hconfined.append]
    · rwa [List.length_append, ← Nat.add_assoc, List.length_cons, Nat.add_comm xs.length,
        ← Nat.add_assoc] at hback

/-! ## The room of a switch -/

/-- How many targets a switch says it has. Room is made for that many before the
first of them is read. No other instruction has any. -/
def statedTargets (offset : Nat) (bytes : List UInt8) : Except DecodeError Nat := do
  let op ← byteAt offset bytes
  match Format.of? op with
  | some .tableSwitch => tableEntries offset bytes
  | some .lookupSwitch => lookupEntries offset bytes
  | _ => return 0

/-- Each stated target takes at least four bytes of the length. -/
theorem exists_statedTargets {bytes : List UInt8} {n : Nat}
    (h : instructionLength offset bytes = .ok n) :
    ∃ count, statedTargets offset bytes = .ok count ∧ 4 * count ≤ n := by
  cases instructionLength_eq_ok_iff.mp h with
  | @fixed op format n tail hformat hsize =>
    refine ⟨0, ?_, by omega⟩
    rw [statedTargets, byteAt_cons, ok_bind]
    cases format with
    | tableSwitch | lookupSwitch => simp [Format.size?] at hsize
    | _ => simp only [hformat]; rfl
  | widened second tail =>
    refine ⟨0, ?_, by omega⟩
    rw [statedTargets, byteAt_cons, ok_bind, (Format.of?_eq_widened_iff _).mpr rfl]
    rfl
  | @tableSwitch op tail entries hformat hentries =>
    refine ⟨entries, ?_, by omega⟩
    rw [statedTargets, byteAt_cons, ok_bind, hformat]
    exact hentries
  | @lookupSwitch op tail pairs hformat hpairs =>
    refine ⟨pairs, ?_, by omega⟩
    rw [statedTargets, byteAt_cons, ok_bind, hformat]
    exact hpairs

theorem length_of_switchTargets {skip count place : Nat} {bytes : List UInt8}
    {read targets : List UInt32}
    (h : switchTargets offset skip count place bytes read = .ok targets) :
    targets.length = read.length + count := by
  induction count generalizing place bytes read with
  | zero =>
    rw [← Except.ok.inj h, List.length_reverse, Nat.add_zero]
  | succ count ih =>
    obtain ⟨distance, -, h⟩ := bind_eq_ok_iff.mp h
    obtain ⟨target, -, h⟩ := bind_eq_ok_iff.mp h
    rw [ih h, List.length_cons, Nat.add_assoc, Nat.add_comm 1]

theorem length_of_switchOperand {entries : Nat → List UInt8 → Except DecodeError Nat}
    {skip header : Nat} {bytes : List UInt8} {fallback : UInt32} {targets : List UInt32}
    (h : switchOperand entries skip header offset bytes = .ok (.switch fallback targets)) :
    entries offset bytes = .ok targets.length := by
  obtain ⟨distance, -, h⟩ := bind_eq_ok_iff.mp h
  obtain ⟨_, -, h⟩ := bind_eq_ok_iff.mp h
  obtain ⟨count, hcount, h⟩ := bind_eq_ok_iff.mp h
  obtain ⟨_, htargets, h⟩ := bind_eq_ok_iff.mp h
  obtain ⟨rfl, rfl⟩ := Operand.switch.inj (Except.ok.inj h)
  rw [hcount, length_of_switchTargets htargets, List.length_nil, Nat.zero_add]

/-- A switch that is read has as many targets as it says. -/
theorem statedTargets_of_operandAt {op : Opcode} {bytes : List UInt8} {fallback : UInt32}
    {targets : List UInt32} (h : operandAt pool offset bytes = .ok (op, .switch fallback targets)) :
    statedTargets offset bytes = .ok targets.length := by
  obtain ⟨first, hfirst, h⟩ := bind_eq_ok_iff.mp h
  rw [statedTargets, hfirst, ok_bind]
  split at h
  -- Nothing widened has the sort of a switch.
  · have hsort := sort_of_widenedOperand h
    simp [Operand.sort] at hsort
  · rename_i format hne hformat
    obtain ⟨operand, hoperand, h⟩ := bind_eq_ok_iff.mp h
    obtain ⟨rfl, rfl⟩ := Prod.mk.inj (Except.ok.inj h)
    have hsort := sort_of_formatOperand hoperand
    rw [hformat]
    cases format with
    | tableSwitch =>
      have hswitch : tableOperand offset bytes = .ok (.switch fallback targets) := hoperand
      rw [tableOperand_eq] at hswitch
      exact length_of_switchOperand hswitch
    | lookupSwitch =>
      have hswitch : lookupOperand offset bytes = .ok (.switch fallback targets) := hoperand
      rw [lookupOperand_eq] at hswitch
      exact length_of_switchOperand hswitch
    | _ => simp [Operand.sort, Format.operandSort] at hsort
  · have hplain := (Prod.mk.inj (Except.ok.inj h)).2
    cases hplain

end ClassLens.Code
