/-
Lengths: what a successful length says about the bytes.

An instruction's length is found before its operands are read, and everything
about where instructions start and end follows from it. Most formats fix the
length and read nothing but the opcode; the three that do not are `wide` and the
switches. `HasLength` has one case for the fixed formats and one for each of the
other three, and no later proof opens the length again.
-/
import ClassLens.Code.Decode

set_option autoImplicit false

namespace ClassLens.Code

theorem ok_bind {ε α β : Type} (a : α) (f : α → Except ε β) :
    (.ok a : Except ε α) >>= f = f a := rfl

/-- A sequence of two steps succeeds when both do. -/
theorem bind_eq_ok_iff {ε α β : Type} {x : Except ε α} {f : α → Except ε β} {b : β} :
    x >>= f = .ok b ↔ ∃ a, x = .ok a ∧ f a = .ok b := by
  cases x <;> simp [bind, Except.bind]

theorem byteAt_cons (place : Nat) (b : UInt8) (tail : List UInt8) :
    byteAt place (b :: tail) = .ok b := rfl

/-! ## The table of formats -/

/-- What holds of each of the 256 bytes holds of every opcode. -/
theorem forall_opcode {P : Opcode → Prop} (h : ∀ b : Fin 256, P (UInt8.ofFin b)) (op : Opcode) :
    P op := by
  simpa using h op.toFin

namespace Format

/-- The opcode `wide` is the only one that widens another. -/
theorem of?_eq_widened_iff (op : Opcode) : of? op = some .widened ↔ op = Opcode.wide := by
  revert op
  apply forall_opcode
  decide +kernel

/-- An opcode has a format exactly when it has a category, that is when it is
defined. -/
theorem isSome_of?_eq (op : Opcode) : (of? op).isSome = (Category.of? op).isSome := by
  revert op
  apply forall_opcode
  decide +kernel

theorem one_le_of_size?_eq_some {format : Format} {n : Nat} (h : format.size? = some n) :
    1 ≤ n := by
  cases format with
  | call kind => cases kind <;> simp only [size?, Option.some.injEq] at h <;> omega
  | _ => simp only [size?, Option.some.injEq, reduceCtorEq] at h <;> omega

theorem size?_eq_none_iff {format : Format} :
    format.size? = none ↔ format = .widened ∨ format = .tableSwitch ∨ format = .lookupSwitch := by
  cases format with
  | call kind => cases kind <;> simp [size?]
  | _ => simp [size?]

end Format

/-! ## Lengths by format -/

/-- The bytes start with an instruction of length `n`, as far as the opcode and
the counts of a switch tell. -/
inductive HasLength (offset : Nat) : List UInt8 → Nat → Prop where
  | fixed {op : Opcode} {format : Format} {n : Nat} (tail : List UInt8)
      (hformat : Format.of? op = some format) (hsize : format.size? = some n) :
      HasLength offset (op :: tail) n
  | widened (second : Opcode) (tail : List UInt8) :
      HasLength offset (Opcode.wide :: second :: tail) (if second = Opcode.iinc then 6 else 4)
  | tableSwitch {op : Opcode} {tail : List UInt8} {entries : Nat}
      (hformat : Format.of? op = some .tableSwitch)
      (hentries : tableEntries offset (op :: tail) = .ok entries) :
      HasLength offset (op :: tail) (1 + padding offset + 12 + 4 * entries)
  | lookupSwitch {op : Opcode} {tail : List UInt8} {pairs : Nat}
      (hformat : Format.of? op = some .lookupSwitch)
      (hpairs : lookupEntries offset (op :: tail) = .ok pairs) :
      HasLength offset (op :: tail) (1 + padding offset + 8 + 8 * pairs)

theorem instructionLength_fixed {offset n : Nat} {op : Opcode} {format : Format}
    (tail : List UInt8) (hformat : Format.of? op = some format) (hsize : format.size? = some n) :
    instructionLength offset (op :: tail) = .ok n := by
  unfold instructionLength
  rw [byteAt_cons, ok_bind]
  simp only [hformat]
  -- The three formats with branches of their own are the ones without a size.
  cases format with
  | widened | tableSwitch | lookupSwitch => simp [Format.size?] at hsize
  | _ => simp only [hsize]; rfl

section Branches

variable {offset : Nat} {op : Opcode} (tail : List UInt8)

theorem instructionLength_widened (hformat : Format.of? op = some .widened) :
    instructionLength offset (op :: tail) =
      byteAt (offset + 1) tail >>= fun second => .ok (if second = Opcode.iinc then 6 else 4) := by
  unfold instructionLength
  rw [byteAt_cons, ok_bind]
  simp only [hformat]
  rfl

theorem instructionLength_tableSwitch (hformat : Format.of? op = some .tableSwitch) :
    instructionLength offset (op :: tail) =
      tableEntries offset (op :: tail) >>= fun entries =>
        .ok (1 + padding offset + 12 + 4 * entries) := by
  unfold instructionLength
  rw [byteAt_cons, ok_bind]
  simp only [hformat]
  rfl

theorem instructionLength_lookupSwitch (hformat : Format.of? op = some .lookupSwitch) :
    instructionLength offset (op :: tail) =
      lookupEntries offset (op :: tail) >>= fun pairs =>
        .ok (1 + padding offset + 8 + 8 * pairs) := by
  unfold instructionLength
  rw [byteAt_cons, ok_bind]
  simp only [hformat]
  rfl

end Branches

/-- Only a defined opcode has a length. -/
theorem exists_format_of_instructionLength {offset n : Nat} {bytes : List UInt8}
    (h : instructionLength offset bytes = .ok n) :
    ∃ op tail format, bytes = op :: tail ∧ Format.of? op = some format := by
  unfold instructionLength at h
  obtain ⟨op, hop, h⟩ := bind_eq_ok_iff.mp h
  cases bytes with
  | nil => simp [byteAt] at hop
  | cons first tail =>
    obtain rfl : first = op := Except.ok.inj hop
    cases hformat : Format.of? first with
    | none => simp [hformat] at h
    | some format => exact ⟨first, tail, format, rfl, hformat⟩

theorem instructionLength_eq_ok_iff {offset n : Nat} {bytes : List UInt8} :
    instructionLength offset bytes = .ok n ↔ HasLength offset bytes n := by
  constructor
  · intro h
    obtain ⟨op, tail, format, rfl, hformat⟩ := exists_format_of_instructionLength h
    cases hsize : format.size? with
    | some size =>
      rw [instructionLength_fixed tail hformat hsize, Except.ok.injEq] at h
      exact h ▸ .fixed tail hformat hsize
    | none =>
      rcases Format.size?_eq_none_iff.mp hsize with rfl | rfl | rfl
      · rw [instructionLength_widened tail hformat] at h
        obtain ⟨second, hsecond, hn⟩ := bind_eq_ok_iff.mp h
        obtain rfl := (Format.of?_eq_widened_iff op).mp hformat
        -- The length depends on the opcode behind `wide`, so that must be there.
        cases tail with
        | nil => simp [byteAt] at hsecond
        | cons b tail =>
          rw [byteAt_cons, Except.ok.injEq] at hsecond
          rw [← Except.ok.inj hn, ← hsecond]
          exact .widened b tail
      · rw [instructionLength_tableSwitch tail hformat] at h
        obtain ⟨entries, hentries, hn⟩ := bind_eq_ok_iff.mp h
        exact Except.ok.inj hn ▸ .tableSwitch hformat hentries
      · rw [instructionLength_lookupSwitch tail hformat] at h
        obtain ⟨pairs, hpairs, hn⟩ := bind_eq_ok_iff.mp h
        exact Except.ok.inj hn ▸ .lookupSwitch hformat hpairs
  · intro h
    cases h with
    | fixed tail hformat hsize => exact instructionLength_fixed tail hformat hsize
    | widened second tail =>
      rw [instructionLength_widened _ ((Format.of?_eq_widened_iff _).mpr rfl)]
      rfl
    | tableSwitch hformat hentries =>
      rw [instructionLength_tableSwitch _ hformat, hentries]
      rfl
    | lookupSwitch hformat hpairs =>
      rw [instructionLength_lookupSwitch _ hformat, hpairs]
      rfl

/-- No instruction is empty, so decoding always moves on. -/
theorem one_le_of_instructionLength {offset n : Nat} {bytes : List UInt8}
    (h : instructionLength offset bytes = .ok n) : 1 ≤ n := by
  cases instructionLength_eq_ok_iff.mp h with
  | fixed tail hformat hsize => exact Format.one_le_of_size?_eq_some hsize
  | widened second tail => split <;> omega
  | tableSwitch _ _ | lookupSwitch _ _ => omega

end ClassLens.Code
