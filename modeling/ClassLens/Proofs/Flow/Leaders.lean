/-
Leaders: the offsets at which a block may start.

The leaders of a method come from four places, are sorted, cleared of repeats
and cut off behind the last instruction. None of that matters to what is built
on them: a leader is a leader for one of four reasons, the list holds exactly
those that lie in the code, and it ascends. `IsLeader` gives the reasons, and
`mem_leaders_iff` and `pairwise_leaders` are all that is said about the list.

What makes an instruction end its block is said in terms of its own. Where
control may go is read off the operand alone, and whether control leaves is read
off the category of the opcode, so the runs of opcode bytes that the graph goes
by are held against the table of categories.
-/
import ClassLens.Flow.Graph
import ClassLens.Proofs.Code.Length

set_option autoImplicit false

namespace ClassLens

/-! ## What instructions do to control -/

/-- The offsets a jump or a switch may go to, the fallback of a switch first; no
offset for any other instruction. -/
def Instruction.targets (i : Instruction) : List UInt32 :=
  match i.operand with
  | .jump target => [target]
  | .switch fallback targets => fallback :: targets
  | _ => []

theorem Instruction.branchTargets?_eq (i : Instruction) :
    i.branchTargets? = if i.isBranching then some i.targets else none := by
  rw [isBranching, branchTargets?, targets]
  cases i.operand <;> rfl

theorem Instruction.isBranching_of_mem_targets {i : Instruction} {t : UInt32}
    (ht : t ∈ i.targets) : i.isBranching = true := by
  rw [isBranching, branchTargets?]
  rw [targets] at ht
  cases hoperand : i.operand with
  | jump target => rfl
  | switch fallback targets => rfl
  | _ => simp [hoperand] at ht

theorem Instruction.targets_eq_nil {i : Instruction} (h : i.isBranching = false) :
    i.targets = [] := by
  apply List.eq_nil_iff_forall_not_mem.mpr
  intro t ht
  rw [isBranching_of_mem_targets ht] at h
  exact Bool.noConfusion h

/-- The operand with each of its targets replaced by its image. -/
def Operand.mapTargets (f : UInt32 → UInt32) : Operand → Operand
  | .jump target => .jump (f target)
  | .switch fallback targets => .switch (f fallback) (targets.map f)
  | other => other

namespace Flow

/-- Control leaves the method at the instruction, or the subroutine: a return, a
throw, or the return from a subroutine. -/
def Leaves (i : Instruction) : Prop :=
  Category.of? i.opcode ∈
    [some .valueReturn, some .voidReturn, some .throw, some .subroutineReturn]

/-- Control never goes on to what stands behind the instruction: it leaves, or it
goes wherever an unconditional jump or a switch says. -/
def Diverts (i : Instruction) : Prop :=
  Leaves i ∨ Category.of? i.opcode ∈ [some .jump, some .subroutine, some .switch]

/-- What stands behind the instruction is not in the same block. -/
def EndsBlock (i : Instruction) : Prop :=
  i.isBranching = true ∨ Leaves i

instance (i : Instruction) : Decidable (Leaves i) :=
  List.instDecidableMemOfLawfulBEq _ _

instance (i : Instruction) : Decidable (Diverts i) :=
  inferInstanceAs (Decidable (_ ∨ _))

theorem isExit_iff_leaves (i : Instruction) : isExit i.opcode = true ↔ Leaves i := by
  rw [Leaves]
  generalize i.opcode = op
  revert op
  apply Code.forall_opcode
  decide +kernel

theorem isUnconditional_iff (i : Instruction) :
    isUnconditional i.opcode = true ↔
      Category.of? i.opcode ∈ [some Category.jump, some .subroutine] := by
  generalize i.opcode = op
  revert op
  apply Code.forall_opcode
  decide +kernel

/-! ## Reasons to be a leader -/

/-- A block may start at the offset. That two instructions follow one another is
said by their being a piece of the list. -/
inductive IsLeader (m : Method) : UInt32 → Prop where
  | start : IsLeader m 0
  | handler {h : ExceptionHandler} (hh : h ∈ m.handlers) : IsLeader m h.handlerPc
  | target {i : Instruction} {t : UInt32} (hi : i ∈ m.instructions) (ht : t ∈ i.targets) :
      IsLeader m t
  | next {i j : Instruction} (hij : [i, j] <:+: m.instructions) (hi : EndsBlock i) :
      IsLeader m j.offset

/-- A pair of neighbours in a list stands at its front or in what is behind the
first element. -/
theorem pair_infix_cons_iff {α : Type} {a b x : α} {l : List α} :
    [a, b] <:+: x :: l ↔ (a = x ∧ l.head? = some b) ∨ [a, b] <:+: l := by
  rw [List.infix_cons_iff, List.cons_prefix_cons]
  cases l with
  | nil => simp
  | cons y l => simp [List.cons_prefix_cons, eq_comm]

theorem mem_instructionLeaders_iff {xs : List Instruction} {o : UInt32} :
    o ∈ instructionLeaders xs ↔
      (∃ i ∈ xs, o ∈ i.targets) ∨ ∃ i j, [i, j] <:+: xs ∧ EndsBlock i ∧ j.offset = o := by
  induction xs with
  | nil => simp [instructionLeaders]
  | cons x rest ih =>
    have hnext : o ∈ (rest.head?.map (·.offset)).toList ↔
        ∃ j, rest.head? = some j ∧ j.offset = o := by
      rw [Option.mem_toList, Option.map_eq_some_iff]
    -- What the first instruction adds: its targets, and what follows if it ends its block.
    have hfirst : o ∈ instructionLeaders (x :: rest) ↔
        o ∈ x.targets ∨ (EndsBlock x ∧ ∃ j, rest.head? = some j ∧ j.offset = o) ∨
          o ∈ instructionLeaders rest := by
      rw [instructionLeaders, List.mem_append, List.mem_append, ← hnext, EndsBlock,
        ← isExit_iff_leaves, x.branchTargets?_eq]
      by_cases hbranch : x.isBranching = true
      · by_cases hexit : isExit x.opcode = true <;> simp [hbranch, hexit, or_assoc]
      · have hnil : x.targets = [] := x.targets_eq_nil (by simpa using hbranch)
        by_cases hexit : isExit x.opcode = true <;> simp [hbranch, hexit, hnil]
    rw [hfirst, ih]
    constructor
    · rintro (ht | ⟨hx, j, hj, ho⟩ | ⟨i, hi, ht⟩ | ⟨i, j, hij, hi, ho⟩)
      · exact .inl ⟨x, List.mem_cons_self, ht⟩
      · exact .inr ⟨x, j, pair_infix_cons_iff.mpr (.inl ⟨rfl, hj⟩), hx, ho⟩
      · exact .inl ⟨i, List.mem_cons_of_mem x hi, ht⟩
      · exact .inr ⟨i, j, pair_infix_cons_iff.mpr (.inr hij), hi, ho⟩
    · rintro (⟨i, hi, ht⟩ | ⟨i, j, hij, hi, ho⟩)
      · rcases List.mem_cons.mp hi with rfl | hi
        · exact .inl ht
        · exact .inr (.inr (.inl ⟨i, hi, ht⟩))
      · rcases pair_infix_cons_iff.mp hij with ⟨rfl, hj⟩ | hij
        · exact .inr (.inl ⟨hi, j, hj, ho⟩)
        · exact .inr (.inr (.inr ⟨i, j, hij, hi, ho⟩))

/-! ## The list of leaders -/

theorem mem_dropRepeats {l : List UInt32} {o : UInt32} : o ∈ dropRepeats l ↔ o ∈ l := by
  fun_induction dropRepeats l with
  | case1 b rest ih => rw [ih]; simp
  | case2 a b rest _ ih => rw [List.mem_cons, ih, ← List.mem_cons]
  | case3 => rfl

theorem pairwise_dropRepeats {l : List UInt32} (h : l.Pairwise (· ≤ ·)) :
    (dropRepeats l).Pairwise (· < ·) := by
  fun_induction dropRepeats l with
  | case1 b rest ih => exact ih h.of_cons
  | case2 a b rest hne ih =>
    refine .cons (fun o ho => ?_) (ih h.of_cons)
    have hab : a < b := UInt32.lt_of_le_of_ne (List.rel_of_pairwise_cons h List.mem_cons_self) hne
    rcases List.mem_cons.mp (mem_dropRepeats.mp ho) with rfl | ho
    · exact hab
    · exact UInt32.lt_of_lt_of_le hab (List.rel_of_pairwise_cons h.of_cons ho)
  | case3 l hshort =>
    -- A list without two elements has no pair to be out of order.
    match l, hshort with
    | [], _ => exact .nil
    | [a], _ => exact List.pairwise_singleton _ a
    | a :: b :: rest, hshort => exact absurd rfl (hshort a b rest)

theorem mem_leaders_iff {m : Method} {last o : UInt32} :
    o ∈ leaders m last ↔ IsLeader m o ∧ o ≤ last := by
  rw [leaders, List.mem_filter, mem_dropRepeats, List.mem_mergeSort, decide_eq_true_iff]
  refine and_congr_left fun _ => ?_
  rw [List.cons_append, List.mem_cons, List.mem_append, List.mem_map, mem_instructionLeaders_iff]
  constructor
  · rintro (rfl | ⟨h, hh, rfl⟩ | ⟨i, hi, ht⟩ | ⟨i, j, hij, hi, rfl⟩)
    · exact .start
    · exact .handler hh
    · exact .target hi ht
    · exact .next hij hi
  · rintro (_ | hh | ⟨hi, ht⟩ | ⟨hij, hi⟩)
    · exact .inl rfl
    · exact .inr (.inl ⟨_, hh, rfl⟩)
    · exact .inr (.inr (.inl ⟨_, hi, ht⟩))
    · exact .inr (.inr (.inr ⟨_, _, hij, hi, rfl⟩))

/-- The leaders ascend, each of them once. -/
theorem pairwise_leaders (m : Method) (last : UInt32) : (leaders m last).Pairwise (· < ·) := by
  rw [leaders]
  apply List.Pairwise.filter
  apply pairwise_dropRepeats
  have htrans (a b c : UInt32) (hab : decide (a ≤ b) = true) (hbc : decide (b ≤ c) = true) :
      decide (a ≤ c) = true := by
    rw [decide_eq_true_iff] at hab hbc ⊢
    exact UInt32.le_trans hab hbc
  have htotal (a b : UInt32) : (decide (a ≤ b) || decide (b ≤ a)) = true := by
    rw [Bool.or_eq_true, decide_eq_true_iff, decide_eq_true_iff]
    exact UInt32.le_total a b
  exact (List.pairwise_mergeSort htrans htotal _).imp fun hab => of_decide_eq_true hab

end Flow

end ClassLens
