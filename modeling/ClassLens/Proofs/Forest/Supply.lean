/-
Supply: which methods have an expression forest, and what is wrong with the
others.

An instruction takes its operands from the values that the instructions before
it left, one each, and that nothing has consumed yet. So the height of the stack
in front of instruction `j` is `j` less what the instructions before it consume
together, and assembly comes down to arithmetic on arities: it fails at the
first instruction whose arity is not known or exceeds that height, and nothing
that comes after that instruction is looked at.

An arity is a number unless it hangs on a descriptor. Only two sorts of
instruction do, calls and increments, and for each there is one descriptor that
can be at fault.
-/
import ClassLens.Proofs.Forest.Assembly

set_option autoImplicit false

namespace ClassLens

/-! ## Arities that are not known -/

namespace Instruction

/-- The arity of an instruction of a method hangs on a descriptor. -/
inductive HangsOn (i : Instruction) (m : Method) : String → Prop where
  /-- A call consumes what the descriptor that it names asks for. -/
  | call {site : CallSite} (nary : ArityClass.of i.opcode = .nary)
      (operand : i.operand = .call site) : HangsOn i m site.descriptor
  /-- An increment looks its variable up among the parameters of the method. -/
  | increment {index : UInt16} {delta : Int16} (opcode : i.opcode = Opcode.iinc)
      (operand : i.operand = .increment index delta) : HangsOn i m m.descriptor

variable {i : Instruction} {m : Method} {fault : DescriptorFault}

theorem signature_eq_error_iff {descriptor : String} :
    i.signature descriptor = .error fault ↔
      ∃ reason, MethodDescriptor.parse descriptor = .error reason ∧
        fault = ⟨i.index, i.offset, i.opcode, descriptor, reason⟩ := by
  rw [signature]
  cases MethodDescriptor.parse descriptor with
  | ok d => simp
  | error reason => simp [eq_comm]

/-- What is computed from a signature fails where the signature does. -/
theorem signature_bind_eq_error_iff {descriptor : String} {count : MethodDescriptor → Nat} :
    (do let d ← i.signature descriptor; return count d : Except DescriptorFault Nat) =
      .error fault ↔ i.signature descriptor = .error fault := by
  cases i.signature descriptor with
  | ok d => simp [bind, Except.bind, pure, Except.pure]
  | error e => simp [bind, Except.bind]

theorem incrementArity_eq_error_iff :
    i.incrementArity m = .error fault ↔
      (∃ index delta, i.operand = .increment index delta) ∧
        i.signature m.descriptor = .error fault := by
  rw [incrementArity]
  cases i.operand with
  | increment index delta =>
    rw [signature_bind_eq_error_iff]
    simp
  | _ => simp

theorem naryArity_eq_error_iff :
    i.naryArity = .error fault ↔
      ∃ site, i.operand = .call site ∧ i.signature site.descriptor = .error fault := by
  rw [naryArity]
  cases i.operand with
  | call site =>
    rw [signature_bind_eq_error_iff]
    simp
  | _ => simp

/-- The arity of an instruction is not known iff it hangs on a descriptor that
cannot be read. The fault names the instruction, the descriptor and what is wrong
with it. -/
theorem arity_eq_error_iff :
    i.arity m = .error fault ↔
      ∃ descriptor reason, i.HangsOn m descriptor ∧
        MethodDescriptor.parse descriptor = .error reason ∧
        fault = ⟨i.index, i.offset, i.opcode, descriptor, reason⟩ := by
  have hunary : ArityClass.of Opcode.iinc = .unary := rfl
  constructor
  · intro h
    rw [arity] at h
    cases hclass : ArityClass.of i.opcode with
    | unary =>
      simp only [hclass] at h
      split at h
      case isTrue hopcode =>
        obtain ⟨⟨index, delta, hoperand⟩, hsignature⟩ := incrementArity_eq_error_iff.mp h
        obtain ⟨reason, hparse, hfault⟩ := signature_eq_error_iff.mp hsignature
        exact ⟨_, reason, .increment hopcode hoperand, hparse, hfault⟩
      case isFalse => simp at h
    | nary =>
      simp only [hclass] at h
      obtain ⟨site, hoperand, hsignature⟩ := naryArity_eq_error_iff.mp h
      obtain ⟨reason, hparse, hfault⟩ := signature_eq_error_iff.mp hsignature
      exact ⟨_, reason, .call hclass hoperand, hparse, hfault⟩
    | _ => simp [hclass] at h
  · rintro ⟨descriptor, reason, hangs, hparse, hfault⟩
    have hsignature := signature_eq_error_iff.mpr ⟨reason, hparse, hfault⟩
    rw [arity]
    cases hangs with
    | call hclass hoperand =>
      rw [hclass]
      exact naryArity_eq_error_iff.mpr ⟨_, hoperand, hsignature⟩
    | increment hopcode hoperand =>
      rw [hopcode, hunary]
      simp only [if_true]
      exact incrementArity_eq_error_iff.mpr ⟨⟨_, _, hoperand⟩, hsignature⟩

end Instruction

/-! ## The height of the stack -/

namespace Method

/-- The values that an instruction of the method consumes. One whose arity is
not known consumes nothing, since nothing is assembled beyond it. -/
def demand (m : Method) (i : Instruction) : Nat :=
  match i.arity m with
  | .ok count => count
  | .error _ => 0

/-- The values that the instructions before position `j` consume together. -/
def consumedBefore (m : Method) (j : Nat) : Nat :=
  natSum ((m.instructions.take j).map m.demand)

/-- The instruction at position `j` can be assembled: its arity is known, and no
more than the values that the `j` instructions before it left. -/
def Supplied (m : Method) (j : Nat) : Prop :=
  ∃ i count, m.instructions[j]? = some i ∧ i.arity m = .ok count ∧
    m.consumedBefore j + count ≤ j

theorem demand_eq {m : Method} {i : Instruction} {count : Nat} (h : i.arity m = .ok count) :
    m.demand i = count := by
  rw [demand, h]

end Method

namespace Assembly

variable {m : Method} {a b : Assembly}

/-- Every instruction leaves one value, so the values that are left and those
that were consumed are as many as the instructions. -/
theorem natSum_demand_add_length_stack {is : List Instruction} (h : empty.run m is = .ok a) :
    natSum (is.map m.demand) + a.stack.length = is.length := by
  refine run_induction
    (P := fun done a => natSum (done.map m.demand) + a.stack.length = done.length) rfl ?_ h
  intro done a i count harity hcount ih
  rw [List.map_append, natSum_append, List.map_singleton, natSum_cons, natSum_nil,
    Method.demand_eq harity, stack_reduce, List.length_cons, List.length_drop, List.length_append,
    List.length_singleton]
  omega

/-- A run over instructions and more is a run over the first, and then one over
the rest if that succeeds. -/
theorem run_append (m : Method) (a : Assembly) (is js : List Instruction) :
    a.run m (is ++ js) = (a.run m is).bind fun b => b.run m js := by
  induction is generalizing a with
  | nil => rfl
  | cons i is ih =>
    rw [List.cons_append, run, run]
    cases a.step m i with
    | error e => rfl
    | ok next => exact ih next

/-- A run looks at the header of the method, and not at the code it came with. -/
theorem run_header (m : Method) (code : List Instruction) (a : Assembly) (is : List Instruction) :
    a.run { m with instructions := code } is = a.run m is := by
  induction is generalizing a with
  | nil => rfl
  | cons i is ih =>
    have hstep : a.step { m with instructions := code } i = a.step m i := rfl
    rw [run, run, hstep]
    cases a.step m i with
    | error e => rfl
    | ok next => exact ih next

/-! ## Up to some position -/

variable {j : Nat} {i : Instruction}

/-- In front of position `j` the stack holds what is left of `j` values. -/
theorem consumedBefore_add_length_stack (hj : j ≤ m.instructions.length)
    (h : empty.run m (m.instructions.take j) = .ok a) :
    m.consumedBefore j + a.stack.length = j := by
  have hbalance := natSum_demand_add_length_stack h
  rwa [List.length_take, Nat.min_eq_left hj] at hbalance

theorem exists_step_iff_supplied (hi : m.instructions[j]? = some i)
    (h : empty.run m (m.instructions.take j) = .ok a) :
    (∃ b, a.step m i = .ok b) ↔ m.Supplied j := by
  obtain ⟨hj, -⟩ := List.getElem?_eq_some_iff.mp hi
  have hheight := consumedBefore_add_length_stack (Nat.le_of_lt hj) h
  constructor
  · rintro ⟨b, hb⟩
    obtain ⟨count, harity, hcount, -⟩ := step_eq_ok_iff.mp hb
    exact ⟨i, count, hi, harity, by omega⟩
  · rintro ⟨i', count, hi', harity, hcount⟩
    obtain rfl : i = i' := Option.some.inj (hi.symm.trans hi')
    exact ⟨_, step_eq_ok_iff.mpr ⟨count, harity, by omega, rfl⟩⟩

theorem run_take_succ (hi : m.instructions[j]? = some i) :
    empty.run m (m.instructions.take (j + 1)) =
      (empty.run m (m.instructions.take j)).bind fun a => a.step m i := by
  have hsplit : m.instructions.take (j + 1) = m.instructions.take j ++ [i] := by
    rw [List.take_add_one, hi]
    rfl
  rw [hsplit, run_append]
  congr 1
  funext a
  rw [run]
  cases a.step m i <;> rfl

/-- The first instructions can be assembled iff each of them is supplied. -/
theorem exists_run_take_iff (hj : j ≤ m.instructions.length) :
    (∃ a, empty.run m (m.instructions.take j) = .ok a) ↔ ∀ k < j, m.Supplied k := by
  induction j with
  | zero => simp [run]
  | succ j ih =>
    obtain ⟨i, hi⟩ : ∃ i, m.instructions[j]? = some i := ⟨_, List.getElem?_eq_getElem hj⟩
    rw [run_take_succ hi, Nat.forall_lt_succ_right, ← ih (Nat.le_of_succ_le hj)]
    cases hrun : empty.run m (m.instructions.take j) with
    | error e => simp [Except.bind]
    | ok a =>
      rw [← exists_step_iff_supplied hi hrun]
      simp [Except.bind]

end Assembly

/-! ## The verdict on a method -/

namespace Forest

/-- What is wrong with a method whose instruction `i` at position `j` is the
first that is not supplied. An underflow holds the instruction, with its index,
offset and opcode, and tells how many values it requires and how many there
are. -/
inductive Blames (m : Method) (j : Nat) (i : Instruction) : AssemblyError → Prop where
  | descriptor {fault : DescriptorFault} (arity : i.arity m = .error fault) :
      Blames m j i (.descriptor fault)
  | underflow {required available : Nat} (arity : i.arity m = .ok required)
      (left : m.consumedBefore j + available = j) (short : available < required) :
      Blames m j i (.underflow i required available)

variable {m : Method} {j : Nat} {i : Instruction} {e : AssemblyError}

theorem assemble_eq_error_iff :
    assemble m = .error e ↔ Assembly.empty.run m m.instructions = .error e := by
  rw [assemble]
  cases Assembly.empty.run m m.instructions <;> simp

/-- The first instruction that is not supplied is to blame, by itself and by
those before it. -/
theorem exists_blames (hi : m.instructions[j]? = some i) (hbefore : ∀ k < j, m.Supplied k)
    (hj : ¬ m.Supplied j) :
    ∃ e, Blames m j i e ∧
      Assembly.empty.run m (m.instructions.take (j + 1)) = .error e := by
  obtain ⟨hlt, -⟩ := List.getElem?_eq_some_iff.mp hi
  obtain ⟨a, ha⟩ := (Assembly.exists_run_take_iff (Nat.le_of_lt hlt)).mpr hbefore
  have hheight := Assembly.consumedBefore_add_length_stack (Nat.le_of_lt hlt) ha
  cases hstep : a.step m i with
  | ok b => exact absurd ((Assembly.exists_step_iff_supplied hi ha).mp ⟨b, hstep⟩) hj
  | error e =>
    refine ⟨e, ?_, ?_⟩
    · rcases Assembly.step_eq_error_iff.mp hstep with
        ⟨fault, harity, rfl⟩ | ⟨count, harity, hshort, rfl⟩
      · exact .descriptor harity
      · exact .underflow harity hheight hshort
    · rw [Assembly.run_take_succ hi, ha]
      exact hstep

/-- A method has a forest iff every instruction of it is supplied. The forest has
a node for each instruction and a root for each value that nothing consumed.
Otherwise the first instruction that is not supplied is to blame, whatever comes
after it. And it is only a call or an increment whose arity may not be known, for
the descriptor that it hangs on. -/
theorem assembles_iff_supplied (m : Method) :
    ((∃ f, assemble m = .ok f) ↔ ∀ j < m.instructions.length, m.Supplied j) ∧
    (∀ f, assemble m = .ok f → f.size = m.instructions.length ∧
      m.consumedBefore m.instructions.length + f.roots.length = m.instructions.length) ∧
    (∀ j i, m.instructions[j]? = some i → (∀ k < j, m.Supplied k) → ¬ m.Supplied j →
      ∃ e, Blames m j i e ∧ assemble m = .error e ∧
        ∀ rest, assemble { m with instructions := m.instructions.take (j + 1) ++ rest } =
          .error e) ∧
    ∀ (i : Instruction) fault, i.arity m = .error fault ↔
      ∃ descriptor reason, i.HangsOn m descriptor ∧
        MethodDescriptor.parse descriptor = .error reason ∧
        fault = ⟨i.index, i.offset, i.opcode, descriptor, reason⟩ := by
  refine ⟨?_, ?_, ?_, fun _ _ => Instruction.arity_eq_error_iff⟩
  · rw [← Assembly.exists_run_take_iff (Nat.le_refl _), List.take_length]
    simp only [assemble_eq_ok_iff]
    exact ⟨fun ⟨_, a, ha, _⟩ => ⟨a, ha⟩, fun ⟨a, ha⟩ => ⟨_, a, ha, rfl⟩⟩
  · intro f hf
    obtain ⟨a, ha, rfl⟩ := assemble_eq_ok_iff.mp hf
    rw [← List.take_length (l := m.instructions)] at ha
    have hheight := Assembly.consumedBefore_add_length_stack (Nat.le_refl _) ha
    refine ⟨size_assemble hf, ?_⟩
    rw [Assembly.forest, List.length_reverse]
    exact hheight
  · intro j i hi hbefore hj
    obtain ⟨e, hblames, hrun⟩ := exists_blames hi hbefore hj
    have hrest (rest : List Instruction) :
        Assembly.empty.run m (m.instructions.take (j + 1) ++ rest) = .error e := by
      rw [Assembly.run_append, hrun]
      rfl
    refine ⟨e, hblames, ?_, fun rest => ?_⟩
    · have hall := hrest (m.instructions.drop (j + 1))
      rw [List.take_append_drop] at hall
      exact assemble_eq_error_iff.mpr hall
    · rw [assemble_eq_error_iff, Assembly.run_header]
      exact hrest rest

/-- A static method that has two of the three lengths of an array of three
dimensions on the stack. -/
def starvedMethod : Method where
  owner := "Sample"
  name := "starved"
  descriptor := "(II)V"
  access := { isPublic := true, isStatic := true, isAbstract := false }
  instructions :=
    [⟨0, 0, 0x1a, .slot 0⟩, ⟨1, 1, 0x1b, .slot 1⟩, ⟨2, 2, 0xc5, .multiArray "[[[I" 3⟩,
      ⟨3, 6, 0xb1, .plain⟩]
  handlers := []

theorem assembles_iff_supplied_starved :
    (∀ k < 2, starvedMethod.Supplied k) ∧ ¬ starvedMethod.Supplied 2 ∧
    ∀ rest, assemble { starvedMethod with
      instructions := starvedMethod.instructions.take 3 ++ rest } =
        .error (.underflow ⟨2, 2, 0xc5, .multiArray "[[[I" 3⟩ 3 2) := by
  have hbefore : ∀ k < 2, starvedMethod.Supplied k := by
    intro k hk
    obtain rfl | rfl : k = 0 ∨ k = 1 := by omega
    · exact ⟨⟨0, 0, 0x1a, .slot 0⟩, 0, rfl, rfl, by decide⟩
    · exact ⟨⟨1, 1, 0x1b, .slot 1⟩, 0, rfl, rfl, by decide⟩
  have hshort : ¬ starvedMethod.Supplied 2 := by
    rintro ⟨i, count, hi, harity, hcount⟩
    obtain rfl := Option.some.inj hi
    obtain rfl : 3 = count := Except.ok.inj harity
    exact absurd hcount (by decide)
  refine ⟨hbefore, hshort, ?_⟩
  obtain ⟨-, -, hverdict, -⟩ := assembles_iff_supplied starvedMethod
  obtain ⟨e, hblames, -, hrest⟩ := hverdict 2 _ rfl hbefore hshort
  have harity : Instruction.arity ⟨2, 2, 0xc5, .multiArray "[[[I" 3⟩ starvedMethod = .ok 3 := rfl
  have hconsumed : starvedMethod.consumedBefore 2 = 0 := rfl
  cases hblames with
  | descriptor hfault => simp [harity] at hfault
  | underflow hrequired hleft =>
    obtain rfl := Except.ok.inj (harity.symm.trans hrequired)
    rw [hconsumed, Nat.zero_add] at hleft
    subst hleft
    exact hrest

end Forest

end ClassLens
