/-
Agreement: the later stages take a decoded instruction for what it is.

Nodes, arities and flow graphs are total functions of any opcode with any
operand, so each of them has a branch for a pair that does not belong together: a
basic node, an arity of 0 or 1 come what may, an instruction that goes nowhere.
For decoded instructions these branches are dead. `NodeFor` and `Consumes` have
no such branch to take, and the node and the arity of a decoded instruction are
always among their cases.

What is left of the basic nodes are the categories without a node of their own.
-/
import ClassLens.Forest.Arity
import ClassLens.Forest.NodeKind
import ClassLens.Proofs.Code.OperandSort
import ClassLens.Proofs.Flow.Leaders

set_option autoImplicit false

namespace ClassLens

/-! ## Operands by sort -/

namespace Operand

variable {o : Operand}

theorem sort_eq_field_iff : o.sort = .field ↔ ∃ ref, o = .field ref := by
  cases o <;> simp [sort]

theorem sort_eq_call_iff : o.sort = .call ↔ ∃ site, o = .call site := by
  cases o <;> simp [sort]

theorem sort_eq_constant_iff : o.sort = .constant ↔ ∃ value, o = .constant value := by
  cases o <;> simp [sort]

theorem sort_eq_slot_iff : o.sort = .slot ↔ ∃ index, o = .slot index := by
  cases o <;> simp [sort]

theorem sort_eq_increment_iff :
    o.sort = .increment ↔ ∃ index delta, o = .increment index delta := by
  cases o <;> simp [sort]

theorem sort_eq_jump_iff : o.sort = .jump ↔ ∃ target, o = .jump target := by
  cases o <;> simp [sort]

theorem sort_eq_multiArray_iff : o.sort = .multiArray ↔ ∃ name n, o = .multiArray name n := by
  cases o <;> simp [sort]

end Operand

variable {i : Instruction} {c : Category}

/-! ## Nodes -/

/-- Whether instructions of the category have a kind of node of their own. -/
def Category.hasNode : Category → Bool
  | .staticRead | .staticWrite | .instanceRead | .instanceWrite | .invoke | .constant
  | .arithmetic | .compareBranch | .branch | .jump | .subroutine | .localLoad | .localStore
  | .subroutineReturn => true
  | _ => false

/-- The nodes for an instruction of a category. Each has what the operand of the
instruction says, and a branch its relation and its target. Only a category
without a node of its own has a basic one. -/
inductive NodeFor (i : Instruction) : Category → NodeKind → Prop where
  | staticRead {ref : FieldRef} (h : i.operand = .field ref) :
      NodeFor i .staticRead (.field ⟨ref, true, true⟩)
  | staticWrite {ref : FieldRef} (h : i.operand = .field ref) :
      NodeFor i .staticWrite (.field ⟨ref, false, true⟩)
  | instanceRead {ref : FieldRef} (h : i.operand = .field ref) :
      NodeFor i .instanceRead (.field ⟨ref, true, false⟩)
  | instanceWrite {ref : FieldRef} (h : i.operand = .field ref) :
      NodeFor i .instanceWrite (.field ⟨ref, false, false⟩)
  | call {site : CallSite} (h : i.operand = .call site) : NodeFor i .invoke (.call site)
  | constant {value : Constant} (h : i.operand = .constant value) :
      NodeFor i .constant (.constant value)
  | math {op : MathOp} (h : MathOp.of? i.opcode = some op) : NodeFor i .arithmetic (.math op)
  | compareBranch {relation : Comparison} {target : UInt32}
      (hrelation : Comparison.of? i.opcode = some relation) (h : i.operand = .jump target) :
      NodeFor i .compareBranch (.compareBranch relation target)
  | branch {relation : Comparison} {operand : BranchOperand} {target : UInt32}
      (hrelation : Comparison.of? i.opcode = some relation)
      (hnull : operand = .null ↔ i.opcode = Opcode.ifnull ∨ i.opcode = Opcode.ifnonnull)
      (h : i.operand = .jump target) : NodeFor i .branch (.branch relation operand target)
  | jump {target : UInt32} (h : i.operand = .jump target) : NodeFor i .jump (.jump target)
  | subroutine {target : UInt32} (h : i.operand = .jump target) :
      NodeFor i .subroutine (.jump target)
  | load {index : UInt16} (h : i.operand = .slot index) : NodeFor i .localLoad (.load index)
  | store {index : UInt16} (h : i.operand = .slot index) : NodeFor i .localStore (.store index)
  | ret {index : UInt16} (h : i.operand = .slot index) : NodeFor i .subroutineReturn (.ret index)
  | basic {c : Category} (h : c.hasNode = false) : NodeFor i c .basic

theorem NodeFor.eq_basic_iff {kind : NodeKind} (h : NodeFor i c kind) :
    kind = .basic ↔ c.hasNode = false := by
  cases h with
  | basic h => simp [h]
  | _ => simp [Category.hasNode]

/-- Each arithmetic opcode has an operator. -/
theorem exists_mathOp (h : Category.of? i.opcode = some .arithmetic) :
    ∃ op, MathOp.of? i.opcode = some op := by
  rw [← Option.isSome_iff_exists]
  generalize i.opcode = op at h ⊢
  revert op
  apply Code.forall_opcode
  decide +kernel

/-- Each conditional branch has a relation. -/
theorem exists_comparison
    (h : Category.of? i.opcode = some .branch ∨ Category.of? i.opcode = some .compareBranch) :
    ∃ relation, Comparison.of? i.opcode = some relation := by
  rw [← Option.isSome_iff_exists]
  generalize i.opcode = op at h ⊢
  revert op
  apply Code.forall_opcode
  decide +kernel

namespace Instruction.WellSorted

/-- The node of a well sorted instruction is the one for its category. -/
theorem nodeFor (h : i.WellSorted c) : NodeFor i c i.nodeKind := by
  have hcategory := h.category
  have hsort := h.operand
  rw [nodeKind, hcategory]
  cases c with
  | staticRead | staticWrite | instanceRead | instanceWrite =>
    obtain ⟨ref, href⟩ := Operand.sort_eq_field_iff.mp hsort
    rw [href]
    constructor
    exact href
  | invoke =>
    obtain ⟨site, hsite⟩ := Operand.sort_eq_call_iff.mp hsort
    rw [hsite]
    exact .call hsite
  | constant =>
    obtain ⟨value, hvalue⟩ := Operand.sort_eq_constant_iff.mp hsort
    rw [hvalue]
    exact .constant hvalue
  | arithmetic =>
    obtain ⟨op, hop⟩ := exists_mathOp hcategory
    simp only [hop]
    exact .math hop
  | compareBranch =>
    obtain ⟨target, htarget⟩ := Operand.sort_eq_jump_iff.mp hsort
    obtain ⟨relation, hrelation⟩ := exists_comparison (.inr hcategory)
    simp only [htarget, hrelation]
    exact .compareBranch hrelation htarget
  | branch =>
    obtain ⟨target, htarget⟩ := Operand.sort_eq_jump_iff.mp hsort
    obtain ⟨relation, hrelation⟩ := exists_comparison (.inl hcategory)
    simp only [htarget, hrelation]
    exact .branch hrelation (by split <;> simp_all) htarget
  | jump | subroutine =>
    obtain ⟨target, htarget⟩ := Operand.sort_eq_jump_iff.mp hsort
    rw [htarget]
    constructor
    exact htarget
  | localLoad | localStore | subroutineReturn =>
    obtain ⟨index, hindex⟩ := Operand.sort_eq_slot_iff.mp hsort
    rw [hindex]
    constructor
    exact hindex
  | _ => exact .basic rfl

end Instruction.WellSorted

/-! ## Arities -/

/-- The number of operands that an arity class fixes. -/
def ArityClass.count? : ArityClass → Option Nat
  | nullary => some 0
  | unary => some 1
  | binary => some 2
  | ternary => some 3
  | quaternary => some 4
  | nary => none

/-- How many values an instruction of a category consumes in a method. A call
goes by its descriptor and its kind, an array of several dimensions by their
number, and an increment by the parameters of the method. Every other category
fixes the number. -/
inductive Consumes (i : Instruction) (m : Method) :
    Category → Except DescriptorFault Nat → Prop where
  | call {site : CallSite} (h : i.operand = .call site) :
      Consumes i m .invoke ((i.signature site.descriptor).map fun d =>
        d.argumentSlots + if site.kind.hasReceiver then 1 else 0)
  | multiArray {name : String} {dimensions : UInt8} (h : i.operand = .multiArray name dimensions) :
      Consumes i m .multiNewArray (.ok dimensions.toNat)
  | increment {index : UInt16} {delta : Int16} (h : i.operand = .increment index delta) :
      Consumes i m .increment ((i.signature m.descriptor).map fun d =>
        if (index.toNat : Int) - (if m.isInstance then 1 else 0) < d.parameterCount then 0 else 1)
  | fixed {c : Category} {n : Nat} (hne : c ≠ .increment)
      (h : (ArityClass.ofCategory c).count? = some n) : Consumes i m c (.ok n)

/-- Increments have a category to themselves. -/
theorem category_eq_increment_iff :
    Category.of? i.opcode = some .increment ↔ i.opcode = Opcode.iinc := by
  generalize i.opcode = op
  revert op
  apply Code.forall_opcode
  decide +kernel

theorem Instruction.incrementArity_eq {m : Method} {index : UInt16} {delta : Int16}
    (h : i.operand = .increment index delta) :
    i.incrementArity m = (i.signature m.descriptor).map fun d =>
      if (index.toNat : Int) - (if m.isInstance then 1 else 0) < d.parameterCount then 0
      else 1 := by
  simp only [incrementArity, h]
  cases i.signature m.descriptor with
  | error e => rfl
  | ok d =>
    rw [Code.ok_bind, Except.map]
    cases m.isInstance <;> simp [pure, Except.pure]

theorem Instruction.naryArity_call {site : CallSite} (h : i.operand = .call site) :
    i.naryArity = (i.signature site.descriptor).map fun d =>
      d.argumentSlots + if site.kind.hasReceiver then 1 else 0 := by
  simp only [naryArity, h]
  cases i.signature site.descriptor <;> rfl

/-- The arity of a well sorted instruction is the one for its category. -/
theorem Instruction.WellSorted.consumes (h : i.WellSorted c) (m : Method) :
    Consumes i m c (i.arity m) := by
  have hcategory := h.category
  have hsort := h.operand
  rw [arity, ArityClass.of, hcategory]
  cases c with
  | invoke =>
    obtain ⟨site, hsite⟩ := Operand.sort_eq_call_iff.mp hsort
    show Consumes i m .invoke i.naryArity
    rw [naryArity_call hsite]
    exact .call hsite
  | multiNewArray =>
    obtain ⟨name, dimensions, hdimensions⟩ := Operand.sort_eq_multiArray_iff.mp hsort
    show Consumes i m .multiNewArray i.naryArity
    rw [naryArity, hdimensions]
    exact .multiArray hdimensions
  | increment =>
    obtain ⟨index, delta, hincrement⟩ := Operand.sort_eq_increment_iff.mp hsort
    simp only [ArityClass.ofCategory]
    rw [if_pos (category_eq_increment_iff.mp hcategory), incrementArity_eq hincrement]
    exact .increment hincrement
  | _ =>
    have hne : i.opcode ≠ Opcode.iinc := fun heq => by
      rw [category_eq_increment_iff.mpr heq] at hcategory
      exact absurd hcategory (by simp)
    simp only [ArityClass.ofCategory, if_neg hne]
    exact .fixed (by simp) rfl

/-! ## Control -/

/-- The jumps and switches are the instructions of five categories. -/
theorem Instruction.WellSorted.isBranching_iff (h : i.WellSorted c) :
    i.isBranching = true ↔ c ∈ [.branch, .compareBranch, .jump, .subroutine, .switch] := by
  have hsort : i.isBranching = true ↔ i.operand.sort = .jump ∨ i.operand.sort = .switch := by
    rw [isBranching, branchTargets?]
    cases i.operand <;> simp [Operand.sort]
  rw [hsort, h.operand]
  cases c with
  | newArray => simp only [Category.operandSort]; split <;> simp
  | _ => simp [Category.operandSort]

/-! ## All stages -/

/-- The stages agree on what an instruction of category `c` is: the decoder gave
it the operand that the category calls for, its node and its arity are those of
the category and of that operand, and the flow graph takes it for a branch, for
one that is always taken, or for an exit exactly when it is one. -/
structure Agrees (i : Instruction) (c : Category) : Prop extends i.WellSorted c where
  receiver : ∀ site, i.operand = .call site →
    (site.kind.hasReceiver = true ↔ i.opcode ∈ [0xb6, 0xb7, 0xb9])
  node : NodeFor i c i.nodeKind
  basic : i.nodeKind = .basic ↔ c.hasNode = false
  arity : ∀ m, Consumes i m c (i.arity m)
  branching : i.isBranching = true ↔ c ∈ [.branch, .compareBranch, .jump, .subroutine, .switch]
  unconditional : Flow.isUnconditional i.opcode = true ↔ c ∈ [.jump, .subroutine]
  exit : Flow.isExit i.opcode = true ↔ c ∈ [.valueReturn, .voidReturn, .throw, .subroutineReturn]

/-- All stages agree on every decoded instruction. -/
theorem agrees_of_decode {pool : Code.Pool} {code : List UInt8} {xs : List Instruction}
    (h : Code.decode pool code = .ok xs) : ∀ i ∈ xs, ∃ c, Agrees i c := by
  intro i hi
  obtain ⟨c, hc⟩ := Code.exists_wellSorted_of_decode h hi
  refine ⟨c, hc, fun site hsite => ?_, hc.nodeFor, hc.nodeFor.eq_basic_iff, hc.consumes,
    hc.isBranching_iff, ?_, ?_⟩
  · rw [(hc.call site hsite).1]
    cases site.kind <;> decide
  · rw [Flow.isUnconditional_iff, hc.category]
    simp
  · rw [Flow.isExit_iff_leaves, Flow.Leaves, hc.category]
    simp

/-- The code of a loop that counts local variable 1 up by twos, in a widened
increment, until it is positive. -/
def countUpCode : List UInt8 :=
  [0xc4, 0x84, 0x00, 0x01, 0x00, 0x02, 0x1b, 0x9e, 0xff, 0xf9, 0xb1]

theorem agrees_of_decode_countUp :
    Code.decode Code.emptyPool countUpCode = .ok
      [⟨0, 0, 0x84, .increment 1 2⟩, ⟨1, 6, 0x1b, .slot 1⟩, ⟨2, 7, 0x9e, .jump 0⟩,
        ⟨3, 10, 0xb1, .plain⟩] ∧
    Agrees ⟨0, 0, 0x84, .increment 1 2⟩ .increment ∧
    Agrees ⟨2, 7, 0x9e, .jump 0⟩ .branch := by
  have hcut : Code.Decodes Code.emptyPool 0 0
      ([0xc4, 0x84, 0x00, 0x01, 0x00, 0x02] ++ ([0x1b] ++ ([0x9e, 0xff, 0xf9] ++ ([0xb1] ++ []))))
      [⟨0, 0, 0x84, .increment 1 2⟩, ⟨1, 6, 0x1b, .slot 1⟩, ⟨2, 7, 0x9e, .jump 0⟩,
        ⟨3, 10, 0xb1, .plain⟩] :=
    .cons rfl rfl (.cons rfl rfl (.cons rfl rfl (.cons rfl rfl (.nil 11 4))))
  have hdecode := Code.decode_eq_ok_iff.mpr hcut
  obtain ⟨c, hincrement⟩ := agrees_of_decode hdecode ⟨0, 0, 0x84, .increment 1 2⟩ (by simp)
  obtain ⟨d, hbranch⟩ := agrees_of_decode hdecode ⟨2, 7, 0x9e, .jump 0⟩ (by simp)
  obtain rfl := Option.some.inj hincrement.category
  obtain rfl := Option.some.inj hbranch.category
  exact ⟨hdecode, hincrement, hbranch⟩

end ClassLens
