/-
What one instruction does to a forest in the making, and what a whole run
keeps.

Assembly is a loop over `reduce`, so everything that is true of finished forests
is shown here for one `reduce` and carried over a run by `run_induction`. What a
`reduce` does is said once, in `getElem?_reduce`: it writes one new node, sets
the parents of its operands, and leaves all other data as it was.

The parent is the only part of a node that is written after the node is made,
and walks over a tree never look at it. So two forests whose nodes agree below a
bound, parents aside, show the same trees there, and a tree, once assembled,
stays what it is.
-/
import ClassLens.Forest.Basic

set_option autoImplicit false

namespace ClassLens

/-! ## Adoption -/

/-- Adoption changes the parents of the adopted nodes and nothing else. -/
theorem getElem?_adopt (parent : Nat) (nodes : Array Node) (children : List Nat) (k : Nat) :
    (adopt parent nodes children)[k]? =
      nodes[k]?.map fun n => if k ∈ children then { n with parent := some parent } else n := by
  induction children generalizing nodes with
  | nil => simp [adopt]
  | cons c cs ih =>
    have hstep : adopt parent nodes (c :: cs) =
        adopt parent (nodes.modify c fun n => { n with parent := some parent }) cs := rfl
    rw [hstep, ih, Array.getElem?_modify]
    by_cases hc : c = k
    -- Adopted now; being adopted again later changes nothing.
    · subst hc
      rw [if_pos rfl]
      cases nodes[c]? with
      | none => rfl
      | some n =>
        simp only [Option.map_some, List.mem_cons, true_or, if_true]
        split <;> rfl
    · have hmem : k ∈ c :: cs ↔ k ∈ cs := by
        rw [List.mem_cons, or_iff_right (Ne.symm hc)]
      rw [if_neg hc]
      simp only [hmem]

theorem map_instruction_adopt (parent : Nat) (nodes : Array Node) (children : List Nat) :
    (adopt parent nodes children).toList.map (·.instruction) =
      nodes.toList.map (·.instruction) := by
  apply List.ext_getElem?
  intro k
  rw [List.getElem?_map, List.getElem?_map, Array.getElem?_toList, Array.getElem?_toList,
    getElem?_adopt, Option.map_map]
  congr 1
  funext n
  simp only [Function.comp_apply]
  split <;> rfl

/-! ## One step -/

namespace Assembly

variable {m : Method} {a b : Assembly} {i : Instruction}

@[simp] theorem size_reduce (a : Assembly) (i : Instruction) (count : Nat) :
    (a.reduce i count).nodes.size = a.nodes.size + 1 := by
  rw [reduce, Array.size_push, size_adopt]

@[simp] theorem stack_reduce (a : Assembly) (i : Instruction) (count : Nat) :
    (a.reduce i count).stack = a.nodes.size :: a.stack.drop count := rfl

/-- The nodes after an instruction: the old ones, of which the operands have a
parent now, and the node of the instruction. -/
theorem getElem?_reduce (a : Assembly) (i : Instruction) (count k : Nat) :
    (a.reduce i count).nodes[k]? =
      if k = a.nodes.size then
        some ⟨i, count, (a.stack.take count).reverse, none⟩
      else a.nodes[k]?.map fun n =>
        if k ∈ a.stack.take count then { n with parent := some a.nodes.size } else n := by
  rw [reduce, Array.getElem?_push, size_adopt, getElem?_adopt]

theorem map_instruction_reduce (a : Assembly) (i : Instruction) (count : Nat) :
    (a.reduce i count).nodes.toList.map (·.instruction) =
      a.nodes.toList.map (·.instruction) ++ [i] := by
  rw [reduce, Array.toList_push, List.map_append, map_instruction_adopt]
  rfl

/-- A step succeeds when the arity is known and the stack is high enough, and
then it is a `reduce`. -/
theorem step_eq_ok_iff :
    a.step m i = .ok b ↔
      ∃ count, i.arity m = .ok count ∧ count ≤ a.stack.length ∧ b = a.reduce i count := by
  rw [step]
  cases harity : i.arity m with
  | error fault => simp
  | ok count =>
    -- The check goes by what could be taken, not by the height of the stack.
    have hheight : (a.stack.take count).length < count ↔ a.stack.length < count := by
      rw [List.length_take]
      omega
    simp only [hheight, Except.ok.injEq, exists_eq_left']
    by_cases hlt : a.stack.length < count
    · have hle : ¬ count ≤ a.stack.length := by omega
      simp [if_pos hlt, hle]
    · have hle : count ≤ a.stack.length := by omega
      simp only [if_neg hlt, Except.ok.injEq, hle, true_and]
      exact eq_comm

/-- A step fails when the arity is not known or the stack is too low, and the
underflow tells how low it is. -/
theorem step_eq_error_iff {e : AssemblyError} :
    a.step m i = .error e ↔
      (∃ fault, i.arity m = .error fault ∧ e = .descriptor fault) ∨
      ∃ count, i.arity m = .ok count ∧ a.stack.length < count ∧
        e = .underflow i count a.stack.length := by
  cases hstep : a.step m i with
  | ok b =>
    obtain ⟨count, harity, hcount, -⟩ := step_eq_ok_iff.mp hstep
    simp only [reduceCtorEq, harity, Except.ok.injEq, false_and, exists_false, exists_eq_left',
      false_or, false_iff, not_and]
    omega
  | error e' =>
    rw [step] at hstep
    cases harity : i.arity m with
    | error fault =>
      simp only [harity, Except.error.injEq] at hstep
      simp [← hstep, eq_comm]
    | ok count =>
      simp only [harity] at hstep
      split at hstep
      case isFalse => simp at hstep
      case isTrue hlow =>
        rw [List.length_take] at hlow
        have hlt : a.stack.length < count := by omega
        rw [Except.error.injEq] at hstep
        simp [← hstep, hlt, eq_comm]

/-! ## A run -/

theorem run_cons_eq_ok_iff {is : List Instruction} :
    a.run m (i :: is) = .ok b ↔ ∃ next, a.step m i = .ok next ∧ next.run m is = .ok b := by
  rw [run]
  cases a.step m i <;> simp

/-- What holds of the empty assembly and is kept by every `reduce` holds at the
end of a run. The property may speak of the instructions read so far. -/
theorem run_induction {P : List Instruction → Assembly → Prop} (init : P [] empty)
    (reduce : ∀ done a i count, i.arity m = .ok count → count ≤ a.stack.length →
      P done a → P (done ++ [i]) (a.reduce i count))
    {is : List Instruction} (h : empty.run m is = .ok b) : P is b := by
  -- Generalised over where the run starts: `done` has been read by then.
  suffices hrun : ∀ (is done : List Instruction) (a : Assembly),
      P done a → a.run m is = .ok b → P (done ++ is) b from hrun is [] empty init h
  intro is
  induction is with
  | nil =>
    intro done a ha hb
    rw [run, Except.ok.injEq] at hb
    rw [List.append_nil, ← hb]
    exact ha
  | cons i is ih =>
    intro done a ha hb
    obtain ⟨next, hnext, hrest⟩ := run_cons_eq_ok_iff.mp hb
    obtain ⟨count, harity, hcount, rfl⟩ := step_eq_ok_iff.mp hnext
    have := ih (done ++ [i]) _ (reduce done a i count harity hcount ha) hrest
    rwa [List.append_assoc] at this

/-- Node `k` is made from instruction `k`, and there are no other nodes. -/
theorem map_instruction_run {is : List Instruction} (h : empty.run m is = .ok b) :
    b.nodes.toList.map (·.instruction) = is := by
  refine run_induction (P := fun done a => a.nodes.toList.map (·.instruction) = done) rfl ?_ h
  intro done a i count _ _ ih
  rw [map_instruction_reduce, ih]

/-- The forest that an assembly would give if nothing came after it. -/
def forest (m : Method) (a : Assembly) : Forest :=
  ⟨m, a.nodes, a.stack.reverse, a.operandsFirst⟩

end Assembly

/-- A method's forest is the forest at the end of a run over its instructions. -/
theorem Forest.assemble_eq_ok_iff {m : Method} {f : Forest} :
    Forest.assemble m = .ok f ↔
      ∃ a, Assembly.empty.run m m.instructions = .ok a ∧ f = a.forest m := by
  rw [Forest.assemble]
  cases Assembly.empty.run m m.instructions with
  | error e => simp
  | ok a => simp [Assembly.forest, eq_comm]

namespace Forest

variable {m : Method} {f : Forest}

theorem map_instruction_assemble (h : assemble m = .ok f) :
    f.nodes.toList.map (·.instruction) = m.instructions := by
  obtain ⟨a, ha, rfl⟩ := assemble_eq_ok_iff.mp h
  exact Assembly.map_instruction_run ha

theorem size_assemble (h : assemble m = .ok f) : f.size = m.instructions.length := by
  rw [← map_instruction_assemble h, List.length_map, Array.length_toList, size]

theorem instruction_assemble (h : assemble m = .ok f) (id : Nat) :
    (f.node? id).map (·.instruction) = m.instructions[id]? := by
  rw [← map_instruction_assemble h, List.getElem?_map, Array.getElem?_toList, node?]

end Forest

/-! ## Nodes without their parents -/

/-- A node as walks over a tree see it: all of it but the parent. -/
def Node.unlinked (n : Node) : Node :=
  { n with parent := none }

namespace Forest

/-- The two forests have the same nodes below a bound, parents aside. -/
def AgreeBelow (f g : Forest) (bound : Nat) : Prop :=
  ∀ k < bound, (f.node? k).map Node.unlinked = (g.node? k).map Node.unlinked

theorem children_eq_unlinked (f : Forest) (id : Nat) :
    f.children id = (((f.node? id).map Node.unlinked).map (·.children)).getD [] := by
  rw [children]
  cases f.node? id <;> rfl

theorem AgreeBelow.children_eq {f g : Forest} {bound k : Nat} (h : f.AgreeBelow g bound)
    (hk : k < bound) : f.children k = g.children k := by
  rw [children_eq_unlinked, children_eq_unlinked, h k hk]

theorem AgreeBelow.instruction_eq {f g : Forest} {bound k : Nat} (h : f.AgreeBelow g bound)
    (hk : k < bound) :
    (f.node? k).map (·.instruction) = (g.node? k).map (·.instruction) := by
  have heq := congrArg (Option.map (·.instruction)) (h k hk)
  rwa [Option.map_map, Option.map_map] at heq

theorem AgreeBelow.trans {f g e : Forest} {bound bound' : Nat} (hfg : f.AgreeBelow g bound)
    (hge : g.AgreeBelow e bound') (hle : bound ≤ bound') : f.AgreeBelow e bound := by
  intro k hk
  rw [hfg k hk, hge k (by omega)]

end Forest

namespace Assembly

/-- An instruction leaves the nodes before it alone, parents aside. -/
theorem agreeBelow_reduce (m : Method) (a : Assembly) (i : Instruction) (count : Nat) :
    (a.forest m).AgreeBelow ((a.reduce i count).forest m) a.nodes.size := by
  intro k hk
  have hne : k ≠ a.nodes.size := by omega
  rw [Forest.node?, Forest.node?, forest, forest, getElem?_reduce, if_neg hne, Option.map_map]
  congr 1
  funext n
  simp only [Function.comp_apply]
  split <;> rfl

theorem instruction_reduce (m : Method) (a : Assembly) (i : Instruction) (count : Nat) :
    (((a.reduce i count).forest m).node? a.nodes.size).map (·.instruction) = some i := by
  rw [Forest.node?, forest, getElem?_reduce, if_pos rfl]
  rfl

/-- The new node's operands are what the instruction took off the stack, oldest
first. -/
theorem children_reduce (m : Method) (a : Assembly) (i : Instruction) (count : Nat) :
    ((a.reduce i count).forest m).children a.nodes.size = (a.stack.take count).reverse := by
  rw [Forest.children, Forest.node?, forest, getElem?_reduce, if_pos rfl]

end Assembly

end ClassLens
