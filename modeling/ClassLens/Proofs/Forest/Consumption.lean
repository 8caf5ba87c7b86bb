/-
Consumption order: walking the trees of a forest gives the instructions back in
the order they were read.

A tree of an assembled forest is a run of consecutive nodes that ends in its
root, and the trees of the roots, one after the other, are all the nodes. Both
come from one invariant of assembly: the trees of the values on the stack, from
the bottom up, are the nodes `0, 1, …` that exist so far. Then the operands an
instruction takes from the top are a suffix of those nodes, hence a run, and the
node of the instruction comes right after it.

The walk itself is a loop over a list of things to do. It is compared with the
recursion on the tree first, and only the recursion is looked at after that.
-/
import ClassLens.Forest.Outline
import ClassLens.Proofs.Forest.Assembly

set_option autoImplicit false

namespace ClassLens

namespace Forest

/-! ## The walk is the recursion -/

theorem postorderTree_eq (f : Forest) (id : Nat) :
    f.postorderTree id = (f.children id).flatMap f.postorderTree ++ [id] := by
  rw [postorderTree, List.flatMap_subtype (g := f.postorderTree) (fun _ _ => rfl),
    List.unattach_attach]

/-- The nodes that one thing to do still gives. -/
def Visit.remaining (f : Forest) : Visit → List Nat
  | .tree id => f.postorderTree id
  | .node id => [id]

/-- The walk gives what it has and then what is left to do. -/
theorem postorderFrom_eq (f : Forest) (pending : List Visit) (done : List Nat) :
    f.postorderFrom pending done = done.reverse ++ pending.flatMap (Visit.remaining f) := by
  fun_induction postorderFrom f pending done with
  | case1 done => simp
  | case2 done id rest ih =>
    rw [ih, List.reverse_cons, List.flatMap_cons, List.append_assoc]
    rfl
  | case3 done id rest ih =>
    -- A tree is replaced by its operands and then its root, as in the recursion.
    have htree : ((f.children id).map Visit.tree).flatMap (Visit.remaining f) =
        (f.children id).flatMap f.postorderTree := by
      rw [List.flatMap_map]
      rfl
    rw [ih, List.flatMap_append, List.flatMap_cons, List.flatMap_cons, htree]
    simp only [Visit.remaining, f.postorderTree_eq id, List.append_assoc]

theorem postorder_eq_postorderTree (f : Forest) (id : Nat) :
    f.postorder id = f.postorderTree id := by
  rw [postorder, postorderFrom_eq]
  simp [Visit.remaining]

theorem length_postorderTree (f : Forest) (id : Nat) :
    (f.postorderTree id).length = f.treeSize id := by
  induction id using Nat.strongRecOn with
  | ind id ih =>
    have hsum : (f.children id).map (fun c => (f.postorderTree c).length) =
        (f.children id).map f.treeSize :=
      List.map_congr_left fun c hc => ih c (f.children_lt hc)
    rw [postorderTree_eq, treeSize_eq, List.length_append, length_flatMap_eq_natSum, hsum,
      List.length_singleton, Nat.add_comm]

/-- A tree depends on the content of the nodes up to its root and on nothing
else. -/
theorem AgreeBelow.postorderTree_eq {f g : Forest} {bound id : Nat} (h : f.AgreeBelow g bound)
    (hid : id < bound) : f.postorderTree id = g.postorderTree id := by
  induction id using Nat.strongRecOn with
  | ind id ih =>
    have hchildren : f.children id = g.children id := h.children_eq hid
    have htrees : (f.children id).flatMap f.postorderTree =
        (f.children id).flatMap g.postorderTree := by
      rw [List.flatMap_def, List.flatMap_def, List.map_congr_left fun c hc =>
        ih c (f.children_lt hc) (Nat.lt_trans (f.children_lt hc) hid)]
    rw [f.postorderTree_eq, g.postorderTree_eq, htrees, hchildren]

end Forest

/-! ## The invariant -/

/-- What is behind a cut through `0, 1, …, n - 1` is a run that ends there. -/
theorem eq_range'_of_append_eq_range {before after : List Nat} {n : Nat}
    (h : before ++ after = List.range n) :
    after.length ≤ n ∧ after = List.range' (n - after.length) after.length := by
  have hlength : before.length + after.length = n := by
    rw [← List.length_append, h, List.length_range]
  have hstart : n - after.length = before.length := by omega
  have hrest : n - before.length = after.length := by omega
  refine ⟨by omega, ?_⟩
  calc after = (before ++ after).drop before.length := by rw [List.drop_left]
    _ = (List.range' 0 n).drop before.length := by rw [h, List.range_eq_range']
    _ = List.range' (n - after.length) after.length := by
      rw [List.drop_range', hstart, hrest, Nat.zero_add, Nat.mul_one]

namespace Assembly

variable {m : Method} {a : Assembly}

/-- The values on the stack, from the bottom up, are trees whose nodes in
consumption order are all the nodes; and each tree is a run of nodes that ends
in its root. -/
structure InOrder (m : Method) (a : Assembly) : Prop where
  stack : a.stack.reverse.flatMap (a.forest m).postorderTree = List.range a.nodes.size
  run : ∀ k < a.nodes.size, (a.forest m).treeSize k ≤ k + 1 ∧
    (a.forest m).postorderTree k =
      List.range' (k + 1 - (a.forest m).treeSize k) ((a.forest m).treeSize k)

theorem inOrder_empty (m : Method) : InOrder m empty where
  stack := rfl
  run := by intro k hk; simp [empty] at hk

/-- Trees on the stack are the same after an instruction as before. -/
theorem flatMap_postorderTree_reduce (m : Method) (a : Assembly) (i : Instruction) (count : Nat)
    (ids : List Nat) (hids : ∀ id ∈ ids, id ∈ a.stack) :
    ids.flatMap ((a.reduce i count).forest m).postorderTree =
      ids.flatMap (a.forest m).postorderTree := by
  rw [List.flatMap_def, List.flatMap_def]
  congr 1
  refine List.map_congr_left fun id hid => ?_
  exact ((agreeBelow_reduce m a i count).postorderTree_eq (a.stack_lt id (hids id hid))).symm

theorem InOrder.reduce (h : InOrder m a) (i : Instruction) (count : Nat) :
    InOrder m (a.reduce i count) := by
  have hagree := agreeBelow_reduce m a i count
  -- The stack is cut into what stays below and what the instruction consumes.
  have hbelow := flatMap_postorderTree_reduce m a i count (a.stack.drop count).reverse
    fun id hid => List.mem_of_mem_drop (List.mem_reverse.mp hid)
  have hoperands := flatMap_postorderTree_reduce m a i count (a.stack.take count).reverse
    fun id hid => List.mem_of_mem_take (List.mem_reverse.mp hid)
  -- This cut through the stack is a cut through the nodes so far.
  have hcut : (a.stack.drop count).reverse.flatMap (a.forest m).postorderTree ++
      (a.stack.take count).reverse.flatMap (a.forest m).postorderTree =
        List.range a.nodes.size := by
    rw [← List.flatMap_append, ← List.reverse_append, List.take_append_drop, h.stack]
  have hnew : ((a.reduce i count).forest m).postorderTree a.nodes.size =
      (a.stack.take count).reverse.flatMap (a.forest m).postorderTree ++ [a.nodes.size] := by
    rw [Forest.postorderTree_eq, children_reduce, hoperands]
  refine ⟨?_, ?_⟩
  · rw [stack_reduce, List.reverse_cons, List.flatMap_append, hbelow, List.flatMap_singleton,
      hnew, ← List.append_assoc, hcut, size_reduce, List.range_succ]
  · intro k hk
    rw [← Forest.length_postorderTree]
    -- Old nodes keep their trees; the new one is the run behind the cut and itself.
    rcases Nat.lt_succ_iff_lt_or_eq.mp (by rwa [size_reduce] at hk) with hold | rfl
    · rw [← hagree.postorderTree_eq hold, Forest.length_postorderTree]
      exact h.run k hold
    · obtain ⟨hle, hrun⟩ := eq_range'_of_append_eq_range hcut
      rw [hnew, List.length_append, List.length_singleton]
      refine ⟨by omega, ?_⟩
      rw [Nat.add_sub_add_right, List.range'_1_concat, ← hrun, Nat.sub_add_cancel hle]

theorem inOrder_run {is : List Instruction} (h : empty.run m is = .ok a) : InOrder m a :=
  run_induction (P := fun _ a => InOrder m a) (inOrder_empty m)
    (fun _ _ i count _ _ ha => ha.reduce i count) h

end Assembly

/-! ## Flattening an assembled forest -/

namespace Forest

/-- Flattening undoes assembly. In an assembled forest the tree under a node,
walked in consumption order, is a run of consecutive nodes that ends in the
node; the trees of the roots give all nodes in order; and reading the
instructions off in that order gives the method's instructions back. -/
theorem postorder_assemble {m : Method} {f : Forest} (h : assemble m = .ok f) :
    (∀ id < f.size, f.treeSize id ≤ id + 1 ∧
      f.postorder id = List.range' (id + 1 - f.treeSize id) (f.treeSize id)) ∧
    f.roots.flatMap f.postorder = List.range f.size ∧
    (f.roots.flatMap f.postorder).map (fun id => (f.node? id).map (·.instruction)) =
      m.instructions.map some := by
  obtain ⟨a, ha, hf⟩ := assemble_eq_ok_iff.mp h
  have horder := Assembly.inOrder_run ha
  have hwalk : f.postorder = f.postorderTree := funext f.postorder_eq_postorderTree
  have hall : f.roots.flatMap f.postorder = List.range f.size := by
    rw [hwalk, hf]
    exact horder.stack
  refine ⟨?_, hall, ?_⟩
  · rw [hwalk, hf]
    exact horder.run
  · rw [hall, size_assemble h]
    simp only [instruction_assemble h]
    apply List.ext_getElem
    · rw [List.length_map, List.length_map, List.length_range]
    · intro k hk _
      rw [List.length_map, List.length_range] at hk
      rw [List.getElem_map, List.getElem_map, List.getElem_range, List.getElem?_eq_getElem hk]

/-- A static method that does nothing and then returns `(a + b) * c`. -/
def productMethod : Method where
  owner := "Sample"
  name := "product"
  descriptor := "(III)I"
  access := { isPublic := true, isStatic := true, isAbstract := false }
  instructions :=
    [⟨0, 0, 0x00, .plain⟩, ⟨1, 1, 0x1a, .slot 0⟩, ⟨2, 2, 0x1b, .slot 1⟩, ⟨3, 3, 0x60, .plain⟩,
      ⟨4, 4, 0x1c, .slot 2⟩, ⟨5, 5, 0x68, .plain⟩, ⟨6, 6, 0xac, .plain⟩]
  handlers := []

theorem postorder_assemble_product :
    ∃ f, assemble productMethod = .ok f ∧ f.roots = [0, 6] ∧
      f.postorder 0 ++ f.postorder 6 = [0, 1, 2, 3, 4, 5, 6] := by
  obtain ⟨f, hf, hroots⟩ : ∃ f, assemble productMethod = .ok f ∧ f.roots = [0, 6] :=
    ⟨_, rfl, rfl⟩
  obtain ⟨-, hall, -⟩ := postorder_assemble hf
  have hsize : f.size = 7 := size_assemble hf
  rw [hroots, hsize, List.flatMap_cons, List.flatMap_singleton] at hall
  exact ⟨f, hf, hroots, hall⟩

end Forest

end ClassLens
