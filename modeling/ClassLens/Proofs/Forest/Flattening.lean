/-
Flattening: trees of instructions, written out in the order they are consumed,
assemble to themselves.

`InstructionTree` is a tree with nothing in it but instructions: it has no
numbers and no links, and is a forest's tree with the arena taken away. A tree
is complete when every instruction in it has as many operands as its arity says.
The theorem at the end says that the forest of the flattened code of complete
trees shows exactly these trees.

The induction is on a tree, over whatever has been assembled before it: reading
a complete tree pushes one value onto the stack, that value shows the tree, and
the stack below and the nodes before stay as they were. An instruction then
finds its operands on top of the stack, whatever lies below them.
-/
import ClassLens.Proofs.Forest.Assembly

set_option autoImplicit false

namespace ClassLens

/-! ## Trees of instructions -/

/-- An instruction with the trees of its operands, in the order they are
pushed. -/
inductive InstructionTree where
  | node (instruction : Instruction) (operands : List InstructionTree)

namespace InstructionTree

mutual

/-- The instructions of a tree in consumption order: the operands one after the
other, then the instruction. -/
def flatten : InstructionTree → List Instruction
  | node i operands => flattenAll operands ++ [i]

/-- The instructions of several trees, tree after tree. -/
def flattenAll : List InstructionTree → List Instruction
  | [] => []
  | t :: ts => t.flatten ++ flattenAll ts

end

/-- Every instruction of the tree has as many operands as it consumes in a
method. -/
inductive Complete (m : Method) : InstructionTree → Prop where
  | node (i : Instruction) (operands : List InstructionTree)
      (arity : i.arity m = .ok operands.length) (all : ∀ t ∈ operands, Complete m t) :
      Complete m (node i operands)

end InstructionTree

/-- The arity of an instruction depends on the header of the method, and not on
its code. -/
theorem Instruction.arity_header (i : Instruction) (m : Method) (is : List Instruction) :
    i.arity { m with instructions := is } = i.arity m := rfl

namespace Forest

/-! ## The tree under a node -/

/-- The tree that a node shows: its instruction and the trees of its operands,
all of which have to be there. -/
def tree? (f : Forest) (id : Nat) : Option InstructionTree :=
  (f.node? id).bind fun n =>
    ((f.children id).attach.mapM fun c => f.tree? c.1).map (.node n.instruction)
termination_by id
decreasing_by exact f.children_lt c.2

/-- The operands are looked at through the list of their trees, so two lists
with the same trees cannot be told apart. -/
theorem tree?_eq (f : Forest) (k : Nat) :
    f.tree? k = ((f.node? k).map (·.instruction)).bind fun i =>
      (((f.children k).map f.tree?).mapM id).map (.node i) := by
  rw [tree?, List.mapM_subtype (g := f.tree?) (fun _ _ => rfl), List.unattach_attach,
    Option.bind_map, List.mapM_map]
  rfl

/-- The tree under a node depends on the nodes up to it and on nothing else. -/
theorem AgreeBelow.tree?_eq {f g : Forest} {bound id : Nat} (h : f.AgreeBelow g bound)
    (hid : id < bound) : f.tree? id = g.tree? id := by
  induction id using Nat.strongRecOn with
  | ind id ih =>
    have hchildren : f.children id = g.children id := h.children_eq hid
    have htrees : (f.children id).map f.tree? = (f.children id).map g.tree? :=
      List.map_congr_left fun c hc =>
        ih c (f.children_lt hc) (Nat.lt_trans (f.children_lt hc) hid)
    rw [f.tree?_eq, g.tree?_eq, htrees, hchildren, h.instruction_eq hid]

theorem AgreeBelow.map_tree?_eq {f g : Forest} {bound : Nat} (h : f.AgreeBelow g bound)
    (ids : List Nat) (hids : ∀ id ∈ ids, id < bound) : ids.map f.tree? = ids.map g.tree? :=
  List.map_congr_left fun id hid => h.tree?_eq (hids id hid)

end Forest

/-! ## Reading complete trees -/

namespace Assembly

variable {m : Method} {a b c : Assembly} {ts us : List InstructionTree}

/-- `b` is `a` after some trees: the values they push, which show them, lie on
the stack of `a`, and the nodes of `a` are as they were. -/
structure Grown (m : Method) (a b : Assembly) (ts : List InstructionTree) : Prop where
  agree : (a.forest m).AgreeBelow (b.forest m) a.nodes.size
  size_le : a.nodes.size ≤ b.nodes.size
  shows : ∃ ids : List Nat, b.stack = ids.reverse ++ a.stack ∧
    ids.map (b.forest m).tree? = ts.map some

/-- `a` gets to `b` by reading the code of some trees, whatever comes after. -/
def Reads (m : Method) (a b : Assembly) (code : List Instruction) : Prop :=
  ∀ rest, a.run m (code ++ rest) = b.run m rest

theorem Grown.refl (m : Method) (a : Assembly) : Grown m a a [] where
  agree := fun _ _ => rfl
  size_le := Nat.le_refl _
  shows := ⟨[], rfl, rfl⟩

/-- Trees read after trees. The later ones leave the nodes of the earlier ones
alone, so these still show what they showed. -/
theorem Grown.append (hab : Grown m a b ts) (hbc : Grown m b c us) : Grown m a c (ts ++ us) := by
  obtain ⟨ids, hb, hids⟩ := hab.shows
  obtain ⟨ids', hc, hids'⟩ := hbc.shows
  have hkept : ids.map (b.forest m).tree? = ids.map (c.forest m).tree? := by
    refine hbc.agree.map_tree?_eq ids fun id hid => b.stack_lt id ?_
    rw [hb]
    exact List.mem_append_left _ (List.mem_reverse.mpr hid)
  refine ⟨hab.agree.trans hbc.agree hab.size_le, Nat.le_trans hab.size_le hbc.size_le,
    ids ++ ids', ?_, ?_⟩
  · rw [hc, hb, List.reverse_append, List.append_assoc]
  · rw [List.map_append, List.map_append, ← hkept, hids, hids']

/-- An instruction that finds the values of all its operands on top of the stack
makes them the operands of its tree. -/
theorem Grown.reduce (h : Grown m a b ts) (i : Instruction) :
    Grown m a (b.reduce i ts.length) [.node i ts] := by
  obtain ⟨ids, hstack, hids⟩ := h.shows
  have hlength : ids.length = ts.length := by
    rw [← List.length_map (f := (b.forest m).tree?), hids, List.length_map]
  have htake : (b.stack.take ts.length).reverse = ids := by
    rw [hstack, List.take_left' (by rw [List.length_reverse, hlength]), List.reverse_reverse]
  -- What is left below is the stack from before the operands.
  have hdrop : b.stack.drop ts.length = a.stack := by
    rw [hstack, List.drop_left' (by rw [List.length_reverse, hlength])]
  have hagree := agreeBelow_reduce m b i ts.length
  -- The instruction becomes the parent of its operands, which trees do not show.
  have hkept : ids.map (b.forest m).tree? =
      ids.map ((b.reduce i ts.length).forest m).tree? := by
    refine hagree.map_tree?_eq ids fun id hid => b.stack_lt id ?_
    rw [hstack]
    exact List.mem_append_left _ (List.mem_reverse.mpr hid)
  have hoperands : (ids.map ((b.reduce i ts.length).forest m).tree?).mapM id = some ts := by
    rw [← hkept, hids, List.mapM_map]
    exact (List.mapM_pure (f := id)).trans (congrArg some ts.map_id)
  refine ⟨h.agree.trans hagree h.size_le, ?_, [b.nodes.size], ?_, ?_⟩
  · rw [size_reduce]
    exact Nat.le_succ_of_le h.size_le
  · rw [stack_reduce, hdrop]
    rfl
  · rw [List.map_singleton, List.map_singleton, Forest.tree?_eq, instruction_reduce,
      children_reduce, htake, hoperands]
    rfl

/-- Reading is step by step. -/
theorem Reads.append {code code' : List Instruction} (hab : Reads m a b code)
    (hbc : Reads m b c code') : Reads m a c (code ++ code') := by
  intro rest
  rw [List.append_assoc, hab, hbc]

/-- If the code of each of some trees can be read, so can the code of all. -/
theorem exists_grown_flattenAll (ts : List InstructionTree)
    (hts : ∀ t ∈ ts, ∀ a, ∃ b, Grown m a b [t] ∧ Reads m a b t.flatten) :
    ∀ a, ∃ b, Grown m a b ts ∧ Reads m a b (InstructionTree.flattenAll ts) := by
  induction ts with
  | nil =>
    intro a
    exact ⟨a, Grown.refl m a, fun _ => rfl⟩
  | cons t ts ih =>
    intro a
    obtain ⟨b, hab, hread⟩ := hts t List.mem_cons_self a
    obtain ⟨c, hbc, hreads⟩ := ih (fun t ht => hts t (List.mem_cons_of_mem _ ht)) b
    exact ⟨c, hab.append hbc, hread.append hreads⟩

/-- The code of a complete tree can be read on top of anything, and gives the
tree. -/
theorem exists_grown_flatten {t : InstructionTree} (h : t.Complete m) :
    ∀ a, ∃ b, Grown m a b [t] ∧ Reads m a b t.flatten := by
  induction h with
  -- On the derivation: the operands come with what was to be shown for them.
  | node i ts harity _ ih =>
    intro a
    obtain ⟨b, hab, hread⟩ := exists_grown_flattenAll ts ih a
    refine ⟨b.reduce i ts.length, hab.reduce i, hread.append fun rest => ?_⟩
    have hheight : ts.length ≤ b.stack.length := by
      obtain ⟨ids, hstack, hids⟩ := hab.shows
      have hlength := congrArg List.length hids
      rw [List.length_map, List.length_map] at hlength
      rw [hstack, List.length_append, List.length_reverse]
      omega
    rw [List.singleton_append, run, step_eq_ok_iff.mpr ⟨_, harity, hheight, rfl⟩]

end Assembly

/-! ## Assembling a flattened forest -/

/-- Completeness depends on the header of the method, and not on its code. -/
theorem InstructionTree.Complete.header {m : Method} {t : InstructionTree} (h : t.Complete m)
    (is : List Instruction) : t.Complete { m with instructions := is } := by
  induction h with
  | node i ts harity _ ih => exact .node i ts (by rw [Instruction.arity_header, harity]) ih

namespace Forest

/-- Assembly undoes flattening. For every header and all complete trees, the
method whose code is the flattened trees has a forest; its roots show the trees,
one each and in order; and it has no other nodes than the trees have
instructions. -/
theorem assemble_flattenAll (m : Method) (ts : List InstructionTree)
    (h : ∀ t ∈ ts, t.Complete m) :
    ∃ f, assemble { m with instructions := InstructionTree.flattenAll ts } = .ok f ∧
      f.roots.map f.tree? = ts.map some ∧
      f.size = (InstructionTree.flattenAll ts).length := by
  obtain ⟨b, hgrown, hreads⟩ := Assembly.exists_grown_flattenAll ts
    (fun t ht => Assembly.exists_grown_flatten ((h t ht).header (InstructionTree.flattenAll ts)))
    Assembly.empty
  have hrun := hreads []
  rw [List.append_nil] at hrun
  have hassemble := assemble_eq_ok_iff.mpr ⟨b, hrun, rfl⟩
  obtain ⟨ids, hstack, hids⟩ := hgrown.shows
  refine ⟨_, hassemble, ?_, size_assemble hassemble⟩
  -- Nothing lay on the stack before, so the values pushed are all there is.
  have hroots : b.stack.reverse = ids := by
    rw [hstack, Assembly.empty, List.append_nil, List.reverse_reverse]
  exact (congrArg (List.map _) hroots).trans hids

/-- The header of a static method with two parameters. -/
def gridMethod : Method where
  owner := "Sample"
  name := "grid"
  descriptor := "(II)V"
  access := { isPublic := true, isStatic := true, isAbstract := false }
  instructions := []
  handlers := []

/-- `grid = new int[a][b]`, then the return. -/
def gridTrees : List InstructionTree :=
  [.node ⟨3, 6, 0x4d, .slot 2⟩
    [.node ⟨2, 2, 0xc5, .multiArray "[[I" 2⟩
      [.node ⟨0, 0, 0x1a, .slot 0⟩ [], .node ⟨1, 1, 0x1b, .slot 1⟩ []]],
    .node ⟨4, 7, 0xb1, .plain⟩ []]

theorem complete_gridTrees : ∀ t ∈ gridTrees, t.Complete gridMethod := by
  have hleaf : ∀ i : Instruction, i.arity gridMethod = .ok 0 →
      InstructionTree.Complete gridMethod (.node i []) :=
    fun i hi => .node i [] hi fun t ht => absurd ht List.not_mem_nil
  have hgrid : InstructionTree.Complete gridMethod
      (.node ⟨2, 2, 0xc5, .multiArray "[[I" 2⟩
        [.node ⟨0, 0, 0x1a, .slot 0⟩ [], .node ⟨1, 1, 0x1b, .slot 1⟩ []]) := by
    refine .node _ _ rfl ?_
    rw [List.forall_mem_cons, List.forall_mem_singleton]
    exact ⟨hleaf _ rfl, hleaf _ rfl⟩
  rw [gridTrees, List.forall_mem_cons, List.forall_mem_singleton]
  exact ⟨.node _ _ rfl (List.forall_mem_singleton.mpr hgrid), hleaf _ rfl⟩

theorem assemble_flattenAll_grid :
    (∀ t ∈ gridTrees, t.Complete gridMethod) ∧
    ∃ f, assemble { gridMethod with instructions := InstructionTree.flattenAll gridTrees } = .ok f ∧
      f.roots.map f.tree? = gridTrees.map some ∧ f.size = 5 :=
  ⟨complete_gridTrees, assemble_flattenAll gridMethod gridTrees complete_gridTrees⟩

end Forest

end ClassLens
