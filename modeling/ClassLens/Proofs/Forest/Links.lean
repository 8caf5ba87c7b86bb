/-
Links: what the nodes of an assembled forest say of each other.

A forest says most things twice. A node lists its operands, and each of these
names the node back; the roots are listed, and are the nodes that name nothing;
neighbours follow from the numbers. The two accounts are written at different
times, so they agree only because of what the stack holds: in every state of an
assembly it has exactly the nodes without a parent, each once, the newest first
(`Linked`). An instruction takes some of these, becomes their parent and is
itself the newest node without one.

The same invariant makes it safe to set the links one at a time, as
`linkAll?` does: a node never gets a second parent, and never more operands than
it has room for.
-/
import ClassLens.Proofs.Forest.Assembly

set_option autoImplicit false

namespace ClassLens

/-! ## Setting links one at a time -/

/-- A node as it is stored, with its neighbours. -/
structure Cell where
  instruction : Instruction
  operandCount : Nat
  children : List Nat
  parent : Option Nat
  left : Option Nat
  right : Option Nat
  deriving DecidableEq, Repr

namespace Cell

/-- Puts an operand in front of the others, if there is room for it. -/
def addChild? (cell : Cell) (child : Nat) : Option Cell :=
  if cell.children.length < cell.operandCount then
    some { cell with children := child :: cell.children }
  else none

/-- Sets the parent, if there is none. -/
def setParent? (cell : Cell) (parent : Nat) : Option Cell :=
  if cell.parent = none then some { cell with parent := some parent } else none

end Cell

/-- Links operands, newest first, with the cell that is to come behind the
others. -/
def linkOperands? (cell : Cell) (cells : Array Cell) : List Nat → Option (Cell × Array Cell)
  | [] => some (cell, cells)
  | child :: rest => do
    let cell ← cell.addChild? child
    let operand ← cells[child]?
    let operand ← operand.setParent? cells.size
    linkOperands? cell (cells.setIfInBounds child operand) rest

/-- Reads instructions into cells. There is no answer if a link cannot be
set. -/
def linkAll? (m : Method) (cells : Array Cell) (stack : List Nat) :
    List Instruction → Option (Except AssemblyError (Array Cell × List Nat))
  | [] => some (.ok (cells, stack))
  | i :: rest =>
    match i.arity m with
    | .error fault => some (.error (.descriptor fault))
    | .ok count =>
      if stack.length < count then some (.error (.underflow i count stack.length))
      else
        match linkOperands? ⟨i, count, [], none, none, none⟩ cells (stack.take count) with
        | none => none
        | some (cell, linked) =>
          linkAll? m (linked.push cell) (cells.size :: stack.drop count) rest

/-- Sets the neighbours of all cells. -/
def linkNeighbours (cells : Array Cell) : Array Cell :=
  cells.mapIdx fun k cell =>
    { cell with
      left := if k = 0 then none else some (k - 1)
      right := if k + 1 < cells.size then some (k + 1) else none }

/-- The cells of a method and the numbers of its roots, every link set on its
own. -/
def assembleCells? (m : Method) : Option (Except AssemblyError (Array Cell × List Nat)) :=
  (linkAll? m #[] [] m.instructions).map fun result =>
    result.map fun linked => (linkNeighbours linked.1, linked.2.reverse)

/-! ## The invariant -/

namespace Forest

theorem children_of_size_le {f : Forest} {k : Nat} (h : f.size ≤ k) : f.children k = [] := by
  rw [children, node?, Array.getElem?_eq_none h]

theorem parent?_of_size_le {f : Forest} {k : Nat} (h : f.size ≤ k) : f.parent? k = none := by
  rw [parent?, node?, Array.getElem?_eq_none h]
  rfl

end Forest

namespace Assembly

variable {m : Method} {a : Assembly}

/-- The links of a forest in the making are two-way, and the stack holds the
nodes without a parent, each once and newest first. -/
structure Linked (m : Method) (a : Assembly) : Prop where
  complete : ∀ (k : Nat) (n : Node), a.nodes[k]? = some n →
    n.children.length = n.operandCount ∧ n.instruction.arity m = .ok n.operandCount
  ascending : ∀ k, ((a.forest m).children k).Pairwise (· < ·)
  parent_iff : ∀ c p, (a.forest m).parent? c = some p ↔ c ∈ (a.forest m).children p
  stack_descending : a.stack.Pairwise (· > ·)
  stack_iff : ∀ k, k ∈ a.stack ↔ k < a.nodes.size ∧ (a.forest m).parent? k = none

theorem linked_empty (m : Method) : Linked m empty where
  complete := by simp [empty]
  ascending := by simp [forest, empty, Forest.children, Forest.node?]
  parent_iff := by simp [forest, empty, Forest.children, Forest.parent?, Forest.node?]
  stack_descending := .nil
  stack_iff := by simp [empty]

/-- Nodes that are not taken off the stack are not the new node. -/
theorem ne_size_of_mem_take {count k : Nat} (h : k ∈ a.stack.take count) : k ≠ a.nodes.size :=
  Nat.ne_of_lt (a.stack_lt k (List.mem_of_mem_take h))

/-- The operands that an instruction takes get it as their parent; no other
parent changes, and the instruction has none. -/
theorem parent?_reduce (m : Method) (a : Assembly) (i : Instruction) (count k : Nat) :
    ((a.reduce i count).forest m).parent? k =
      if k ∈ a.stack.take count then some a.nodes.size else (a.forest m).parent? k := by
  by_cases hnew : k = a.nodes.size
  · have hnot : k ∉ a.stack.take count := fun hk => ne_size_of_mem_take hk hnew
    rw [if_neg hnot, Forest.parent?_of_size_le (f := a.forest m) (Nat.le_of_eq hnew.symm),
      Forest.parent?, Forest.node?, forest, getElem?_reduce, if_pos hnew]
    rfl
  · rw [Forest.parent?, Forest.parent?, Forest.node?, Forest.node?, forest, forest,
      getElem?_reduce, if_neg hnew]
    by_cases hk : k ∈ a.stack.take count
    · have hlt := a.stack_lt k (List.mem_of_mem_take hk)
      rw [Array.getElem?_eq_getElem hlt]
      simp [hk]
    · cases a.nodes[k]? <;> simp [hk]

/-- Nodes that were there before an instruction keep their operands. -/
theorem children_reduce_of_ne {i : Instruction} {count k : Nat} (h : k ≠ a.nodes.size) :
    ((a.reduce i count).forest m).children k = (a.forest m).children k := by
  rcases Nat.lt_or_gt_of_ne h with hlt | hgt
  · exact ((agreeBelow_reduce m a i count).children_eq hlt).symm
  · have hsize : ((a.reduce i count).forest m).size ≤ k :=
      Nat.le_trans (Nat.le_of_eq (size_reduce a i count)) hgt
    rw [Forest.children_of_size_le hsize,
      Forest.children_of_size_le (f := a.forest m) (Nat.le_of_lt hgt)]

/-- What an instruction leaves on the stack is what it does not take: nothing is
on the stack twice. -/
theorem mem_drop_iff (hnodup : a.stack.Nodup) (count k : Nat) :
    k ∈ a.stack.drop count ↔ k ∈ a.stack ∧ k ∉ a.stack.take count := by
  rw [← List.take_append_drop count a.stack] at hnodup
  have hdisjoint := (List.nodup_append.mp hnodup).2.2
  have hmem : k ∈ a.stack ↔ k ∈ a.stack.take count ∨ k ∈ a.stack.drop count := by
    rw [← List.mem_append, List.take_append_drop]
  rw [hmem]
  constructor
  · exact fun hdrop => ⟨.inr hdrop, fun htake => hdisjoint k htake k hdrop rfl⟩
  · rintro ⟨htake | hdrop, hnot⟩
    · exact absurd htake hnot
    · exact hdrop

theorem Linked.nodup_stack (h : Linked m a) : a.stack.Nodup :=
  h.stack_descending.imp fun hlt => Nat.ne_of_gt hlt

theorem Linked.reduce (h : Linked m a) {i : Instruction} {count : Nat}
    (harity : i.arity m = .ok count) (hcount : count ≤ a.stack.length) :
    Linked m (a.reduce i count) where
  complete := by
    intro k n hn
    rw [getElem?_reduce] at hn
    split at hn
    · obtain rfl := Option.some.inj hn
      refine ⟨?_, harity⟩
      rw [List.length_reverse, List.length_take, Nat.min_eq_left hcount]
    · obtain ⟨n', hn', rfl⟩ := Option.map_eq_some_iff.mp hn
      have hold := h.complete k n' hn'
      split <;> exact hold
  ascending := by
    intro k
    by_cases hk : k = a.nodes.size
    · rw [hk, children_reduce, List.pairwise_reverse]
      exact h.stack_descending.sublist (List.take_sublist _ _)
    · rw [children_reduce_of_ne hk]
      exact h.ascending k
  parent_iff := by
    intro c p
    rw [parent?_reduce]
    -- A node that is taken had no parent, so no node listed it.
    by_cases hc : c ∈ a.stack.take count
    · have hfree := ((h.stack_iff c).mp (List.mem_of_mem_take hc)).2
      rw [if_pos hc]
      by_cases hp : p = a.nodes.size
      · rw [hp, children_reduce, List.mem_reverse]
        exact ⟨fun _ => hc, fun _ => rfl⟩
      · have hold : c ∉ (a.forest m).children p := by
          rw [← h.parent_iff, hfree]
          simp
        rw [children_reduce_of_ne hp]
        exact ⟨fun heq => absurd (Option.some.inj heq).symm hp, fun hmem => absurd hmem hold⟩
    · rw [if_neg hc, h.parent_iff]
      by_cases hp : p = a.nodes.size
      · have hnone : (a.forest m).children p = [] :=
          Forest.children_of_size_le (Nat.le_of_eq hp.symm)
        rw [hnone, hp, children_reduce, List.mem_reverse]
        exact ⟨fun hmem => absurd hmem List.not_mem_nil, fun hmem => absurd hmem hc⟩
      · rw [children_reduce_of_ne hp]
  stack_descending := by
    rw [stack_reduce, List.pairwise_cons]
    exact ⟨fun k hk => a.stack_lt k (List.mem_of_mem_drop hk),
      h.stack_descending.sublist (List.drop_sublist _ _)⟩
  stack_iff := by
    intro k
    rw [stack_reduce, List.mem_cons, size_reduce, parent?_reduce,
      mem_drop_iff h.nodup_stack, h.stack_iff]
    by_cases ht : k ∈ a.stack.take count
    · simp [ht, ne_size_of_mem_take ht]
    · simp only [ht, not_false_eq_true, and_true, if_false, Nat.lt_succ_iff_lt_or_eq]
      constructor
      · rintro (rfl | ⟨hlt, hnone⟩)
        · exact ⟨.inr rfl, Forest.parent?_of_size_le (f := a.forest m) (Nat.le_refl _)⟩
        · exact ⟨.inl hlt, hnone⟩
      · rintro ⟨hlt | rfl, hnone⟩
        · exact .inr ⟨hlt, hnone⟩
        · exact .inl rfl

theorem linked_run {is : List Instruction} (h : empty.run m is = .ok a) : Linked m a :=
  run_induction (P := fun _ a => Linked m a) (linked_empty m)
    (fun _ _ _ _ harity hcount ha => ha.reduce harity hcount) h

end Assembly

theorem Forest.parent?_eq_some_iff {m : Method} {f : Forest} (h : Forest.assemble m = .ok f)
    {c p : Nat} : f.parent? c = some p ↔ c ∈ f.children p := by
  obtain ⟨a, ha, rfl⟩ := Forest.assemble_eq_ok_iff.mp h
  exact (Assembly.linked_run ha).parent_iff c p

/-! ## One link after the other -/

/-- A node as a cell whose neighbours are not set yet. -/
def Node.cell (n : Node) : Cell :=
  ⟨n.instruction, n.operandCount, n.children, n.parent, none, none⟩

/-- Setting one parent in the cells is setting it in the nodes. -/
theorem setIfInBounds_cell {nodes : Array Node} {c parent : Nat} {operand : Node}
    (h : nodes[c]? = some operand) :
    (nodes.map Node.cell).setIfInBounds c { operand.cell with parent := some parent } =
      (nodes.modify c fun n => { n with parent := some parent }).map Node.cell := by
  obtain ⟨hlt, hget⟩ := Array.getElem?_eq_some_iff.mp h
  apply Array.ext_getElem?
  intro k
  rw [Array.getElem?_setIfInBounds, Array.getElem?_map, Array.getElem?_map,
    Array.getElem?_modify, Array.size_map]
  by_cases hk : c = k
  · subst hk
    rw [if_pos rfl, if_pos hlt, if_pos rfl, h]
    rfl
  · rw [if_neg hk, if_neg hk]

/-- Distinct operands without a parent can be linked one at a time, if there is
room for all of them, and this is adopting them. -/
theorem linkOperands?_eq {nodes : Array Node} {n : Node} {taken : List Nat}
    (hnodup : taken.Nodup)
    (hfree : ∀ c ∈ taken, ∃ operand : Node, nodes[c]? = some operand ∧ operand.parent = none)
    (hroom : taken.length + n.children.length ≤ n.operandCount) :
    linkOperands? n.cell (nodes.map Node.cell) taken =
      some (Node.cell { n with children := taken.reverse ++ n.children },
        (adopt nodes.size nodes taken).map Node.cell) := by
  induction taken generalizing nodes n with
  | nil => rfl
  | cons c cs ih =>
    obtain ⟨hc, hcs⟩ := List.nodup_cons.mp hnodup
    rw [List.length_cons] at hroom
    obtain ⟨operand, hoperand, hparent⟩ := hfree c List.mem_cons_self
    have hadd : n.cell.addChild? c = some (Node.cell { n with children := c :: n.children }) := by
      have hlt : n.cell.children.length < n.cell.operandCount := by
        show n.children.length < n.operandCount
        omega
      rw [Cell.addChild?, if_pos hlt]
      rfl
    have hcell : (nodes.map Node.cell)[c]? = some operand.cell := by
      rw [Array.getElem?_map, hoperand]
      rfl
    have hset : operand.cell.setParent? (nodes.map Node.cell).size =
        some { operand.cell with parent := some nodes.size } := by
      have hnone : operand.cell.parent = none := hparent
      rw [Cell.setParent?, if_pos hnone, Array.size_map]
    -- The operands that come later are others, so they are still without a parent.
    have hrest : ∀ c' ∈ cs, ∃ operand : Node,
        (nodes.modify c fun n => { n with parent := some nodes.size })[c']? = some operand ∧
          operand.parent = none := by
      intro c' hc'
      have hne : c ≠ c' := fun heq => hc (heq ▸ hc')
      rw [Array.getElem?_modify, if_neg hne]
      exact hfree c' (List.mem_cons_of_mem _ hc')
    have hadopt : adopt nodes.size nodes (c :: cs) =
        adopt (nodes.modify c fun n => { n with parent := some nodes.size }).size
          (nodes.modify c fun n => { n with parent := some nodes.size }) cs := by
      rw [Array.size_modify]
      rfl
    simp only [linkOperands?, hadd, Option.bind_eq_bind, Option.bind_some, hcell, hset]
    rw [setIfInBounds_cell hoperand, ih hcs hrest (by simp only [List.length_cons]; omega), hadopt,
      List.reverse_cons, List.append_assoc]
    rfl

namespace Assembly

variable {m : Method} {a : Assembly}

/-- In a state that keeps the invariant every link of the rest of the run can be
set, and the cells that come out are the nodes of the run. -/
theorem Linked.linkAll?_eq (h : Linked m a) (is : List Instruction) :
    linkAll? m (a.nodes.map Node.cell) a.stack is =
      some ((a.run m is).map fun b => (b.nodes.map Node.cell, b.stack)) := by
  induction is generalizing a with
  | nil => rfl
  | cons i is ih =>
    rw [linkAll?, run]
    cases hstep : a.step m i with
    | error e =>
      rcases step_eq_error_iff.mp hstep with
        ⟨fault, harity, rfl⟩ | ⟨count, harity, hshort, rfl⟩
      · simp only [harity]
        rfl
      · simp only [harity, if_pos hshort]
        rfl
    | ok next =>
      obtain ⟨count, harity, hcount, rfl⟩ := step_eq_ok_iff.mp hstep
      have hnodup : (a.stack.take count).Nodup := h.nodup_stack.sublist (List.take_sublist _ _)
      have hfree : ∀ c ∈ a.stack.take count,
          ∃ operand : Node, a.nodes[c]? = some operand ∧ operand.parent = none := by
        intro c hc
        obtain ⟨hlt, hnone⟩ := (h.stack_iff c).mp (List.mem_of_mem_take hc)
        refine ⟨a.nodes[c], Array.getElem?_eq_getElem hlt, ?_⟩
        rwa [Forest.parent?, Forest.node?, forest, Array.getElem?_eq_getElem hlt] at hnone
      have hlink := linkOperands?_eq (n := ⟨i, count, [], none⟩) hnodup hfree
        (by simp only [List.length_take, List.length_nil]; omega)
      have hcell : (⟨i, count, [], none, none, none⟩ : Cell) = Node.cell ⟨i, count, [], none⟩ := rfl
      have hpush : ((adopt a.nodes.size a.nodes (a.stack.take count)).map Node.cell).push
          (Node.cell ⟨i, count, (a.stack.take count).reverse ++ [], none⟩) =
            (a.reduce i count).nodes.map Node.cell := by
        rw [Assembly.reduce, Array.map_push, List.append_nil]
      have hnot : ¬ a.stack.length < count := by omega
      simp only [harity, if_neg hnot, hcell, hlink, hpush, Array.size_map]
      exact ih (h.reduce harity hcount)

end Assembly

/-! ## Assembled forests -/

namespace Forest

/-- The nodes of a forest as cells, with the neighbours that the forest gives
them. -/
def cells (f : Forest) : Array Cell :=
  f.nodes.mapIdx fun k n =>
    { instruction := n.instruction, operandCount := n.operandCount, children := n.children,
      parent := n.parent, left := f.left? k, right := f.right? k }

theorem left?_eq {f : Forest} {k : Nat} (h : k < f.size) :
    f.left? k = if k = 0 then none else some (k - 1) := by
  rw [left?]
  by_cases hzero : k = 0
  · simp [hzero]
  · rw [if_pos ⟨Nat.pos_of_ne_zero hzero, h⟩, if_neg hzero]

theorem linkNeighbours_eq (f : Forest) : linkNeighbours (f.nodes.map Node.cell) = f.cells := by
  apply Array.ext_getElem?
  intro k
  rw [linkNeighbours, cells, Array.getElem?_mapIdx, Array.getElem?_mapIdx, Array.getElem?_map,
    Array.size_map]
  cases hk : f.nodes[k]? with
  | none => rfl
  | some n =>
    obtain ⟨hlt, -⟩ := Array.getElem?_eq_some_iff.mp hk
    have hleft := left?_eq (f := f) hlt
    simp only [Option.map_some, ← hleft]
    rfl

/-- The links of a forest agree with each other and with the method. -/
structure WellLinked (m : Method) (f : Forest) : Prop where
  /-- Node `k` is made from instruction `k`, and there are no others. -/
  instruction : ∀ k, (f.node? k).map (·.instruction) = m.instructions[k]?
  /-- A node has as many operands as were resolved for it, which is the arity of
  its instruction. -/
  complete : ∀ p (n : Node), f.node? p = some n →
    (f.children p).length = n.operandCount ∧ n.instruction.arity m = .ok n.operandCount
  /-- Operands come in ascending order and before the node. -/
  ascending : ∀ p, (f.children p).Pairwise (· < ·) ∧ ∀ c ∈ f.children p, c < p
  /-- A node names as its parent the one node that lists it. -/
  parent_iff : ∀ c p, f.parent? c = some p ↔ c ∈ f.children p
  /-- No node is listed twice, by one node or by two. -/
  once : ((List.range f.size).flatMap f.children).Nodup
  /-- The roots ascend, and are the nodes without a parent. -/
  roots : f.roots.Pairwise (· < ·) ∧ ∀ k, k ∈ f.roots ↔ k < f.size ∧ f.parent? k = none
  /-- The neighbours are the nodes before and after; only the first has none
  before it, and only the last none after it. -/
  neighbours : ∀ k < f.size,
    f.left? k = (if k = 0 then none else some (k - 1)) ∧
    f.right? k = if k + 1 = f.size then none else some (k + 1)

/-- Two-way links make every node an operand of at most one. -/
theorem nodup_flatMap_children {f : Forest} (ascending : ∀ p, (f.children p).Pairwise (· < ·))
    (parent_iff : ∀ c p, f.parent? c = some p ↔ c ∈ f.children p) :
    ((List.range f.size).flatMap f.children).Nodup := by
  rw [List.Nodup, List.pairwise_flatMap]
  refine ⟨fun p _ => (ascending p).imp Nat.ne_of_lt, ?_⟩
  refine List.nodup_range.imp fun {p q} hne c hc d hd hcd => hne ?_
  have hparent := (parent_iff c p).mpr hc
  rw [hcd, (parent_iff d q).mpr hd] at hparent
  exact (Option.some.inj hparent).symm

/-- Assembling a method with every link set on its own, under the guard that the
link may be set, always comes to an end and gives the forest of the method; and
the links of a forest agree with each other and with the method. -/
theorem wellLinked_assemble (m : Method) :
    assembleCells? m = some ((assemble m).map fun f => (f.cells, f.roots)) ∧
    ∀ f, assemble m = .ok f → f.WellLinked m := by
  constructor
  · have hrun := (Assembly.linked_empty m).linkAll?_eq m.instructions
    have hstart : linkAll? m #[] [] m.instructions =
        linkAll? m (Assembly.empty.nodes.map Node.cell) Assembly.empty.stack m.instructions := by
      simp [Assembly.empty]
    rw [assembleCells?, hstart, hrun, assemble]
    cases Assembly.empty.run m m.instructions with
    | error e => rfl
    | ok a =>
      have hcells := linkNeighbours_eq (a.forest m)
      simp only [Option.map_some, Except.map, Option.some.injEq, Except.ok.injEq, Prod.mk.injEq]
      exact ⟨hcells, trivial⟩
  · intro f hf
    obtain ⟨a, ha, rfl⟩ := assemble_eq_ok_iff.mp hf
    have h := Assembly.linked_run ha
    constructor
    case instruction => exact instruction_assemble hf
    case complete =>
      intro p n hn
      have hchildren : (a.forest m).children p = n.children := by rw [children, hn]
      rw [hchildren]
      exact h.complete p n hn
    case ascending => exact fun p => ⟨h.ascending p, fun c hc => children_lt _ hc⟩
    case parent_iff => exact h.parent_iff
    case once => exact nodup_flatMap_children h.ascending h.parent_iff
    case roots =>
      refine ⟨List.pairwise_reverse.mpr h.stack_descending, fun k => ?_⟩
      exact List.mem_reverse.trans (h.stack_iff k)
    case neighbours =>
      intro k hk
      refine ⟨left?_eq hk, ?_⟩
      rw [right?]
      by_cases hlast : k + 1 = (a.forest m).size
      · rw [if_pos hlast, if_neg (Nat.not_lt.mpr (Nat.le_of_eq hlast.symm))]
      · rw [if_neg hlast, if_pos (Nat.lt_of_le_of_ne hk hlast)]

/-- A static method that makes an array of two dimensions, drops it and
returns. -/
def droppedGrid : Method where
  owner := "Sample"
  name := "dropped"
  descriptor := "(II)V"
  access := { isPublic := true, isStatic := true, isAbstract := false }
  instructions :=
    [⟨0, 0, 0x1a, .slot 0⟩, ⟨1, 1, 0x1b, .slot 1⟩, ⟨2, 2, 0xc5, .multiArray "[[I" 2⟩,
      ⟨3, 6, 0x57, .plain⟩, ⟨4, 7, 0xb1, .plain⟩]
  handlers := []

theorem wellLinked_assemble_droppedGrid :
    ∃ f, assemble droppedGrid = .ok f ∧ f.WellLinked droppedGrid ∧
      f.children 2 = [0, 1] ∧ f.parent? 0 = some 2 ∧ f.parent? 1 = some 2 ∧ f.roots = [3, 4] := by
  obtain ⟨f, hf, hchildren, hroots⟩ :
      ∃ f, assemble droppedGrid = .ok f ∧ f.children 2 = [0, 1] ∧ f.roots = [3, 4] :=
    ⟨_, rfl, rfl, rfl⟩
  have hlinked := (wellLinked_assemble droppedGrid).2 f hf
  have hparent (c : Nat) (hc : c ∈ [0, 1]) : f.parent? c = some 2 := by
    rw [hlinked.parent_iff, hchildren]
    exact hc
  exact ⟨f, hf, hlinked, hchildren, hparent 0 (by decide), hparent 1 (by decide), hroots⟩

end Forest

end ClassLens
