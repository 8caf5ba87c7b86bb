/-
Outlines: the lines of a tree are its nodes, each once, and those of all the
trees are the instructions of the method.

The walk that writes an outline keeps a list of nodes with their depths. What it
still has to write is the preorder of each of them, so the walk is the recursion
on the tree (`outlineFrom_eq`). Preorder and consumption order take up the same
nodes and differ in when a node comes, before its operands or behind them. What
is known of consumption order, that the trees of an assembled forest have all
the nodes between them, therefore holds of outlines as well, up to the order.
-/
import ClassLens.Proofs.Forest.Consumption
import Mathlib.Data.List.Perm.Basic

set_option autoImplicit false

namespace ClassLens

/-- What the line of an instruction says, whatever its depth. -/
def Instruction.headline (i : Instruction) : String :=
  i.describe ++ " (" ++ (ArityClass.of i.opcode).label ++ ")"

namespace Forest

/-! ## Preorder -/

/-- The nodes of the tree under a node with their depths, a node before its
operands. -/
def preorderTree (f : Forest) (id depth : Nat) : List (Nat × Nat) :=
  (id, depth) :: (f.children id).attach.flatMap fun c => f.preorderTree c.1 (depth + 1)
termination_by id
decreasing_by exact f.children_lt c.2

theorem preorderTree_eq (f : Forest) (id depth : Nat) :
    f.preorderTree id depth =
      (id, depth) :: (f.children id).flatMap fun c => f.preorderTree c (depth + 1) := by
  rw [preorderTree,
    List.flatMap_subtype (g := fun c => f.preorderTree c (depth + 1)) (fun _ _ => rfl),
    List.unattach_attach]

/-- The walk writes what it has and then the preorder of what is pending. -/
theorem outlineFrom_eq (f : Forest) (pending : List (Nat × Nat)) (text : String) :
    f.outlineFrom pending text = text ++ String.join
      ((pending.flatMap fun p => f.preorderTree p.1 p.2).map fun p => f.outlineLine p.1 p.2) := by
  fun_induction outlineFrom f pending text with
  | case1 text => simp
  | case2 text id depth rest ih =>
    -- A node is written and replaced by its operands, as in the recursion.
    rw [ih, List.flatMap_append, List.flatMap_map, List.flatMap_cons, f.preorderTree_eq id,
      List.cons_append, List.map_cons, String.join_cons, String.append_assoc]

theorem outline_eq (f : Forest) (id : Nat) :
    f.outline id =
      String.join ((f.preorderTree id 0).map fun p => f.outlineLine p.1 p.2) := by
  rw [outline, outlineFrom_eq, List.flatMap_cons, List.flatMap_nil, List.append_nil,
    String.empty_append]

/-! ## The nodes of an outline -/

/-- Both orders have the same nodes. -/
theorem preorderTree_perm_postorderTree (f : Forest) (id depth : Nat) :
    ((f.preorderTree id depth).map (·.1)).Perm (f.postorderTree id) := by
  induction id using Nat.strongRecOn generalizing depth with
  | ind id ih =>
    have hoperands : ((f.children id).flatMap fun c =>
          (f.preorderTree c (depth + 1)).map (·.1)).Perm
        ((f.children id).flatMap f.postorderTree) :=
      List.Perm.flatMap_left _ fun c hc => ih c (f.children_lt hc) (depth + 1)
    rw [preorderTree_eq, postorderTree_eq, List.map_cons, List.map_flatMap]
    exact (hoperands.cons id).trans (List.perm_append_singleton id _).symm

/-- No node of a tree comes after its root. -/
theorem le_of_mem_preorderTree (f : Forest) {id depth : Nat} {p : Nat × Nat}
    (hp : p ∈ f.preorderTree id depth) : p.1 ≤ id := by
  induction id using Nat.strongRecOn generalizing depth with
  | ind id ih =>
    rw [preorderTree_eq] at hp
    rcases List.mem_cons.mp hp with rfl | hp
    · exact Nat.le_refl _
    · obtain ⟨c, hc, hp⟩ := List.mem_flatMap.mp hp
      have hlt := f.children_lt hc
      exact Nat.le_trans (ih c hlt hp) (Nat.le_of_lt hlt)

theorem lt_size_of_mem_preorderTree (f : Forest) {id depth : Nat} {p : Nat × Nat}
    (hid : id < f.size) (hp : p ∈ f.preorderTree id depth) : p.1 < f.size :=
  Nat.lt_of_le_of_lt (f.le_of_mem_preorderTree hp) hid

variable {m : Method} {f : Forest}

theorem flatMap_postorderTree_assemble (h : assemble m = .ok f) :
    f.roots.flatMap f.postorderTree = List.range f.size := by
  obtain ⟨a, ha, rfl⟩ := assemble_eq_ok_iff.mp h
  exact (Assembly.inOrder_run ha).stack

/-- The trees of an assembled forest have each node once between them. -/
theorem preorderTree_perm_range (h : assemble m = .ok f) :
    (f.roots.flatMap fun r => (f.preorderTree r 0).map (·.1)).Perm (List.range f.size) := by
  rw [← flatMap_postorderTree_assemble h]
  exact List.Perm.flatMap_left _ fun r _ => f.preorderTree_perm_postorderTree r 0

theorem lt_size_of_mem_roots (h : assemble m = .ok f) {r : Nat} (hr : r ∈ f.roots) :
    r < f.size := by
  have hroot : r ∈ (f.preorderTree r 0).map (·.1) := by
    rw [preorderTree_eq]
    exact List.mem_cons_self
  exact List.mem_range.mp
    ((preorderTree_perm_range h).mem_iff.mp (List.mem_flatMap.mpr ⟨r, hr, hroot⟩))

/-! ## The lines of an outline -/

/-- What the line of a node says, whatever its depth. -/
def headline (f : Forest) (id : Nat) : String :=
  ((f.node? id).map (·.instruction.headline)).getD ""

theorem exists_headline_eq (f : Forest) {id : Nat} (hid : id < f.size) :
    ∃ n, f.node? id = some n ∧ f.headline id = n.instruction.headline := by
  have hn : f.node? id = some f.nodes[id] := Array.getElem?_eq_getElem hid
  exact ⟨f.nodes[id], hn, by rw [headline, hn, Option.map_some, Option.getD_some]⟩

/-- The line of a node at some depth, without its line end. -/
def lineAt (f : Forest) (p : Nat × Nat) : String :=
  String.ofList (List.replicate (2 * p.2) ' ') ++ f.headline p.1

theorem outlineLine_eq (f : Forest) {p : Nat × Nat} (hp : p.1 < f.size) :
    f.outlineLine p.1 p.2 = f.lineAt p ++ "\n" := by
  obtain ⟨n, hn, hheadline⟩ := f.exists_headline_eq hp
  have hend : ")\n" = ")" ++ "\n" := by decide
  rw [outlineLine, hn, lineAt, hheadline, hend]
  simp only [Instruction.headline, Node.arityClass, String.append_assoc]

/-- An outline is the lines of the tree in preorder, with a line end behind each. -/
theorem outline_eq_join (f : Forest) {id : Nat} (hid : id < f.size) :
    f.outline id = String.join (((f.preorderTree id 0).map f.lineAt).map (· ++ "\n")) := by
  have hlines : (f.preorderTree id 0).map (fun p => f.outlineLine p.1 p.2) =
      (f.preorderTree id 0).map fun p => f.lineAt p ++ "\n" :=
    List.map_congr_left fun p hp => f.outlineLine_eq (f.lt_size_of_mem_preorderTree hid hp)
  rw [outline_eq, hlines, List.map_map]
  rfl

/-- The nodes in the order they were made say what the instructions say. -/
theorem map_headline_range (h : assemble m = .ok f) :
    (List.range f.size).map f.headline = m.instructions.map (·.headline) := by
  apply List.ext_getElem?
  intro k
  have hheadline : f.headline k = ((m.instructions[k]?).map (·.headline)).getD "" := by
    rw [headline, ← instruction_assemble h, Option.map_map]
    rfl
  rw [List.getElem?_map, List.getElem?_map, size_assemble h]
  by_cases hk : k < m.instructions.length
  · rw [List.getElem?_range hk, Option.map_some, hheadline, List.getElem?_eq_getElem hk,
      Option.map_some, Option.getD_some]
  · rw [List.getElem?_eq_none (by rw [List.length_range]; omega),
      List.getElem?_eq_none (by omega)]
    rfl

/-- What the lines of all the trees say is what the instructions say, each
once. -/
theorem headlines_perm (h : assemble m = .ok f) :
    ((f.roots.flatMap fun r => f.preorderTree r 0).map fun p => f.headline p.1).Perm
      (m.instructions.map (·.headline)) := by
  have hperm := (preorderTree_perm_range h).map f.headline
  rwa [map_headline_range h, ← List.map_flatMap, List.map_map] at hperm

end Forest

end ClassLens
