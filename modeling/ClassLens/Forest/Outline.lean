/-
Walks over a tree of a forest: the order in which its nodes are consumed, and
an outline with one line a node.

A tree may be as deep as the method is long, so neither walk recurses on the
tree. Both keep a list of what is still to be done and take from its front; a
node is replaced by its operands, which come to stand where it stood. The walks
end because the work that the list stands for shrinks at each step, where the
work of a node is the size of its tree. The recursive forms of the same walks
stand beside them.
-/
import ClassLens.Forest.Basic
import ClassLens.Forest.Literal
import ClassLens.NatSum

set_option autoImplicit false

namespace ClassLens

namespace Forest

/-! ## The size of a tree -/

/-- The number of nodes of the tree under a node. -/
def treeSize (f : Forest) (id : Nat) : Nat :=
  1 + natSum ((f.children id).attach.map fun c => f.treeSize c.1)
termination_by id
decreasing_by exact f.children_lt c.2

/-- A tree is its node and the trees of the operands. -/
theorem treeSize_eq (f : Forest) (id : Nat) :
    f.treeSize id = 1 + natSum ((f.children id).map f.treeSize) := by
  rw [treeSize, List.attach_map_val]

/-! ## Consumption order -/

/-- What a walk in consumption order still has to do. -/
inductive Visit where
  /-- Walk a tree. -/
  | tree (id : Nat)
  /-- Take up a node whose operands are done. -/
  | node (id : Nat)

/-- Twice the nodes still to be walked; a node that only waits for its turn
counts once. -/
def visitWork (f : Forest) : Visit → Nat
  | .tree id => 2 * f.treeSize id
  | .node _ => 1

private theorem visitWork_trees (f : Forest) (ids : List Nat) :
    natSum ((ids.map Visit.tree).map f.visitWork) = 2 * natSum (ids.map f.treeSize) := by
  induction ids with
  | nil => rfl
  | cons id ids ih =>
    simp only [List.map_cons, natSum_cons, visitWork, ih]
    omega

/-- Walks what is pending. The nodes taken up so far come newest first. -/
def postorderFrom (f : Forest) (pending : List Visit) (done : List Nat) : List Nat :=
  match pending with
  | [] => done.reverse
  | .node id :: rest => f.postorderFrom rest (id :: done)
  | .tree id :: rest =>
    f.postorderFrom ((f.children id).map .tree ++ .node id :: rest) done
termination_by natSum (pending.map f.visitWork)
decreasing_by
  · simp only [List.map_cons, natSum_cons, visitWork]
    omega
  · have h := f.treeSize_eq id
    simp only [List.map_append, List.map_cons, natSum_append, natSum_cons, visitWork_trees,
      visitWork]
    omega

/-- The tree under a node in the order it is consumed: operands first, then the
node. -/
def postorder (f : Forest) (id : Nat) : List Nat :=
  f.postorderFrom [.tree id] []

/-- The same order by recursion on the tree. -/
def postorderTree (f : Forest) (id : Nat) : List Nat :=
  ((f.children id).attach.flatMap fun c => f.postorderTree c.1) ++ [id]
termination_by id
decreasing_by exact f.children_lt c.2

end Forest

/-! ## Outlines -/

/-- The mnemonic of an instruction and a short form of its operand. -/
def Instruction.describe (i : Instruction) : String :=
  let name := i.opcode.mnemonic
  match i.operand with
  | .field ref => name ++ " " ++ ref.owner ++ "." ++ ref.name ++ " " ++ ref.descriptor
  | .call site =>
    if site.kind = .dynamic then name ++ " " ++ site.name ++ site.descriptor
    else name ++ " " ++ site.key
  | .constant value =>
    match value.literal? with
    | some text => name ++ " " ++ text
    | none => name ++ " <" ++ value.typeDescriptor ++ ">"
  | .slot index => name ++ " " ++ toString index.toNat
  | .increment index delta => name ++ " " ++ toString index.toNat ++ " " ++ toString delta.toInt
  | .jump target => name ++ " -> " ++ toString target.toNat
  | .switch fallback targets =>
    name ++ " [" ++ ", ".intercalate (targets.map fun t => toString t.toNat) ++
      "] default -> " ++ toString fallback.toNat
  | .classRef className => name ++ " " ++ className
  | .primitiveArray code => name ++ " " ++ toString code.toNat
  | .multiArray className dimensions =>
    name ++ " " ++ className ++ " " ++ toString dimensions.toNat
  | .plain => name

namespace Forest

/-- The line of a node at some depth, with its line end: two spaces a level, the
instruction, and the word for its arity. -/
def outlineLine (f : Forest) (id depth : Nat) : String :=
  match f.node? id with
  | some n =>
    String.ofList (List.replicate (2 * depth) ' ') ++ n.instruction.describe ++ " (" ++
      n.arityClass.label ++ ")\n"
  | none => ""

private theorem treeSize_pairs (f : Forest) (depth : Nat) (ids : List Nat) :
    natSum ((ids.map fun c => (c, depth)).map fun p => f.treeSize p.1) =
      natSum (ids.map f.treeSize) := by
  rw [List.map_map]
  rfl

/-- Writes what is pending, each node with its depth, after `text`. -/
def outlineFrom (f : Forest) (pending : List (Nat × Nat)) (text : String) : String :=
  match pending with
  | [] => text
  | (id, depth) :: rest =>
    f.outlineFrom ((f.children id).map (fun c => (c, depth + 1)) ++ rest)
      (text ++ f.outlineLine id depth)
termination_by natSum (pending.map fun p => f.treeSize p.1)
decreasing_by
  have h := f.treeSize_eq id
  simp only [List.map_append, List.map_cons, natSum_append, natSum_cons, treeSize_pairs]
  omega

/-- The outline of the tree under a node: one line a node, the node before its
operands, an operand one level deeper. -/
def outline (f : Forest) (id : Nat) : String :=
  f.outlineFrom [(id, 0)] ""

/-- The same outline by recursion on the tree. -/
def outlineTree (f : Forest) (id depth : Nat) : String :=
  f.outlineLine id depth ++
    String.join ((f.children id).attach.map fun c => f.outlineTree c.1 (depth + 1))
termination_by id
decreasing_by exact f.children_lt c.2

end Forest

end ClassLens
