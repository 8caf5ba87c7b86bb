/-
Expression forests: the instructions of a method, grouped into trees by what
they consume.

A forest is an array of nodes, and node `i` belongs to instruction `i`. It is
put together in one pass with a stack: an instruction takes its operands off
the top and is pushed in their place, and what is left at the end are the roots.
So an operand always has a smaller number than the node that consumes it. This
is kept as a field of the forest, and every walk over it ends for that reason.
-/
import ClassLens.Forest.Arity
import ClassLens.Forest.NodeKind

set_option autoImplicit false

namespace ClassLens

/-! ## Nodes -/

/-- A node of an expression forest. -/
structure Node where
  instruction : Instruction
  /-- The number of operands resolved for the instruction. -/
  operandCount : Nat
  /-- The nodes of the operands, in the order they were pushed. -/
  children : List Nat
  /-- The node that consumes this one; none for a root. -/
  parent : Option Nat
  deriving DecidableEq, Repr

/-- The arity class of the node's opcode. -/
def Node.arityClass (n : Node) : ArityClass :=
  ArityClass.of n.instruction.opcode

/-- Every node comes after its operands. -/
def OperandsFirst (nodes : Array Node) : Prop :=
  ∀ k (h : k < nodes.size), ∀ c ∈ nodes[k].children, c < k

/-- Records `parent` as the parent of each of `children`. -/
def adopt (parent : Nat) (nodes : Array Node) (children : List Nat) : Array Node :=
  children.foldl (fun nodes c => nodes.modify c fun n => { n with parent := some parent }) nodes

theorem size_adopt (parent : Nat) (nodes : Array Node) (children : List Nat) :
    (adopt parent nodes children).size = nodes.size := by
  induction children generalizing nodes with
  | nil => rfl
  | cons c cs ih =>
    rw [adopt, List.foldl_cons, ← adopt, ih, Array.size_modify]

/-- Adoption leaves everything but the parents as it was. -/
theorem children_adopt (parent : Nat) (nodes : Array Node) (children : List Nat) (k : Nat)
    (h : k < nodes.size) (h' : k < (adopt parent nodes children).size) :
    (adopt parent nodes children)[k].children = nodes[k].children := by
  induction children generalizing nodes with
  | nil => rfl
  | cons c cs ih =>
    have step := ih (nodes.modify c fun n => { n with parent := some parent })
      (by rw [Array.size_modify]; exact h) (by rw [size_adopt, Array.size_modify]; exact h)
    refine Eq.trans step ?_
    rw [Array.getElem_modify]
    split <;> rfl

/-! ## Assembly -/

/-- A forest in the making: the nodes so far, and those of them that nothing
has consumed yet, newest first. -/
structure Assembly where
  nodes : Array Node
  stack : List Nat
  operandsFirst : OperandsFirst nodes
  stack_lt : ∀ i ∈ stack, i < nodes.size

namespace Assembly

/-- No instruction read yet. -/
def empty : Assembly where
  nodes := #[]
  stack := []
  operandsFirst := by intro k h; simp at h
  stack_lt := by simp

/-- Gives an instruction the `count` newest values as operands and pushes it in
their place. -/
def reduce (a : Assembly) (i : Instruction) (count : Nat) : Assembly where
  nodes := (adopt a.nodes.size a.nodes (a.stack.take count)).push
    { instruction := i, operandCount := count,
      children := (a.stack.take count).reverse, parent := none }
  stack := a.nodes.size :: a.stack.drop count
  operandsFirst := by
    intro k h c hc
    rw [Array.getElem_push] at hc
    split at hc
    · rename_i hk
      rw [size_adopt] at hk
      rw [children_adopt _ _ _ k hk] at hc
      exact a.operandsFirst k hk c hc
    · rename_i hk
      rw [size_adopt] at hk
      rw [Array.size_push, size_adopt] at h
      have hlt := a.stack_lt c (List.mem_of_mem_take (List.mem_reverse.mp hc))
      omega
  stack_lt := by
    intro j hj
    rw [Array.size_push, size_adopt]
    rcases List.mem_cons.mp hj with h | h
    · omega
    · exact Nat.lt_succ_of_lt (a.stack_lt j (List.mem_of_mem_drop h))

end Assembly

/-- Why a method has no expression forest. -/
inductive AssemblyError where
  /-- The instruction needs more values than there are. -/
  | underflow (instruction : Instruction) (required available : Nat)
  /-- The number of operands hangs on a descriptor that cannot be read. -/
  | descriptor (fault : DescriptorFault)
  deriving DecidableEq, Repr

/-- The text of an assembly error. -/
def AssemblyError.message : AssemblyError → String
  | underflow i required available =>
    "stack underflow at instruction " ++ toString i.index ++ " (offset " ++
      toString i.offset.toNat ++ ", " ++ i.opcode.mnemonic ++ "): requires " ++
      toString required ++ " operands, " ++ toString available ++ " available"
  | descriptor fault => fault.message

namespace Assembly

/-- Reads one instruction of a method. -/
def step (m : Method) (a : Assembly) (i : Instruction) : Except AssemblyError Assembly :=
  match i.arity m with
  | .error fault => .error (.descriptor fault)
  | .ok count =>
    if (a.stack.take count).length < count then
      .error (.underflow i count a.stack.length)
    else .ok (a.reduce i count)

/-- Reads a method's instructions in order, up to the first that fails. -/
def run (m : Method) (a : Assembly) : List Instruction → Except AssemblyError Assembly
  | [] => .ok a
  | i :: rest =>
    match a.step m i with
    | .error e => .error e
    | .ok next => next.run m rest

end Assembly

/-! ## Forests -/

/-- The expression forest of a method. -/
structure Forest where
  method : Method
  nodes : Array Node
  /-- The nodes that nothing consumes, in the order they were made. -/
  roots : List Nat
  operandsFirst : OperandsFirst nodes

namespace Forest

/-- Assembles the expression forest of a method. -/
def assemble (m : Method) : Except AssemblyError Forest :=
  match Assembly.empty.run m m.instructions with
  | .error e => .error e
  | .ok a => .ok ⟨m, a.nodes, a.stack.reverse, a.operandsFirst⟩

/-- The number of nodes. -/
def size (f : Forest) : Nat :=
  f.nodes.size

/-- The node of a number, if there is one. -/
def node? (f : Forest) (id : Nat) : Option Node :=
  f.nodes[id]?

/-- The operands of a node, in the order they were pushed. -/
def children (f : Forest) (id : Nat) : List Nat :=
  match f.node? id with
  | some n => n.children
  | none => []

theorem children_lt (f : Forest) {id c : Nat} (h : c ∈ f.children id) : c < id := by
  rw [children, node?] at h
  split at h
  · rename_i n hn
    obtain ⟨hlt, rfl⟩ := Array.getElem?_eq_some_iff.mp hn
    exact f.operandsFirst id hlt c h
  · simp at h

/-- The nodes that a node consumes, in the order they were pushed. -/
def operands (f : Forest) (id : Nat) : List Node :=
  (f.children id).filterMap f.node?

/-- The node that consumes a node. -/
def parent? (f : Forest) (id : Nat) : Option Nat :=
  (f.node? id).bind (·.parent)

/-- The node of the instruction before. -/
def left? (f : Forest) (id : Nat) : Option Nat :=
  if 0 < id ∧ id < f.size then some (id - 1) else none

/-- The node of the instruction after. -/
def right? (f : Forest) (id : Nat) : Option Nat :=
  if id + 1 < f.size then some (id + 1) else none

/-! ## Field accesses -/

/-- The field access that a node makes, if it makes one. -/
def fieldAccess? (f : Forest) (id : Nat) : Option FieldAccess :=
  (f.node? id).bind (·.instruction.fieldAccess?)

/-- The accesses of one field, in instruction order. -/
def fieldAccesses (f : Forest) (key : String) : List Nat :=
  (List.range f.size).filter fun id =>
    match f.fieldAccess? id with
    | some access => access.key == key
    | none => false

/-- Adds a node under its key to lists sorted by key. -/
def insertAccess (key : String) (id : Nat) :
    List (String × List Nat) → List (String × List Nat)
  | [] => [(key, [id])]
  | (k, ids) :: rest =>
    if key < k then (key, [id]) :: (k, ids) :: rest
    else if key = k then (k, ids ++ [id]) :: rest
    else (k, ids) :: insertAccess key id rest

/-- All field accesses, grouped by the key of the field and sorted by it. -/
def fieldIndex (f : Forest) : List (String × List Nat) :=
  (List.range f.size).foldl
    (fun index id =>
      match f.fieldAccess? id with
      | some access => insertAccess access.key id index
      | none => index)
    []

end Forest

end ClassLens
