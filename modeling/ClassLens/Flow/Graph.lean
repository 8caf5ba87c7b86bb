/-
Flow graphs: the basic blocks of a method and the ways control goes between
them.

A block starts at a leader: the start of the code, the entry of a handler, the
target of a jump or switch, or the instruction after a jump, a switch or an
exit. The leaders that lie in the code cut it into half-open ranges, and the
instructions of a range are a block; a range without instructions is none. Only
the order of offsets is looked at, so the blocks and edges of a method are
defined whatever its targets are, be they outside the code or inside an
instruction.
-/
import ClassLens.Method

set_option autoImplicit false

namespace ClassLens.Flow

/-! ## Graphs -/

/-- How control goes along an edge. -/
inductive EdgeKind where
  | fallThrough
  | branch
  | exception
  deriving DecidableEq, Repr

/-- An edge between blocks, which are named by the offset they start at. -/
structure Edge where
  source : UInt32
  target : UInt32
  kind : EdgeKind
  deriving DecidableEq, Repr

/-- A run of instructions that control enters at the top and leaves at the
end. -/
structure Block where
  start : UInt32
  /-- The offset where the range of the block ends. -/
  stop : UInt32
  /-- The indices of the block's instructions. -/
  instructions : List Nat
  deriving DecidableEq, Repr

/-- The blocks of a method and the edges between them. -/
structure Graph where
  blocks : List Block
  edges : List Edge
  deriving DecidableEq, Repr

/-- The branches to a block at or before the one they leave. -/
def Graph.backEdges (g : Graph) : List Edge :=
  g.edges.filter fun e => e.kind == .branch && e.target ≤ e.source

/-! ## What instructions do to control -/

/-- Whether control leaves the method, or the subroutine, at an opcode: a
return, a throw, or the return from a subroutine. -/
def isExit (op : Opcode) : Bool :=
  Opcode.between 0xac 0xb1 op || op == Opcode.athrow || op == 0xa9

/-- Whether a jump with the opcode is always taken: `goto` and `jsr`, near or
far. -/
def isUnconditional (op : Opcode) : Bool :=
  op == 0xa7 || op == 0xa8 || op == 0xc8 || op == 0xc9

/-! ## Leaders -/

/-- Drops from a sorted list each element that equals the one before it. -/
def dropRepeats : List UInt32 → List UInt32
  | a :: b :: rest => if a = b then dropRepeats (b :: rest) else a :: dropRepeats (b :: rest)
  | short => short

/-- The offsets, in instruction order, at which instructions make a block
start: the targets of a jump or switch and what follows it, and what follows an
exit. -/
def instructionLeaders : List Instruction → List UInt32
  | [] => []
  | i :: rest =>
    let next := (rest.head?.map (·.offset)).toList
    let branching := match i.branchTargets? with
      | some targets => targets ++ next
      | none => []
    let leaving := if isExit i.opcode then next else []
    branching ++ (leaving ++ instructionLeaders rest)

/-- The leaders of a method up to the offset of its last instruction, ascending
and each once. -/
def leaders (m : Method) (last : UInt32) : List UInt32 :=
  let all := 0 :: m.handlers.map (·.handlerPc) ++ instructionLeaders m.instructions
  (dropRepeats (all.mergeSort (· ≤ ·))).filter (· ≤ last)

/-! ## Blocks -/

/-- The block between two offsets, if it has an instruction. -/
def block? (instructions : List Instruction) (start stop : UInt32) : Option Block :=
  let inside := instructions.filter fun i => start ≤ i.offset && i.offset < stop
  if inside.isEmpty then none else some ⟨start, stop, inside.map (·.index)⟩

/-- The blocks that ascending leaders cut the code into. The last range ends at
`codeEnd`. -/
def blocksFrom (instructions : List Instruction) (codeEnd : UInt32) : List UInt32 → List Block
  | [] => []
  | start :: rest =>
    let stop := rest.head?.getD codeEnd
    (block? instructions start stop).toList ++ blocksFrom instructions codeEnd rest

/-- The blocks of a method. The code ends just past the start of its last
instruction, as far as blocks are concerned. -/
def blocks (m : Method) : List Block :=
  match m.instructions.getLast? with
  | none => []
  | some last => blocksFrom m.instructions (last.offset + 1) (leaders m last.offset)

/-! ## Edges -/

/-- The fall-through out of a block: an edge to the block that starts where the
block's range ends, if there is one. -/
def fallThrough (blocks : List Block) (b : Block) : List Edge :=
  match blocks.find? (·.start == b.stop) with
  | some next => [⟨b.start, next.start, .fallThrough⟩]
  | none => []

/-- The edges out of a block by way of its last instruction. A jump or a switch
goes to each of its targets, and a conditional one goes on to the next block as
well; so does any other instruction that is not an exit. -/
def blockEdges (instructions : Array Instruction) (blocks : List Block) (b : Block) :
    List Edge :=
  match b.instructions.getLast?.bind (instructions[·]?) with
  | none => []
  | some last =>
    match last.branchTargets? with
    | some targets =>
      targets.map (⟨b.start, ·, .branch⟩) ++
        if isUnconditional last.opcode then [] else fallThrough blocks b
    | none => if isExit last.opcode then [] else fallThrough blocks b

/-- The edges to a handler, from the blocks that start in its range. -/
def handlerEdges (blocks : List Block) (h : ExceptionHandler) : List Edge :=
  (blocks.filter fun b => h.startPc ≤ b.start && b.start < h.endPc).map
    (⟨·.start, h.handlerPc, .exception⟩)

/-- The flow graph of a method: first the edges out of each block by way of its
last instruction, then those of each handler. -/
def graph (m : Method) : Graph :=
  let blocks := blocks m
  ⟨blocks, blocks.flatMap (blockEdges m.instructions.toArray blocks) ++
    m.handlers.flatMap (handlerEdges blocks)⟩

end ClassLens.Flow
