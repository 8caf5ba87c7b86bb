/-
Trees as source-like expressions.

Only literals, local variables, field accesses, arithmetic and calls have a
rendering. A tree is rendered in consumption order with a stack of texts: each
node takes the texts of its operands off the stack and leaves its own. The first
node without a rendering ends the attempt, so the error names the earliest
instruction of the tree that cannot be expressed.
-/
import ClassLens.Forest.Outline

set_option autoImplicit false

namespace ClassLens

/-- An instruction that has no rendering. -/
structure Unrepresentable where
  index : Nat
  opcode : Opcode
  deriving DecidableEq, Repr

/-- The text of the error. -/
def Unrepresentable.message (e : Unrepresentable) : String :=
  "[" ++ toString e.index ++ ": " ++ e.opcode.mnemonic ++ "] could not be expressed"

/-- The name of a local variable: slot 0 of an instance method is the
receiver. -/
def Method.localName (m : Method) (slot : UInt16) : String :=
  if slot = 0 ∧ m.isInstance then "this" else "var" ++ toString slot.toNat

/-- A field access over the texts of its operands. A read of a static field has
no operand, one of an instance field has the object; a write has the value in
the last place. -/
def FieldAccess.render? (a : FieldAccess) (operands : List String) : Option String :=
  let ofClass := simpleName a.field.owner ++ "." ++ a.field.name
  match a.isGetter, operands with
  | true, [] => some ofClass
  | true, [object] => some (object ++ "." ++ a.field.name)
  | false, [value] => some (ofClass ++ " = " ++ value)
  | false, [object, value] => some (object ++ "." ++ a.field.name ++ " = " ++ value)
  | _, _ => none

/-- A call over the texts of its operands. The receiver, where there is one, is
the first of them; without a receiver the class stands in its place, and a
dynamic call has neither. -/
def CallSite.render? (site : CallSite) (operands : List String) : Option String :=
  let arguments (args : List String) : String := "(" ++ ", ".intercalate args ++ ")"
  match site.kind, operands with
  | .dynamic, _ => some (site.name ++ arguments operands)
  | .static, _ => some (simpleName site.owner ++ "." ++ site.name ++ arguments operands)
  | _, receiver :: args => some (receiver ++ "." ++ site.name ++ arguments args)
  | _, [] => none

/-- A node over the texts of its operands. -/
def NodeKind.render? (m : Method) (kind : NodeKind) (operands : List String) : Option String :=
  match kind, operands with
  | .constant value, [] => value.literal?
  | .load slot, [] => some (m.localName slot)
  | .store slot, [value] => some (m.localName slot ++ " = " ++ value)
  | .field access, _ => access.render? operands
  | .math op, [left, right] =>
    some ("(" ++ left ++ " " ++ op.symbol ++ " " ++ right ++ ")")
  | .call site, _ => site.render? operands
  | _, _ => none

namespace Forest

/-- Renders a node over the texts of its operands. -/
def render (f : Forest) (id : Nat) (operands : List String) : Except Unrepresentable String :=
  match f.node? id with
  | none => .ok ""
  | some n =>
    match n.instruction.nodeKind.render? f.method operands with
    | some text => .ok text
    | none => .error ⟨n.instruction.index, n.instruction.opcode⟩

/-- Renders nodes in consumption order onto a stack of texts, newest first. -/
def renderAll (f : Forest) : List Nat → List String → Except Unrepresentable (List String)
  | [], texts => .ok texts
  | id :: rest, texts =>
    let count := (f.children id).length
    match f.render id (texts.take count).reverse with
    | .error e => .error e
    | .ok text => f.renderAll rest (text :: texts.drop count)

/-- The tree under a node as an expression. -/
def decompile (f : Forest) (id : Nat) : Except Unrepresentable String :=
  match f.renderAll (f.postorder id) [] with
  | .error e => .error e
  | .ok texts => .ok (texts.head?.getD "")

/-- The same expression by recursion on the tree: the operands first, left to
right, then the node over their texts. -/
def sourceTree (f : Forest) (id : Nat) : Except Unrepresentable String := do
  let operands ← (f.children id).attach.mapM fun c => f.sourceTree c.1
  f.render id operands
termination_by id
decreasing_by exact f.children_lt c.2

end Forest

end ClassLens
