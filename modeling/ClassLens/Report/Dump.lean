/-
The text dump of a context: the outlines of every method's expression forest.

Each method is opened by its key. Under it stand the outlines of its trees, and
under each outline the tree as an expression if it has one. A method without a
forest has its error there instead, and gives a warning.
-/
import ClassLens.Context.Basic
import ClassLens.Forest.Source
import ClassLens.Text.Lines

set_option autoImplicit false

namespace ClassLens.Report

/-- The lines of a tree under its method. -/
def treeLines (f : Forest) (root : Nat) : List String :=
  (Text.lines (f.outline root)).map ("  " ++ ·) ++
    match f.decompile root with
    | .ok source => ["  = " ++ source]
    | .error _ => []

/-- The lines of a method. -/
def methodLines (m : Method) : List String :=
  m.key :: match Forest.assemble m with
    | .ok f => f.roots.flatMap (treeLines f)
    | .error e => ["  ! " ++ e.message]

/-- The warning that a method gives, if any. -/
def methodWarning? (m : Method) : Option String :=
  match Forest.assemble m with
  | .ok _ => none
  | .error e => some ("skipping " ++ m.key ++ ": " ++ e.message)

/-- The dump of a context. Every line has its line end. -/
def dump (c : Context) : String :=
  (c.methods.flatMap methodLines).foldl (fun text line => text ++ line ++ "\n") ""

/-- The warnings that a dump gives, in method order. -/
def dumpWarnings (c : Context) : List String :=
  c.methods.filterMap methodWarning?

end ClassLens.Report
