/-
What a command says beside its answer, and why it fails.

A notice is a line, or a few. Warnings carry texts of the classes that they are
about, so they are made plain, and their further lines are indented: no text of
a class can look like a notice of its own. A control string that a warning
leaves open takes the end of its line with it, and the next notice follows on
the same line. What is said of a failure is given as it is.
-/
import ClassLens.Scan.Basic
import ClassLens.Text.Plain

set_option autoImplicit false

namespace ClassLens.Command

/-! ## Failures -/

/-- Why a command fails that makes sense. -/
inductive Failure where
  | inputNotFound (path : OsText)
  | scan (cause : Scan.Failure)
  | cannotOpen (path : OsText)
  /-- The log has to tell the words, and one of them is no Unicode text. -/
  | notUnicode
  deriving DecidableEq, Repr

namespace Failure

/-- What is said of a failure. The last one is not foreseen, and said otherwise. -/
def message : Failure → String
  | inputNotFound path => "Error: input not found: " ++ path.lossy
  | scan cause => "Error: " ++ cause.message
  | cannotOpen path => "Error: failed to open " ++ path.lossy
  | notUnicode => "panicked: a word is not Unicode"

/-- The exit code of a failure. -/
def exitCode : Failure → Nat
  | inputNotFound _ | scan _ | cannotOpen _ => 1
  | notUnicode => 101

end Failure

/-! ## Notices -/

/-- How much was analysed. -/
structure Counts where
  classes : Nat
  methods : Nat
  deriving DecidableEq, Repr

/-- The text of counts. -/
def Counts.text (c : Counts) : String :=
  "classes=" ++ toString c.classes ++ " methods=" ++ toString c.methods

/-- A thing that a command says. -/
inductive Notice where
  | warning (text : String)
  | failure (cause : Failure)
  /-- The time that a command took, in milliseconds, and what it analysed. -/
  | timing (elapsed : Nat) (counts : Counts)
  deriving DecidableEq, Repr

namespace Notice

/-- A character of a warning. A further line starts with four spaces. -/
def indentChar (c : Char) : List Char :=
  if c = '\n' then '\n' :: List.replicate 4 ' ' else [c]

/-- The text of a notice, with its line end. -/
def print : Notice → String
  | warning text =>
    Text.plain ("[WARN ] " ++ String.ofList (text.toList.flatMap indentChar) ++ "\n")
  | failure cause => cause.message ++ "\n"
  | timing elapsed counts =>
    "timing: total_ms=" ++ toString elapsed ++ " " ++ counts.text ++ "\n"

end Notice

end ClassLens.Command
