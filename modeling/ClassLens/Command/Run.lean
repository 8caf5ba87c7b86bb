/-
Running a command on a system that is described.

The host is a world that the steps of the command change: files, what is printed, and
the warnings that were given.
-/
import ClassLens.Command.Steps

set_option autoImplicit false

namespace ClassLens.Command

/-! ## Worlds -/

/-- What a command works on: the files, what is printed on the console, and the
warnings that were given. -/
structure World where
  files : FileSystem
  console : String
  warnings : List String

namespace World

/-- The world that a command finds. -/
def initial (files : FileSystem) : World := ⟨files, "", []⟩

/-- The world once a text is printed. -/
def printed (w : World) (text : String) : World :=
  { w with console := w.console ++ text }

/-- The world once a text is written to something that is open. -/
def written (w : World) (text : String) : Target → World
  | .file place => { w with files := w.files.append place text.toUTF8 }
  | .device .console => w.printed text
  | .device .null => w

/-- The world as a host. -/
def host : Host (StateM World) Target where
  find path := return (← get).files.find? path
  create path := do
    match (← get).files.create? path with
    | none => return none
    | some (target, files) =>
      modify fun w => { w with files := files }
      return some target
  write target text := modify fun w => w.written text target
  print text := modify fun w => w.printed text
  warn text := modify fun w => { w with warnings := w.warnings ++ [text] }

end World

/-! ## Outcomes -/

/-- What a command leaves behind. -/
structure Outcome where
  ending : Ending
  world : World

namespace Outcome

/-- The exit code of a command. -/
def exitCode (o : Outcome) : Nat := o.ending.exitCode

/-- What is printed on the console. -/
def console (o : Outcome) : String := o.world.console

/-- The files at the end of a command. -/
def files (o : Outcome) : FileSystem := o.world.files

/-- The text of what a command says that took the given time: its warnings as they
came up, and why it failed or how much it did. -/
def said (o : Outcome) (elapsed : Nat) : String :=
  let notices := o.world.warnings.map Notice.warning ++ o.ending.notices elapsed
  String.join (notices.map Notice.print)

end Outcome

/-- Runs the command with some words. -/
def run (files : FileSystem) (words : List OsText) : Outcome :=
  let (ending, w) := (execute World.host words).run (.initial files)
  ⟨ending, w⟩

end ClassLens.Command
