/-
The steps of the command.

A command goes by steps, and what a step has done stays done if a later one fails.
Opening a file to write to it empties it, so the output is opened behind all that can
fail of the input. A report is only made then, since it need not be made if the
output cannot be opened. Nothing of it can fail but that the log tells the words, and
a word may be no Unicode text.

What a step asks of the system is answered by a host. The steps are the same on every
host, on a real system as on one that is only described.
-/
import ClassLens.Command.Notice
import ClassLens.Command.Options
import ClassLens.Command.Usage
import ClassLens.Files.FileSystem
import ClassLens.Pattern.Builtin
import ClassLens.Report.Dump
import ClassLens.Report.PatternList

set_option autoImplicit false

namespace ClassLens.Command

/-! ## Hosts -/

/-- What a command asks of the system that it runs on. `Handle` is what the system
gives for a file that is open. -/
structure Host (m : Type → Type) (Handle : Type) where
  /-- What a path leads to. -/
  find : OsText → m (Option FileTree)
  /-- Opens what a path leads to, to write to it. A file that is there is emptied, and
  one that is not there is made. -/
  create : OsText → m (Option Handle)
  /-- Writes behind what was written before. -/
  write : Handle → String → m Unit
  print : String → m Unit
  warn : String → m Unit

/-- Where a report goes. -/
inductive Destination where
  | console
  | file (path : OsText)
  deriving DecidableEq, Repr

/-- The path that stands for the console. -/
def consolePath : OsText := [dash]

/-- Whether a path has the one name that stands for the console. Slashes and
single dots behind it change nothing; a single dot in front of it makes the
path one of a file. -/
def isConsole (path : OsText) : Bool :=
  match PathText.parts path with
  | first :: rest => first == consolePath && rest.all PathText.isHere
  | [] => false

/-- The destination that the output option names. -/
def Destination.of : Option OsText → Destination
  | none => .console
  | some path => if isConsole path then .console else .file path

/-- An output that is open. -/
inductive Output (Handle : Type) where
  | console
  | opened (handle : Handle)

/-! ## Steps -/

/-- Steps of a command. A failure ends them. -/
abbrev Steps (m : Type → Type) := ExceptT Failure m

section

variable {m : Type → Type} {Handle : Type} [Monad m] (host : Host m Handle)

/-- Gives warnings. -/
def warnAll : List String → Steps m Unit
  | [] => return
  | text :: rest => do
    host.warn text
    warnAll rest

/-- Opens the output at a destination. -/
def openOutput : Destination → Steps m (Output Handle)
  | .console => return .console
  | .file path => do
    match ← host.create path with
    | some handle => return .opened handle
    | none => throw (.cannotOpen path)

/-- Writes a text to an output. -/
def writeTo (text : String) : Output Handle → Steps m Unit
  | .console => host.print text
  | .opened handle => host.write handle text

/-- Lists the built-in patterns. -/
def listPatterns (o : Options) : Steps m Unit := do
  let output ← openOutput host (.of o.output)
  writeTo host (Report.patternList .builtin).pretty output
  writeTo host "\n" output

/-- Scans what a path leads to. What the classes gave is told even if the scan
fails. -/
def scanInput (path : OsText) : Steps m Scan.Findings := do
  let found ← host.find path
  if found.isNone then throw (.inputNotFound path)
  let f := Scan.scan Archive.entries found path
  warnAll host (Scan.warnings f.sources)
  match f.failure with
  | some cause => throw (.scan cause)
  | none => return f

/-- The invocation of a command with the given words. -/
def invocation (words : List OsText) : Except Failure Report.Invocation :=
  match words.mapM OsText.text? with
  | some texts =>
    let arguments := programName :: texts
    .ok ⟨arguments, some (String.intercalate " " arguments)⟩
  | none => .error .notUnicode

/-- Writes the dump of a context. -/
def writeDump (c : Context) (output : Output Handle) : Steps m Unit := do
  warnAll host (Report.dumpWarnings c)
  writeTo host (Report.dump c) output

/-- Writes the log of a context that was not asked anything before. -/
def writeLog (words : List OsText) (c : Context) (artifacts : List Report.Artifact)
    (output : Output Handle) : Steps m Unit := do
  let invocation ← invocation words
  let log := ((Report.log c (artifacts.map (·.toJson)) invocation).run .empty).1
  writeTo host log.toJson.pretty output
  writeTo host "\n" output

/-- Analyses what a path leads to. The counts are given back if they are to be told. -/
def analyse (o : Options) (words : List OsText) (path : OsText) : Steps m (Option Counts) := do
  let f ← scanInput host path
  let c := Context.make (Scan.classes f.sources) .builtin
  let output ← openOutput host (.of o.output)
  if o.trees then writeDump host c output else writeLog host words c f.artifacts output
  return if o.timing && !o.quiet then some ⟨Scan.classCount f.sources, c.methodCount⟩ else none

/-- Performs a task. -/
def perform (task : Task) (o : Options) (words : List OsText) : Steps m (Option Counts) := do
  match task with
  | .listPatterns =>
    listPatterns host o
    return none
  | .analyse path => analyse host o words path

/-! ## Commands -/

/-- How a command ends. -/
inductive Ending where
  | done (counts : Option Counts)
  /-- The words make no sense. -/
  | misused
  | failed (cause : Failure)
  deriving DecidableEq, Repr

namespace Ending

/-- The exit code of a command. -/
def exitCode : Ending → Nat
  | done _ => 0
  | misused => 2
  | failed cause => cause.exitCode

/-- What is said at the end of a command that took the given time. -/
def notices (elapsed : Nat) : Ending → List Notice
  | done counts => (counts.map (.timing elapsed)).toList
  | misused => []
  | failed cause => [.failure cause]

end Ending

/-- Does what words ask for. -/
def execute (words : List OsText) : m Ending :=
  match Request.ofWords words with
  | .help => do
    host.print helpText
    return .done none
  | .version => do
    host.print versionText
    return .done none
  | .misuse => return .misused
  | .perform task o => do
    match ← (perform host task o words).run with
    | .ok counts => return .done counts
    | .error cause => return .failed cause

end

end ClassLens.Command
