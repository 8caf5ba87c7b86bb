/-
The SARIF log of a context: a rule for each pattern of the catalogue, and a
result for each method and each pattern that it shows.

A pattern of instructions gives one result a method however many instructions
show it, and the message says how many do. Results are grouped by method, in
class and declaration order.
-/
import ClassLens.Context.Matches
import ClassLens.Report.Json

set_option autoImplicit false

namespace ClassLens.Report

/-! ## Logs -/

/-- A file that was looked at. -/
structure Artifact where
  uri : String
  length : Int
  /-- The position of the archive that holds the file. -/
  parent : Option Nat
  roles : List String
  deriving DecidableEq, Repr

/-- The role of a file that was named as the input. -/
def analysisTarget : String := "analysisTarget"

/-- How the analysis was asked for. The command line is only known to a
command. -/
structure Invocation where
  arguments : List String
  commandLine : Option String
  deriving DecidableEq, Repr

/-- A rule of a log. -/
structure Rule where
  name : String
  shortText : String
  fullText : String
  deriving DecidableEq, Repr

/-- A result of a log: a rule, a message, and the key of a method. -/
structure LogEntry where
  ruleId : String
  message : String
  location : String
  deriving DecidableEq, Repr

/-- A log of one run. The artifacts are objects that the log takes over as they
are, since there is more to say of a file than a scan knows. -/
structure Log where
  artifacts : List Json
  invocation : Invocation
  results : List LogEntry
  rules : List Rule

/-! ## From matches to results -/

/-- Names that were counted. -/
structure Tally where
  /-- Where the count of each name stands. -/
  firstSeen : Std.HashMap String Nat
  /-- The names in the order they were first seen in, each with its count. -/
  counts : Array (String × Nat)

namespace Tally

/-- No name is counted yet. -/
def empty : Tally :=
  ⟨∅, #[]⟩

/-- Where the count of a name stands. A name that was not seen before gets a place
behind the others, with nothing counted. -/
def position (t : Tally) (name : String) : Nat × Tally :=
  match t.firstSeen[name]? with
  | some position => (position, t)
  | none => (t.counts.size, ⟨t.firstSeen.insert name t.counts.size, t.counts.push (name, 0)⟩)

/-- Counts a name once more. -/
def add (t : Tally) (name : String) : Tally :=
  let (position, t) := t.position name
  { t with counts := t.counts.modify position fun c => (c.1, c.2 + 1) }

end Tally

/-- The distinct names of a list in the order they first occur in, each with the
number of its occurrences. -/
def tally (names : List String) : List (String × Nat) :=
  (names.foldl Tally.add .empty).counts.toList

/-- The rule of a pattern. -/
def rule (p : Pattern) : Rule :=
  ⟨p.name, p.description, p.description ++ " (" ++ p.category.label ++ ")"⟩

/-- The results of one method, which matches were found of: its own patterns, then
those of its instructions. -/
def methodResults (m : Method) (found : MethodMatches) : List LogEntry :=
  (found.simple.map fun name => ⟨name, found.key ++ " is " ++ name, m.key⟩) ++
    (tally found.advanced).map fun (name, count) =>
      ⟨name, found.key ++ " is " ++ name ++ " (" ++ toString count ++ " matching instructions)",
        m.key⟩

/-- The log of a context. Methods and matches are in the same order, and belong
together by their positions. -/
def log (c : Context) (artifacts : List Json) (invocation : Invocation) :
    StateM MatchCache Log := do
  let found ← c.analyze
  return {
    artifacts := artifacts
    invocation := invocation
    results := (c.methods.zip found).flatMap fun p => methodResults p.1 p.2
    rules := c.catalog.patterns.map rule }

/-! ## Written form -/

/-- The name of the tool that logs carry. -/
def toolName : String := "nanoscope"

/-- The version that logs carry. -/
def toolVersion : String := "0.1.0"

/-- The schema that logs carry. -/
def schemaUri : String :=
  "https://schemastore.azurewebsites.net/schemas/json/sarif-2.1.0.json"

/-- An artifact, with its members in ascending order. -/
def Artifact.toJson (a : Artifact) : Json :=
  .obj ([("length", .num a.length), ("location", .obj [("uri", .str a.uri)])] ++
    (a.parent.map fun p => ("parentIndex", Json.num p)).toList ++
    if a.roles.isEmpty then [] else [("roles", .list (a.roles.map .str))])

/-- An invocation, with its members in ascending order. -/
def Invocation.toJson (i : Invocation) : Json :=
  .obj ([("arguments", .list (i.arguments.map .str))] ++
    (i.commandLine.map fun line => ("commandLine", Json.str line)).toList ++
    [("executionSuccessful", .bool true)])

/-- A rule, with its members in ascending order. -/
def Rule.toJson (r : Rule) : Json :=
  .obj [("fullDescription", .obj [("text", .str r.fullText)]), ("id", .str r.name),
    ("name", .str r.name), ("shortDescription", .obj [("text", .str r.shortText)])]

/-- A result, with its members in ascending order. -/
def LogEntry.toJson (e : LogEntry) : Json :=
  .obj [
    ("locations", .list [.obj [("logicalLocations",
      .list [.obj [("kind", .str "function"), ("name", .str e.location)]])]]),
    ("message", .obj [("text", .str e.message)]),
    ("ruleId", .str e.ruleId)]

/-- A log, with its members in ascending order. A log without artifacts does
not mention them. -/
def Log.toJson (l : Log) : Json :=
  let run : Json := .obj (
    (if l.artifacts.isEmpty then [] else [("artifacts", .list l.artifacts)]) ++
    [("invocations", .list [l.invocation.toJson]),
      ("results", .list (l.results.map LogEntry.toJson)),
      ("tool", .obj [("driver", .obj [("name", .str toolName),
        ("rules", .list (l.rules.map Rule.toJson)), ("version", .str toolVersion)])])])
  .obj [("$schema", .str schemaUri), ("runs", .list [run]), ("version", .str "2.1.0")]

end ClassLens.Report
