/-
Contents: what the text of a report tells.

A log and a list of patterns are JSON texts, and what they tell is what stands under
names in them (`Json.at?`). A dump is lines, and tells what is owed to each method. In
either case it is said without the functions that write the text, so a text that says
less is no report (`isLog_log`, `isPatternList_patternList`, `isDump_dump`).
-/
import ClassLens.Files.OsText
import ClassLens.Proofs.Report.Accounts
import ClassLens.Proofs.Report.JsonText
import ClassLens.Proofs.Report.Results
import ClassLens.Report.PatternList

set_option autoImplicit false

namespace ClassLens.Report

/-- What stands under names in a value, from object to object. -/
def Json.at? : Json → List String → Option Json
  | j, [] => some j
  | .obj members, name :: rest => (members.lookup name).bind fun j => j.at? rest
  | _, _ :: _ => none

/-! ## Logs -/

/-- Whether an artifact is told. -/
structure TellsArtifact (a : Artifact) (j : Json) : Prop where
  uri : j.at? ["location", "uri"] = some (.str a.uri)
  length : j.at? ["length"] = some (.num a.length)
  parent : j.at? ["parentIndex"] = a.parent.map fun p => .num p
  roles : j.at? ["roles"] = if a.roles = [] then none else some (.list (a.roles.map .str))

/-- Whether a rule is told. -/
structure TellsRule (r : Rule) (j : Json) : Prop where
  id : j.at? ["id"] = some (.str r.name)
  name : j.at? ["name"] = some (.str r.name)
  shortText : j.at? ["shortDescription", "text"] = some (.str r.shortText)
  fullText : j.at? ["fullDescription", "text"] = some (.str r.fullText)

/-- Whether a result is told. -/
structure TellsResult (e : LogEntry) (j : Json) : Prop where
  ruleId : j.at? ["ruleId"] = some (.str e.ruleId)
  message : j.at? ["message", "text"] = some (.str e.message)
  location : ∃ place name, j.at? ["locations"] = some (.list [place]) ∧
    place.at? ["logicalLocations"] = some (.list [name]) ∧
    name.at? ["name"] = some (.str e.location)

/-- Whether an invocation is told. -/
structure TellsInvocation (i : Invocation) (j : Json) : Prop where
  arguments : j.at? ["arguments"] = some (.list (i.arguments.map .str))
  commandLine : j.at? ["commandLine"] = i.commandLine.map .str

/-- Whether a run is told: all that there is in the log of it. -/
structure TellsRun (l : Log) (run : Json) : Prop where
  tool : run.at? ["tool", "driver", "name"] = some (.str "nanoscope")
  rules : ∃ rules, run.at? ["tool", "driver", "rules"] = some (.list rules) ∧
    List.Forall₂ TellsRule l.rules rules
  artifacts : run.at? ["artifacts"] =
    if l.artifacts.isEmpty then none else some (.list l.artifacts)
  invocation : ∃ i, run.at? ["invocations"] = some (.list [i]) ∧ TellsInvocation l.invocation i
  results : ∃ results, run.at? ["results"] = some (.list results) ∧
    List.Forall₂ TellsResult l.results results

/-- Whether a log is told, which has one run. -/
structure TellsLog (l : Log) (j : Json) : Prop where
  version : j.at? ["version"] = some (.str "2.1.0")
  schema : j.at? ["$schema"] =
    some (.str "https://schemastore.azurewebsites.net/schemas/json/sarif-2.1.0.json")
  run : ∃ run, j.at? ["runs"] = some (.list [run]) ∧ TellsRun l run

theorem tellsArtifact_toJson (a : Artifact) : TellsArtifact a a.toJson := by
  obtain ⟨uri, length, parent, roles⟩ := a
  cases parent <;> cases roles <;> constructor <;> rfl

theorem tellsRule_toJson (r : Rule) : TellsRule r r.toJson := by
  constructor <;> rfl

theorem tellsResult_toJson (e : LogEntry) : TellsResult e e.toJson where
  ruleId := rfl
  message := rfl
  location := ⟨_, _, rfl, rfl, rfl⟩

theorem tellsInvocation_toJson (i : Invocation) : TellsInvocation i i.toJson := by
  obtain ⟨arguments, line⟩ := i
  cases line <;> constructor <;> rfl

theorem tellsLog_toJson (l : Log) : TellsLog l l.toJson where
  version := rfl
  schema := rfl
  run := by
    refine ⟨_, rfl, ?_⟩
    constructor
    case tool => cases l.artifacts <;> rfl
    case rules =>
      refine ⟨l.rules.map (·.toJson), by cases l.artifacts <;> rfl, ?_⟩
      rw [List.forall₂_map_right_iff, List.forall₂_same]
      exact fun r _ => tellsRule_toJson r
    case artifacts => cases l.artifacts <;> rfl
    case invocation =>
      exact ⟨l.invocation.toJson, by cases l.artifacts <;> rfl, tellsInvocation_toJson _⟩
    case results =>
      refine ⟨l.results.map (·.toJson), by cases l.artifacts <;> rfl, ?_⟩
      rw [List.forall₂_map_right_iff, List.forall₂_same]
      exact fun e _ => tellsResult_toJson e

/-- A printed value with a line end is a text of the value. -/
theorem isText_ended (j : Json) : j.IsText (j.pretty ++ "\n").toList := by
  have hend : Json.IsBlank ['\n'] := by simp [Json.IsBlank]
  have htext := j.isText_pretty.padded Json.isBlank_nil hend
  simpa using htext

/-- Whether a text is the log of a context that tells some artifacts, and the words that
asked for it. -/
inductive IsLog (c : Context) (artifacts : List Artifact) (words : List OsText) (text : String) :
    Prop
  | mk {l : Log} {texts : List String} {j : Json} : j.IsText text.toList → TellsLog l j →
      l.IsExact c → List.Forall₂ TellsArtifact artifacts l.artifacts →
      words = texts.map .ofString →
      l.invocation = ⟨"nanoscope" :: texts, some (" ".intercalate ("nanoscope" :: texts))⟩ →
      IsLog c artifacts words text

/-- The log of a context that was not asked anything before is one. -/
theorem isLog_log (c : Context) (artifacts : List Artifact) (texts : List String) :
    IsLog c artifacts (texts.map .ofString)
      (((log c (artifacts.map (·.toJson)) ⟨"nanoscope" :: texts,
        some (" ".intercalate ("nanoscope" :: texts))⟩).run .empty).1.toJson.pretty ++ "\n") := by
  have hartifacts : List.Forall₂ TellsArtifact artifacts (artifacts.map (·.toJson)) := by
    rw [List.forall₂_map_right_iff, List.forall₂_same]
    exact fun a _ => tellsArtifact_toJson a
  have hlog : ((log c (artifacts.map (·.toJson)) ⟨"nanoscope" :: texts,
      some (" ".intercalate ("nanoscope" :: texts))⟩).run .empty).1 = _ :=
    (gives_log c _ _ _ (MatchCache.faithful_empty c)).1
  rw [hlog]
  exact .mk (isText_ended _) (tellsLog_toJson _) (isExact_resultsOf c _ _) hartifacts rfl rfl

/-! ## Lists of patterns -/

/-- Whether a pattern is told. -/
structure TellsPattern (p : Pattern) (j : Json) : Prop where
  name : j.at? ["name"] = some (.str p.name)
  category : j.at? ["category"] = some (.str p.category.label)
  description : j.at? ["description"] = some (.str p.description)
  simple : j.at? ["simple"] = some (.bool p.isSimple)

/-- Whether a text is the list of a catalogue's patterns. -/
inductive IsPatternList (cat : Catalog) (text : String) : Prop
  | mk {items : List Json} : (Json.list items).IsText text.toList →
      List.Forall₂ TellsPattern cat.patterns items → IsPatternList cat text

theorem isPatternList_patternList (cat : Catalog) :
    IsPatternList cat ((patternList cat).pretty ++ "\n") := by
  refine .mk (isText_ended _) ?_
  rw [List.forall₂_map_right_iff, List.forall₂_same]
  exact fun p _ => ⟨rfl, rfl, rfl, rfl⟩

/-! ## Dumps -/

/-- The lines that a method is owed in a dump: its key, and below it the error that it
has in place of a forest, or the outline of each tree with the expression behind it if
there is one. -/
inductive Owes (m : Method) : List String → Prop
  | failed {e : AssemblyError} : Forest.assemble m = .error e → Owes m [m.key, "  ! " ++ e.message]
  | assembled {f : Forest} : Forest.assemble m = .ok f →
      Owes m (m.key :: f.roots.flatMap fun r => outlineLines f r ++ (sourceLine? f r).toList)

/-- Whether a text has the lines that the methods of a context are owed, each with its
end, and nothing else. -/
inductive IsDump (c : Context) (text : String) : Prop
  | mk {owed : List (List String)} : List.Forall₂ Owes c.methods owed →
      text.toList = owed.flatten.flatMap (fun l => l.toList ++ ['\n']) → IsDump c text

theorem owes_methodLines (m : Method) : Owes m (methodLines m) := by
  rw [methodLines]
  cases hf : Forest.assemble m with
  | error e => exact .failed hf
  | ok f =>
    simp only [funext (treeLines_eq f)]
    exact .assembled hf

theorem isDump_dump (c : Context) : IsDump c (dump c) := by
  have howed : List.Forall₂ Owes c.methods (c.methods.map methodLines) := by
    rw [List.forall₂_map_right_iff, List.forall₂_same]
    exact fun m _ => owes_methodLines m
  refine .mk howed ?_
  rw [toList_dump, List.flatMap_def (f := methodLines)]

end ClassLens.Report
