/-
Traces: what a command leaves behind, in the files and on the console.

Opening a file for writing empties it, and a step that fails does not undo those
before it. So a failed command is one without a trace only because of the order of
its steps: all that can fail of the input comes before the output is opened, and what
comes after cannot fail but for one thing: the log has to tell the words, and a word may
be no Unicode text. `ends_perform` goes through the steps once and has all that can
become of them.

What is written is described by what was in the files at the start (`Reports`), so it
is the same report even if the output is a file that was scanned for it.
-/
import ClassLens.Command.Run
import ClassLens.Proofs.Command.Words
import ClassLens.Proofs.Files.Writing
import ClassLens.Proofs.Report.Contents
import ClassLens.Proofs.Scan.Walk

set_option autoImplicit false

namespace ClassLens

/-! ## The name of the console -/

namespace PathText

/-- The components that a path is compared by. Where it starts, an empty part is the
root and a single dot a component; behind that neither counts. -/
def components (path : OsText) : List OsText :=
  if path = [] then []
  else match parts path with
    | [] => []
    | first :: rest => (if first = [] then [slash] else first) :: rest.filter (!isHere ·)

end PathText

namespace Command

open PathText (components)

/-- Whether the output is the console: the words give none, or a path that is equal to
the console's as a path. -/
def ToConsole (words : List OsText) : Prop :=
  ∀ path, Gives words .output path → components path = components consolePath

theorem isConsole_iff {path : OsText} :
    isConsole path = true ↔ components path = components consolePath := by
  have hconsole : components consolePath = [[dash]] := by decide
  rw [hconsole, isConsole, components]
  by_cases hempty : path = []
  · subst hempty
    decide
  · rw [if_neg hempty]
    cases PathText.parts path with
    | nil => simp
    | cons first rest =>
      have hfirst : (if first = [] then [PathText.slash] else first) = [dash] ↔
          first = consolePath := by
        rw [consolePath]
        by_cases h : first = []
        · subst h
          decide
        · rw [if_neg h]
      rw [Bool.and_eq_true, beq_iff_eq, List.all_eq_true, List.cons.injEq, List.filter_eq_nil_iff,
        hfirst]
      simp

variable {files : FileSystem} {words : List OsText} {task : Task} {o : Options} {w w' : World}
  {path : OsText} {text : String} {cause : Failure} {c : Context} {output : Output Target}

/-! ## Single steps -/

theorem run_bind_ok {α β : Type} {x : Steps (StateM World) α} {f : α → Steps (StateM World) β}
    {r : α} (h : x.run.run w = (.ok r, w')) : (x >>= f).run.run w = (f r).run.run w' := by
  show ExceptT.bindCont f (x.run.run w).1 (x.run.run w).2 = _
  rw [h]
  rfl

theorem run_bind_error {α β : Type} {x : Steps (StateM World) α} {f : α → Steps (StateM World) β}
    (h : x.run.run w = (.error cause, w')) : (x >>= f).run.run w = (.error cause, w') := by
  show ExceptT.bindCont f (x.run.run w).1 (x.run.run w).2 = _
  rw [h]
  rfl

theorem run_lift {α : Type} (x : StateM World α) (w : World) :
    (liftM x : Steps (StateM World) α).run.run w = (.ok (x.run w).1, (x.run w).2) := rfl

theorem run_warnAll (texts : List String) (w : World) :
    (warnAll World.host texts).run.run w =
      (.ok (), { w with warnings := w.warnings ++ texts }) := by
  induction texts generalizing w with
  | nil => rw [List.append_nil]; rfl
  | cons text texts ih =>
    rw [warnAll, run_bind_ok (run_lift _ w), ih, List.append_cons]
    rfl

/-- The world once a text is written to an output. -/
def World.put (w : World) (text : String) : Output Target → World
  | .console => w.printed text
  | .opened target => w.written text target

theorem run_writeTo (text : String) (output : Output Target) (w : World) :
    (writeTo World.host text output).run.run w = (.ok (), w.put text output) := by
  cases output <;> rfl

/-! ## Outputs -/

/-- Whether an output has a text and no other, and nothing else has changed. -/
inductive Holds (files : FileSystem) (text : String) (w : World) : Output Target → Prop
  | console : w.files = files → w.console = text → Holds files text w .console
  | file {place : Place} : w.console = "" → files.SameBut w.files place text.toUTF8 →
      Holds files text w (.opened (.file place))
  | null : w.console = "" → w.files = files → Holds files text w (.opened (.device .null))
  | printed : w.files = files → w.console = text → Holds files text w (.opened (.device .console))

/-- What is written to an output comes behind the text that it has. -/
theorem Holds.put (h : Holds files text w output) (more : String) :
    Holds files (text ++ more) (w.put more output) output := by
  cases h with
  | console hfiles hconsole => exact .console hfiles (congrArg (· ++ more) hconsole)
  | file hconsole hbut =>
    refine .file hconsole ?_
    have hboth : (text ++ more).toUTF8 = text.toUTF8 ++ more.toUTF8 := String.toByteArray_append
    rw [hboth]
    exact hbut.append more.toUTF8
  | null hconsole hfiles => exact .null hconsole hfiles
  | printed hfiles hconsole => exact .printed hfiles (congrArg (· ++ more) hconsole)

theorem Holds.warned (h : Holds files text w output) (warnings : List String) :
    Holds files text { w with warnings := warnings } output := by
  cases h with
  | console hfiles hconsole => exact .console hfiles hconsole
  | file hconsole hbut => exact .file hconsole hbut
  | null hconsole hfiles => exact .null hconsole hfiles
  | printed hfiles hconsole => exact .printed hfiles hconsole

/-- What a destination is opened as. -/
inductive OpensAs (files : FileSystem) : Destination → Output Target → Prop
  | console : OpensAs files .console .console
  | file {path : OsText} {place : Place} : files.create? path ≠ none →
      files.place? path = some place → OpensAs files (.file path) (.opened (.file place))
  | device {path : OsText} {place : Place} {d : Device} : files.create? path ≠ none →
      files.place? path = some place → files.root.nodeAt? place = some (.device d) →
      OpensAs files (.file path) (.opened (.device d))

theorem run_create_none (h : w.files.create? path = none) :
    (World.host.create path).run w = (none, w) := by
  simp only [World.host, StateT.run_bind, StateT.run_get, pure_bind, h]
  rfl

theorem run_create_some {target : Target} {opened : FileSystem}
    (h : w.files.create? path = some (target, opened)) :
    (World.host.create path).run w = (some target, { w with files := opened }) := by
  simp only [World.host, StateT.run_bind, StateT.run_get, pure_bind, h]
  rfl

/-- An output is opened with nothing in it, unless it cannot be. -/
theorem run_openOutput (d : Destination) (hw : w.console = "") :
    (∃ path, d = .file path ∧ w.files.create? path = none ∧
      (openOutput World.host d).run.run w = (.error (.cannotOpen path), w)) ∨
    ∃ output w', (openOutput World.host d).run.run w = (.ok output, w') ∧
      OpensAs w.files d output ∧ Holds w.files "" w' output := by
  cases d with
  | console => exact .inr ⟨.console, w, rfl, .console, .console rfl hw⟩
  | file path =>
    cases hcreate : w.files.create? path with
    | none =>
      refine .inl ⟨path, rfl, hcreate, ?_⟩
      rw [openOutput, run_bind_ok (run_lift _ w), run_create_none hcreate]
      rfl
    | some p =>
      obtain ⟨target, opened⟩ := p
      have hsome : w.files.create? path ≠ none := by simp [hcreate]
      have hrun : (openOutput World.host (.file path)).run.run w =
          (.ok (.opened target), { w with files := opened }) := by
        rw [openOutput, run_bind_ok (run_lift _ w), run_create_some hcreate]
        rfl
      refine .inr ⟨_, _, hrun, ?_⟩
      have hopens := FileSystem.opens_of_create? hcreate
      cases hopens with
      | file hplace hbut => exact ⟨.file hsome hplace, .file hw hbut⟩
      | @device place d hplace hdevice =>
        refine ⟨.device hsome hplace hdevice, ?_⟩
        cases d with
        | null => exact .null hw rfl
        | console => exact .printed rfl hw

/-! ## Reports -/

/-- What a scan of what a path leads to comes to. -/
def findingsAt (files : FileSystem) (path : OsText) : Scan.Findings :=
  Scan.scan Archive.entries (files.find? path) path

/-- The classes that a scan finds, in a context of the built-in patterns. -/
def contextAt (files : FileSystem) (path : OsText) : Context :=
  .make (Scan.classes (findingsAt files path).sources) .builtin

/-- What there is to report on a task, going by the files that there are. -/
inductive Reports (files : FileSystem) (words : List OsText) (o : Options) : Task → String → Prop
  | patterns {text : String} : Report.IsPatternList .builtin text →
      Reports files words o .listPatterns text
  | dump {path : OsText} {text : String} : files.find? path ≠ none →
      (findingsAt files path).failure = none → o.trees = true →
      Report.IsDump (contextAt files path) text → Reports files words o (.analyse path) text
  | log {path : OsText} {text : String} : files.find? path ≠ none →
      (findingsAt files path).failure = none → o.trees = false →
      Report.IsLog (contextAt files path) (findingsAt files path).artifacts words text →
      Reports files words o (.analyse path) text

/-- What keeps a task from being reported on. Nothing keeps the patterns from being
listed. -/
inductive Prevents (files : FileSystem) : Task → Failure → Prop
  | notFound {path : OsText} : files.find? path = none →
      Prevents files (.analyse path) (.inputNotFound path)
  | scan {path : OsText} {cause : Scan.Failure} : files.find? path ≠ none →
      (findingsAt files path).failure = some cause → Prevents files (.analyse path) (.scan cause)

/-- Nothing keeps an input from being reported on that is there and can be scanned. -/
theorem not_prevents_iff : (¬ ∃ cause, Prevents files (.analyse path) cause) ↔
    files.find? path ≠ none ∧ (findingsAt files path).failure = none := by
  constructor
  · intro h
    have hfind : files.find? path ≠ none := fun hnone => h ⟨_, .notFound hnone⟩
    refine ⟨hfind, ?_⟩
    cases hfailure : (findingsAt files path).failure with
    | none => rfl
    | some cause => exact absurd ⟨_, .scan hfind hfailure⟩ h
  · rintro ⟨hfind, hfailure⟩ ⟨cause, hmissing | ⟨-, hcause⟩⟩
    · exact hfind hmissing
    · simp [hfailure] at hcause

/-- What is reported on is not kept from being. -/
theorem Reports.not_prevents (h : Reports files words o task text) :
    ¬ ∃ cause, Prevents files task cause := by
  cases h with
  | patterns => rintro ⟨cause, ⟨⟩⟩
  | dump hfind hfailure | log hfind hfailure => exact not_prevents_iff.mpr ⟨hfind, hfailure⟩

/-- Without its findings, warnings are all that comes of a scan. -/
theorem exists_run_scanInput_error (h : Prevents w.files (.analyse path) cause) :
    ∃ warnings, (scanInput World.host path).run.run w =
      (.error cause, { w with warnings := warnings }) := by
  have hfound : (World.host.find path).run w = (w.files.find? path, w) := rfl
  rw [scanInput, run_bind_ok (run_lift _ w), hfound]
  cases h with
  | notFound hfind =>
    refine ⟨w.warnings, ?_⟩
    simp only [hfind]
    rfl
  | scan hfind hfailure =>
    rw [findingsAt] at hfailure
    rw [if_neg (by simpa using hfind)]
    refine ⟨w.warnings ++ Scan.warnings (findingsAt w.files path).sources,
      (run_bind_ok (run_warnAll _ w)).trans ?_⟩
    simp only [hfailure]
    rfl

theorem exists_run_scanInput_ok (hfind : w.files.find? path ≠ none)
    (hfailure : (findingsAt w.files path).failure = none) :
    ∃ warnings, (scanInput World.host path).run.run w =
      (.ok (findingsAt w.files path), { w with warnings := warnings }) := by
  have hfound : (World.host.find path).run w = (w.files.find? path, w) := rfl
  rw [findingsAt] at hfailure
  rw [scanInput, run_bind_ok (run_lift _ w), hfound, if_neg (by simpa using hfind)]
  refine ⟨w.warnings ++ Scan.warnings (findingsAt w.files path).sources,
    (run_bind_ok (run_warnAll _ w)).trans ?_⟩
  simp only [hfailure]
  rfl

/-! ## Writing reports -/

theorem mapM_text?_eq_some_iff {words : List OsText} {texts : List String} :
    words.mapM OsText.text? = some texts ↔ words = texts.map .ofString := by
  induction words generalizing texts with
  | nil => cases texts <;> simp
  | cons word words ih =>
    cases texts with
    | nil => simp [List.mapM_cons, Option.bind_eq_some_iff]
    | cons text texts =>
      simp [List.mapM_cons, Option.bind_eq_some_iff, OsText.text?_eq_some_iff, ih]

/-- Words that are texts can be told, and others cannot. -/
theorem invocation_cases (words : List OsText) :
    (∃ texts : List String, words = texts.map .ofString ∧ invocation words =
        .ok ⟨"nanoscope" :: texts, some (" ".intercalate ("nanoscope" :: texts))⟩) ∨
      (¬ ∃ texts : List String, words = texts.map .ofString) ∧
        invocation words = .error .notUnicode := by
  rw [invocation]
  simp only [← mapM_text?_eq_some_iff]
  cases words.mapM OsText.text? with
  | some texts => exact .inl ⟨texts, rfl, rfl⟩
  | none => exact .inr ⟨by simp, rfl⟩

/-- A text and a line end are written to an output that has nothing yet. -/
theorem Holds.ended (h : Holds files "" w output) (text : String) :
    Holds files (text ++ "\n") ((w.put text output).put "\n" output) output := by
  have hboth := (h.put text).put "\n"
  rwa [String.empty_append] at hboth

theorem exists_run_writeDump (h : Holds files "" w output) (c : Context) :
    ∃ w', (writeDump World.host c output).run.run w = (.ok (), w') ∧
      Holds files (Report.dump c) w' output := by
  have hdump := (h.warned (w.warnings ++ Report.dumpWarnings c)).put (Report.dump c)
  rw [String.empty_append] at hdump
  exact ⟨_, (run_bind_ok (run_warnAll _ w)).trans (run_writeTo _ output _), hdump⟩

/-- A log is written if the words are texts. If they are not, nothing is written. -/
theorem run_writeLog_cases (h : Holds files "" w output) (words : List OsText) (c : Context)
    (artifacts : List Report.Artifact) :
    (∃ text w', (writeLog World.host words c artifacts output).run.run w = (.ok (), w') ∧
        Report.IsLog c artifacts words text ∧ Holds files text w' output) ∨
      (¬ ∃ texts : List String, words = texts.map .ofString) ∧
        (writeLog World.host words c artifacts output).run.run w = (.error .notUnicode, w) := by
  rcases invocation_cases words with ⟨texts, rfl, hwords⟩ | ⟨hwords, hnone⟩
  · have hrun : (liftM (invocation (texts.map .ofString)) :
        Steps (StateM World) Report.Invocation).run.run w = (.ok _, w) :=
      congrArg (fun result => (result, w)) hwords
    refine .inl ⟨_, _, ?_, Report.isLog_log c artifacts texts, h.ended _⟩
    rw [writeLog, run_bind_ok hrun]
    exact (run_bind_ok (run_writeTo _ output _)).trans (run_writeTo _ output _)
  · have hrun : (liftM (invocation words) :
        Steps (StateM World) Report.Invocation).run.run w = (.error .notUnicode, w) :=
      congrArg (fun result => (result, w)) hnone
    exact .inr ⟨hwords, by rw [writeLog, run_bind_error hrun]⟩

/-! ## Tasks -/

/-- How a task ends. Something keeps it from being reported on, or its output cannot be
opened, and nothing is changed; or its report is all that is in the output. Only a log
can fail when its output is open. -/
inductive Ends (files : FileSystem) (words : List OsText) (o : Options) (task : Task) :
    Except Failure (Option Counts) → World → Prop
  | prevented {cause : Failure} {w : World} : Prevents files task cause →
      w.console = "" → w.files = files → Ends files words o task (.error cause) w
  | unopened {path : OsText} {w : World} : Destination.of o.output = .file path →
      files.create? path = none → w.console = "" → w.files = files →
      Ends files words o task (.error (.cannotOpen path)) w
  | untold {path : OsText} {output : Output Target} {w : World} : task = .analyse path →
      (¬ ∃ cause, Prevents files task cause) → OpensAs files (Destination.of o.output) output →
      o.trees = false → (¬ ∃ texts : List String, words = texts.map .ofString) →
      Holds files "" w output → Ends files words o task (.error .notUnicode) w
  | reported {counts : Option Counts} {text : String} {output : Output Target} {w : World} :
      Reports files words o task text → OpensAs files (Destination.of o.output) output →
      Holds files text w output → Ends files words o task (.ok counts) w

theorem ends_listPatterns (hw : w.console = "") :
    Ends w.files words o .listPatterns
      ((perform World.host .listPatterns o words).run.run w).1
      ((perform World.host .listPatterns o words).run.run w).2 := by
  rcases run_openOutput (Destination.of o.output) hw with
    ⟨path, hdest, hcreate, hrun⟩ | ⟨output, w₁, hrun, hopens, hholds⟩
  · have hlist : (listPatterns World.host o).run.run w = (.error (.cannotOpen path), w) :=
      run_bind_error hrun
    rw [perform, run_bind_error hlist]
    exact .unopened hdest hcreate hw rfl
  · have hlist : (listPatterns World.host o).run.run w = (.ok (), _) :=
      (run_bind_ok hrun).trans
        ((run_bind_ok (run_writeTo _ output _)).trans (run_writeTo _ output _))
    rw [perform, run_bind_ok hlist]
    exact .reported (.patterns (Report.isPatternList_patternList .builtin)) hopens (hholds.ended _)

theorem ends_analyse (path : OsText) (hw : w.console = "") :
    Ends w.files words o (.analyse path)
      ((perform World.host (.analyse path) o words).run.run w).1
      ((perform World.host (.analyse path) o words).run.run w).2 := by
  rw [perform, analyse]
  by_cases hprevents : ∃ cause, Prevents w.files (.analyse path) cause
  · obtain ⟨cause, hcause⟩ := hprevents
    obtain ⟨warnings, hscan⟩ := exists_run_scanInput_error hcause
    rw [run_bind_error hscan]
    exact .prevented hcause hw rfl
  obtain ⟨hfind, hfailure⟩ := not_prevents_iff.mp hprevents
  obtain ⟨warnings, hscan⟩ := exists_run_scanInput_ok hfind hfailure
  rw [run_bind_ok hscan]
  rcases run_openOutput (w := { w with warnings := warnings }) (Destination.of o.output) hw with
    ⟨out, hdest, hcreate, hrun⟩ | ⟨output, w₁, hrun, hopens, hholds⟩
  · rw [run_bind_error hrun]
    exact .unopened hdest hcreate hw rfl
  have hcontext :
      Context.make (Scan.classes (findingsAt w.files path).sources) .builtin =
        contextAt w.files path := rfl
  rw [run_bind_ok hrun]
  cases htrees : o.trees with
  | true =>
    obtain ⟨w₂, hdump, hwritten⟩ := exists_run_writeDump hholds (contextAt w.files path)
    simp only [if_true, hcontext]
    rw [run_bind_ok hdump]
    exact .reported (.dump hfind hfailure htrees (Report.isDump_dump _)) hopens hwritten
  | false =>
    simp only [Bool.false_eq_true, if_false, hcontext]
    rcases run_writeLog_cases hholds words (contextAt w.files path)
        (findingsAt w.files path).artifacts with
      ⟨text, w₂, hlog, htold, hwritten⟩ | ⟨hwords, hlog⟩
    · rw [run_bind_ok hlog]
      exact .reported (.log hfind hfailure htrees htold) hopens hwritten
    · rw [run_bind_error hlog]
      exact .untold rfl hprevents hopens htrees hwords hholds

theorem ends_perform (task : Task) (o : Options) (words : List OsText) (hw : w.console = "") :
    Ends w.files words o task ((perform World.host task o words).run.run w).1
      ((perform World.host task o words).run.run w).2 := by
  cases task with
  | listPatterns => exact ends_listPatterns hw
  | analyse path => exact ends_analyse path hw

/-! ## What is left behind -/

theorem run_eq_done {counts : Option Counts} (h : Request.ofWords words = .perform task o)
    (hrun : (perform World.host task o words).run.run (.initial files) = (.ok counts, w)) :
    run files words = ⟨.done counts, w⟩ := by
  rw [run, execute.eq_def, h]
  simp only [StateT.run_bind, hrun]
  rfl

theorem run_eq_failed (h : Request.ofWords words = .perform task o)
    (hrun : (perform World.host task o words).run.run (.initial files) = (.error cause, w)) :
    run files words = ⟨.failed cause, w⟩ := by
  rw [run, execute.eq_def, h]
  simp only [StateT.run_bind, hrun]
  rfl

/-- The output cannot be opened: the path to it leads nowhere, or to what cannot be
written. -/
def CannotOpen (files : FileSystem) (words : List OsText) : Prop :=
  ∃ path, Gives words .output path ∧ components path ≠ components consolePath ∧
    ∀ place, files.place? path = some place → ¬ files.root.CanWrite place

/-- Nothing but a word keeps a log from being written: the input can be reported on and
the output opened, but the log has to tell the words, and they are not all texts. -/
def IsUntold (files : FileSystem) (words : List OsText) : Prop :=
  ∃ path o, Request.ofWords words = .perform (.analyse path) o ∧ o.trees = false ∧
    (¬ ∃ cause, Prevents files (.analyse path) cause) ∧ ¬ CannotOpen files words ∧
    ¬ ∃ texts : List String, words = texts.map .ofString

/-- The report is on the console, and no file is touched; or it is all that is in the
file that the words name as the output, there is nothing on the console, and no other
file is touched. What the words name may also be a device, which keeps nothing. Then no
file is touched, and the report is on the console if the device prints. -/
inductive IsDelivered (files : FileSystem) (words : List OsText) (text : String) (e : Outcome) :
    Prop
  | console : ToConsole words → e.console = text → e.files = files →
      IsDelivered files words text e
  | file {path : OsText} {place : Place} : Gives words .output path →
      components path ≠ components consolePath → files.place? path = some place →
      e.console = "" → files.SameBut e.files place text.toUTF8 → IsDelivered files words text e
  | null {path : OsText} {place : Place} : Gives words .output path →
      components path ≠ components consolePath → files.place? path = some place →
      files.root.nodeAt? place = some (.device .null) →
      e.console = "" → e.files = files → IsDelivered files words text e
  | printed {path : OsText} {place : Place} : Gives words .output path →
      components path ≠ components consolePath → files.place? path = some place →
      files.root.nodeAt? place = some (.device .console) →
      e.console = text → e.files = files → IsDelivered files words text e

/-- A failure leaves no trace, and success none but the report. -/
structure IsTidy (files : FileSystem) (words : List OsText) (e : Outcome) : Prop where
  /-- A command that fails has printed nothing and touched no file. -/
  failed : e.exitCode ≠ 0 → e.console = "" ∧ e.files = files
  /-- It fails if the words make no sense, if there is something that keeps the task
  from being reported on, or if the output cannot be opened, and for no other reason. -/
  failed_iff : e.exitCode ≠ 0 ↔ Request.ofWords words = .misuse ∨
    ∃ task o, Request.ofWords words = .perform task o ∧
      ((∃ cause, Prevents files task cause) ∨ CannotOpen files words)
  /-- Help and version are printed, and no file is touched. -/
  help : Request.ofWords words = .help → e.console = helpText ∧ e.files = files
  version : Request.ofWords words = .version → e.console = versionText ∧ e.files = files
  /-- If a task does not fail, its whole report is where it is to be. -/
  delivered : ∀ task o, Request.ofWords words = .perform task o → e.exitCode = 0 →
    ∃ text, Reports files words o task text ∧ IsDelivered files words text e

/-- The output is the one that the words give. -/
theorem output_eq_some_iff (h : Request.ofWords words = .perform task o) :
    o.output = some path ↔ Gives words .output path :=
  value?_of_ofWords (s := .output) h

theorem destination_eq_console_iff (h : Request.ofWords words = .perform task o) :
    Destination.of o.output = .console ↔ ToConsole words := by
  simp only [ToConsole, ← output_eq_some_iff h]
  cases o.output with
  | none => simp [Destination.of]
  | some path => simp [Destination.of, ← isConsole_iff]

theorem destination_eq_file_iff (h : Request.ofWords words = .perform task o) :
    Destination.of o.output = .file path ↔
      Gives words .output path ∧ components path ≠ components consolePath := by
  rw [← output_eq_some_iff h]
  cases o.output with
  | none => simp [Destination.of]
  | some own =>
    rw [Option.some.injEq, Ne, ← isConsole_iff, Destination.of]
    split
    case isTrue hconsole => simp +contextual [← hconsole]
    case isFalse hfile =>
      rw [Destination.file.injEq]
      constructor
      · rintro rfl
        exact ⟨rfl, hfile⟩
      · exact fun h => h.1

/-- The output cannot be opened if what it is opened as is a file that cannot be. -/
theorem cannotOpen_iff (h : Request.ofWords words = .perform task o) : CannotOpen files words ↔
    ∃ path, Destination.of o.output = .file path ∧ files.create? path = none := by
  simp only [destination_eq_file_iff h, FileSystem.create?_eq_none_iff, CannotOpen, and_assoc]

/-- An output that is open could be opened. -/
theorem OpensAs.not_cannotOpen (h : OpensAs files (Destination.of o.output) output)
    (hrequest : Request.ofWords words = .perform task o) : ¬ CannotOpen files words := by
  rw [cannotOpen_iff hrequest]
  rintro ⟨path, hdest, hcreate⟩
  rw [hdest] at h
  cases h with
  | file hsome => exact hsome hcreate
  | device hsome => exact hsome hcreate

/-- The output can be opened if it leads to what can be written. -/
theorem not_cannotOpen {place : Place} (hrequest : Request.ofWords words = .perform task o)
    (houtput : o.output = some path) (hplace : files.place? path = some place)
    (hcan : files.root.CanWrite place) : ¬ CannotOpen files words := by
  rintro ⟨own, hgives, -, hcannot⟩
  rw [← output_eq_some_iff hrequest, houtput] at hgives
  obtain rfl := Option.some.inj hgives
  exact hcannot place hplace hcan

/-- A task is done if nothing keeps it from being reported on and its output can be
opened. -/
theorem IsTidy.exitCode_eq_zero {e : Outcome} (h : IsTidy files words e)
    (hrequest : Request.ofWords words = .perform task o)
    (hprevents : ¬ ∃ cause, Prevents files task cause) (hopens : ¬ CannotOpen files words) :
    e.exitCode = 0 := by
  by_contra hne
  rcases h.failed_iff.mp hne with hmisuse | ⟨task', o', hrequest', hcause⟩
  · simp [hrequest] at hmisuse
  · rw [hrequest, Request.perform.injEq] at hrequest'
    obtain ⟨rfl, rfl⟩ := hrequest'
    exact hcause.elim hprevents hopens

/-- A report whose output is a file is in the file. -/
theorem IsDelivered.sameBut {e : Outcome} {place : Place} (h : IsDelivered files words text e)
    (hrequest : Request.ofWords words = .perform task o) (houtput : o.output = some path)
    (hfile : components path ≠ components consolePath) (hplace : files.place? path = some place)
    (hdevice : ∀ d, files.root.nodeAt? place ≠ some (.device d)) :
    e.console = "" ∧ files.SameBut e.files place text.toUTF8 := by
  have hgives {own : OsText} (hown : Gives words .output own) : own = path := by
    rw [← output_eq_some_iff hrequest, houtput] at hown
    exact (Option.some.inj hown).symm
  cases h with
  | console hconsole => exact absurd (hconsole _ ((output_eq_some_iff hrequest).mp houtput)) hfile
  | file hown _ hat hprinted hbut =>
    rw [hgives hown, hplace] at hat
    obtain rfl := Option.some.inj hat
    exact ⟨hprinted, hbut⟩
  | null hown _ hat hnode | printed hown _ hat hnode =>
    rw [hgives hown, hplace] at hat
    obtain rfl := Option.some.inj hat
    exact absurd hnode (hdevice _)

/-- What an output has that is open is delivered. -/
theorem OpensAs.isDelivered (h : OpensAs files (Destination.of o.output) output)
    (hrequest : Request.ofWords words = .perform task o) (hholds : Holds files text w output)
    (ending : Ending) : IsDelivered files words text ⟨ending, w⟩ := by
  generalize hdest : Destination.of o.output = d at h
  cases h with
  | console =>
    cases hholds with
    | console hfiles hconsole =>
      exact .console ((destination_eq_console_iff hrequest).mp hdest) hconsole hfiles
  | file _ hplace =>
    obtain ⟨hgives, hfile⟩ := (destination_eq_file_iff hrequest).mp hdest
    cases hholds with
    | file hconsole hbut => exact .file hgives hfile hplace hconsole hbut
  | device _ hplace hdevice =>
    obtain ⟨hgives, hfile⟩ := (destination_eq_file_iff hrequest).mp hdest
    cases hholds with
    | null hconsole hfiles => exact .null hgives hfile hplace hdevice hconsole hfiles
    | printed hfiles hconsole => exact .printed hgives hfile hplace hdevice hconsole hfiles

/-- A task fails without a trace, because something keeps it from being reported on or
because its output cannot be opened; or its report is delivered. That is so unless
nothing but a word is in the way. -/
theorem run_cases (hrequest : Request.ofWords words = .perform task o)
    (hwords : ¬ IsUntold files words) :
    ((run files words).exitCode ≠ 0 ∧ (run files words).console = "" ∧
      (run files words).files = files ∧
      ((∃ cause, Prevents files task cause) ∨ CannotOpen files words)) ∨
    ((run files words).exitCode = 0 ∧
      ¬ ((∃ cause, Prevents files task cause) ∨ CannotOpen files words) ∧
      ∃ text, Reports files words o task text ∧
        IsDelivered files words text (run files words)) := by
  have hends := ends_perform (w := World.initial files) task o words rfl
  cases hrun : (perform World.host task o words).run.run (.initial files) with
  | mk result w =>
    rw [hrun] at hends
    cases hends with
    | prevented hcause hconsole hfiles =>
      rw [run_eq_failed hrequest hrun]
      refine .inl ⟨?_, hconsole, hfiles, .inl ⟨_, hcause⟩⟩
      cases hcause <;> exact Nat.one_ne_zero
    | unopened hdest hcreate hconsole hfiles =>
      rw [run_eq_failed hrequest hrun]
      have hcannot := (cannotOpen_iff hrequest).mpr ⟨_, hdest, hcreate⟩
      exact .inl ⟨Nat.one_ne_zero, hconsole, hfiles, .inr hcannot⟩
    | untold htask hnot hopens htrees htexts =>
      subst htask
      have hcan := hopens.not_cannotOpen hrequest
      exact absurd ⟨_, o, hrequest, htrees, hnot, hcan, htexts⟩ hwords
    | reported hreports hopens hholds =>
      rw [run_eq_done hrequest hrun]
      refine .inr ⟨rfl, ?_, _, hreports, hopens.isDelivered hrequest hholds _⟩
      rw [not_or]
      exact ⟨hreports.not_prevents, hopens.not_cannotOpen hrequest⟩

/-- A log that nothing but a word keeps from being written has its output opened, and
nothing is in it. -/
theorem exists_opensAs_of_isUntold (h : IsUntold files words) :
    (run files words).exitCode ≠ 0 ∧ ∃ path o output,
      Request.ofWords words = .perform (.analyse path) o ∧
      OpensAs files (Destination.of o.output) output ∧
      Holds files "" (run files words).world output := by
  obtain ⟨path, o, hrequest, htrees, hprevents, hopens, htexts⟩ := h
  have hends := ends_perform (w := World.initial files) (.analyse path) o words rfl
  cases hrun : (perform World.host (.analyse path) o words).run.run (.initial files) with
  | mk result w =>
    rw [hrun] at hends
    cases hends with
    | prevented hcause => exact absurd ⟨_, hcause⟩ hprevents
    | unopened hdest hclosed =>
      exact absurd ((cannotOpen_iff hrequest).mpr ⟨_, hdest, hclosed⟩) hopens
    | reported hreports =>
      cases hreports with
      | dump _ _ hlines => simp [htrees] at hlines
      | log _ _ _ hlog =>
        cases hlog with
        | mk _ _ _ _ htold => exact absurd ⟨_, htold⟩ htexts
    | untold _ _ hown _ _ hholds =>
      rw [run_eq_failed hrequest hrun]
      exact ⟨by simp [Outcome.exitCode, Ending.exitCode, Failure.exitCode], path, o, _, hrequest,
        hown, hholds⟩

/-- Files of which a command is run in the folder that holds a folder `in`. -/
def workFiles (entries : List (OsText × FileTree)) : FileSystem :=
  ⟨.folder .free [(.ofString "in", .folder .free entries)], []⟩

theorem find?_workFiles (entries : List (OsText × FileTree)) :
    (workFiles entries).find? (.ofString "in") = some (.folder .free entries) := by
  rfl

/-- Words that name as the output a file in the folder that is the input. -/
def overwritingWords : List OsText :=
  ["--input", "in", "--output=./in/a.class"].map .ofString

/-- A class file. -/
def soundFiles : List (OsText × FileTree) :=
  [(.ofString "a.class", .file .free ⟨Archive.tinyClass.toArray⟩)]

/-- The class file, and one that says nothing. -/
def spoiltFiles : List (OsText × FileTree) :=
  [(.ofString "a.class", .file .free ⟨Archive.tinyClass.toArray⟩),
    (.ofString "b.class", .file .free .empty)]

/-- The scan of the one does not fail, that of the other does. -/
theorem failure_soundFiles :
    (findingsAt (workFiles soundFiles) (.ofString "in")).failure = none ∧
      ∃ cause, (findingsAt (workFiles spoiltFiles) (.ofString "in")).failure = some cause := by
  obtain ⟨loaded, hload, -⟩ := Scan.exists_load_tinyClass
  have hsound : Scan.Walks (PathText.under (.ofString "in") (.ofString "a.class"),
      .file .free ⟨Archive.tinyClass.toArray⟩) ⟨[.classFile ⟨_, 31, loaded⟩], none⟩ :=
    .file (.classFile (by decide) (by decide) rfl hload)
  have hspoilt : Scan.Walks (PathText.under (.ofString "in") (.ofString "b.class"),
      .file .free .empty) ⟨[], some _⟩ :=
    .file (.malformed (by decide) (by decide) rfl rfl)
  have hascending : soundFiles.Pairwise fun e e' => e.1 < e'.1 := by decide
  have hascending' : spoiltFiles.Pairwise fun e e' => e.1 < e'.1 := by decide
  have hfailure {entries : List (OsText × FileTree)} {v : Scan.Visit Scan.Failure Scan.Source}
      (hwell : (FileTree.folder .free entries).WellNamed)
      (hwalks : Scan.Walks (.ofString "in", .folder .free entries) v) :
      (findingsAt (workFiles entries) (.ofString "in")).failure = v.failure := by
    rw [findingsAt, find?_workFiles, Scan.scan_of_folder rfl, (Scan.walks_iff hwell).mp hwalks]
  have hwell : (FileTree.folder .free soundFiles).WellNamed :=
    FileTree.wellNamed_of_files (by decide) (by decide)
  have hwell' : (FileTree.folder .free spoiltFiles).WellNamed :=
    FileTree.wellNamed_of_files (by decide) (by decide)
  exact ⟨hfailure hwell (.folder rfl (.refl _) hascending (.passed hsound .done)),
    _, hfailure hwell' (.folder rfl (.refl _) hascending' (.passed hsound (.failed hspoilt)))⟩

/-- Words that name an output, and the name is no text. -/
def untoldWords : List OsText :=
  [.ofString "--input", .ofString "in", .ofString "--output", [0xff]]

/-- Words that name a device as the output. -/
def printingWords : List OsText :=
  [.ofString "--list-patterns", .ofString "--output", .ofString "/dev/stdout"]

/-- Files with a device that prints. -/
def printingFiles : FileSystem :=
  ⟨.folder .free [(.ofString "dev", .folder .free [(.ofString "stdout", .device .console)])], []⟩

theorem ofWords_untoldWords : Request.ofWords untoldWords = .perform (.analyse (.ofString "in"))
    { input := some (.ofString "in"), output := some [0xff] } := by
  decide

theorem place?_untold : (workFiles []).place? [0xff] = some [[0xff]] := by
  decide

theorem isUntold_untoldWords : IsUntold (workFiles []) untoldWords := by
  have hfailure : (findingsAt (workFiles []) (.ofString "in")).failure = none := by
    rw [findingsAt, find?_workFiles, Scan.scan_of_folder rfl, Scan.visitTree_folder rfl]
    simp [FileTree.sortByName, Scan.Visit.all, Scan.Visit.nothing]
  refine ⟨_, _, ofWords_untoldWords, rfl,
    not_prevents_iff.mpr ⟨by simp [find?_workFiles], hfailure⟩,
    not_cannotOpen ofWords_untoldWords rfl place?_untold (.new rfl rfl rfl), ?_⟩
  rintro ⟨texts, htexts⟩
  have hnone : untoldWords.mapM OsText.text? = none := by decide
  rw [mapM_text?_eq_some_iff.mpr htexts] at hnone
  cases hnone

end Command

end ClassLens
