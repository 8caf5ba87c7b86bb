/-
Accounts: the dump of a context has every method once and, below a method,
every instruction once.

What a method is owed is said by `Entry`: the lines that the dump has for it, of
which there are two forms, and the warnings it gives. `Entries` is the same for
methods in a row. A text is compared with lines by cutting it at its line feeds,
which works because no line has one inside. That is where the names come in: they
are the one part of a line that is not the library's own.

The outline goes through a text as well. It is written line by line, cut into
lines again and indented, and its lines are those it was written from
(`outlineLines_eq`).
-/
import ClassLens.Report.Dump
import ClassLens.Proofs.Forest.Outline
import ClassLens.Proofs.Forest.Wording

set_option autoImplicit false

namespace ClassLens.Report

open Text (IsLine)

variable {m : Method} {f : Forest}

/-! ## What is owed -/

/-- The outline of a tree as it stands under the method. -/
def outlineLines (f : Forest) (root : Nat) : List String :=
  (Text.lines (f.outline root)).map ("  " ++ ·)

/-- The line of a tree as an expression, if the tree has a rendering. -/
def sourceLine? (f : Forest) (root : Nat) : Option String :=
  (f.decompile root).toOption.map ("  = " ++ ·)

/-- The lines that a dump has for a method and the warnings that it gives for
it. A method without a forest has its error under the key and gives one
warning. Any other method has the outlines of its trees there, each with the
expression right behind it if there is one: as many outline lines as it has
instructions, and without the indentation they say what the instructions say,
each once. -/
inductive Entry (m : Method) : List String → List String → Prop where
  | failed (e : AssemblyError) (h : Forest.assemble m = .error e) :
      Entry m [m.key, "  ! " ++ e.message] ["skipping " ++ m.key ++ ": " ++ e.message]
  | assembled (f : Forest) (h : Forest.assemble m = .ok f)
      (count : (f.roots.flatMap (outlineLines f)).length = m.instructions.length)
      (same : ((f.roots.flatMap (outlineLines f)).map Text.unindented).Perm
        (m.instructions.map (·.headline))) :
      Entry m
        (m.key :: f.roots.flatMap fun r => outlineLines f r ++ (sourceLine? f r).toList) []

/-- The lines and the warnings of methods in a row. -/
inductive Entries : List Method → List String → List String → Prop where
  | nil : Entries [] [] []
  | cons {m : Method} {ms : List Method} {ls ls' warnings warnings' : List String}
      (head : Entry m ls warnings) (tail : Entries ms ls' warnings') :
      Entries (m :: ms) (ls ++ ls') (warnings ++ warnings')

/-! ## The lines of an outline -/

/-- A line of an outline ends in a parenthesis, so no carriage return is dropped
from it. -/
theorem getLast?_lineAt {p : Nat × Nat} (hp : p.1 < f.size) :
    (f.lineAt p).toList.getLast? = some ')' := by
  obtain ⟨n, -, hheadline⟩ := f.exists_headline_eq hp
  rw [Forest.lineAt, hheadline, String.toList_append, List.getLast?_append,
    n.instruction.getLast?_headline]
  rfl

theorem lt_size_of_mem_tree (hf : Forest.assemble m = .ok f) {r : Nat} (hr : r ∈ f.roots)
    {p : Nat × Nat} (hp : p ∈ f.preorderTree r 0) : p.1 < f.size :=
  f.lt_size_of_mem_preorderTree (Forest.lt_size_of_mem_roots hf hr) hp

/-- The lines of a root's outline are those it was written from. -/
theorem outlineLines_eq (hnames : ∀ name ∈ m.names, IsLine name)
    (hf : Forest.assemble m = .ok f) {r : Nat} (hr : r ∈ f.roots) :
    outlineLines f r = (f.preorderTree r 0).map fun p => "  " ++ f.lineAt p := by
  have hlines : ∀ l ∈ (f.preorderTree r 0).map f.lineAt,
      IsLine l ∧ l.toList.getLast? ≠ some '\r' := by
    intro l hl
    obtain ⟨p, hp, rfl⟩ := List.mem_map.mp hl
    have hlt := lt_size_of_mem_tree hf hr hp
    exact ⟨Forest.isLine_lineAt hnames hf hlt, by rw [getLast?_lineAt hlt]; decide⟩
  rw [outlineLines, Forest.outline_eq_join f (Forest.lt_size_of_mem_roots hf hr),
    Text.lines_join_map_ended (fun l hl => (hlines l hl).1) fun l hl => (hlines l hl).2,
    List.map_map]
  rfl

theorem unindented_lineAt {p : Nat × Nat} (hp : p.1 < f.size) :
    Text.unindented ("  " ++ f.lineAt p) = f.headline p.1 := by
  have hindent : "  " ++ f.lineAt p =
      String.ofList (List.replicate (2 * p.2 + 2) ' ') ++ f.headline p.1 := by
    apply String.toList_inj.mp
    simp [Forest.lineAt, List.replicate_succ]
  rw [hindent, Text.unindented_append _ (f.head?_headline_ne hp)]

/-- Without the indentation the outline lines of a method say what its
instructions say, each once. -/
theorem unindented_outlineLines_perm (hnames : ∀ name ∈ m.names, IsLine name)
    (hf : Forest.assemble m = .ok f) :
    ((f.roots.flatMap (outlineLines f)).map Text.unindented).Perm
      (m.instructions.map (·.headline)) := by
  have htree (r : Nat) (hr : r ∈ f.roots) : (outlineLines f r).map Text.unindented =
      (f.preorderTree r 0).map fun p => f.headline p.1 := by
    rw [outlineLines_eq hnames hf hr, List.map_map]
    exact List.map_congr_left fun p hp =>
      unindented_lineAt (lt_size_of_mem_tree hf hr hp)
  rw [List.map_flatMap, List.flatMap_congr htree, ← List.map_flatMap]
  exact Forest.headlines_perm hf

/-! ## Methods -/

theorem treeLines_eq (f : Forest) (root : Nat) :
    treeLines f root = outlineLines f root ++ (sourceLine? f root).toList := by
  rw [treeLines, outlineLines, sourceLine?]
  cases f.decompile root <;> rfl

theorem entry_methodLines (hnames : ∀ name ∈ m.names, IsLine name) :
    Entry m (methodLines m) (methodWarning? m).toList := by
  cases hf : Forest.assemble m with
  | error e =>
    rw [methodLines, methodWarning?, hf]
    exact .failed e hf
  | ok f =>
    have hsame := unindented_outlineLines_perm hnames hf
    have hcount : (f.roots.flatMap (outlineLines f)).length = m.instructions.length := by
      simpa only [List.length_map] using hsame.length_eq
    rw [methodLines, methodWarning?, hf]
    simp only [funext (treeLines_eq f)]
    exact .assembled f hf hcount hsame

theorem isLine_of_mem_outlineLines (hnames : ∀ name ∈ m.names, IsLine name)
    (hf : Forest.assemble m = .ok f) {r : Nat} (hr : r ∈ f.roots) {l : String}
    (hl : l ∈ outlineLines f r) : IsLine l := by
  rw [outlineLines_eq hnames hf hr] at hl
  obtain ⟨p, hp, rfl⟩ := List.mem_map.mp hl
  have hline := Forest.isLine_lineAt hnames hf (lt_size_of_mem_tree hf hr hp)
  exact Text.isLine_append.mpr ⟨by decide, hline⟩

theorem isLine_sourceLine (hnames : ∀ name ∈ m.names, IsLine name)
    (hf : Forest.assemble m = .ok f) {r : Nat} {l : String} (hl : sourceLine? f r = some l) :
    IsLine l := by
  rw [sourceLine?] at hl
  cases hdecompile : f.decompile r with
  | error e => simp [hdecompile, Except.toOption] at hl
  | ok source =>
    have hsource : IsLine source := Forest.isLine_decompile
      (fun id n hn name hname => hnames name (Forest.mem_names_assemble hf hn hname)) hdecompile
    rw [hdecompile] at hl
    rw [← Option.some.inj hl]
    exact Text.isLine_append.mpr ⟨by decide, hsource⟩

/-- Every line that a method has in a dump is one line. -/
theorem isLine_of_mem_methodLines (hnames : ∀ name ∈ m.names, IsLine name) {l : String}
    (hl : l ∈ methodLines m) : IsLine l := by
  rw [methodLines] at hl
  rcases List.mem_cons.mp hl with rfl | hbody
  · exact m.isLine_key hnames
  · cases hf : Forest.assemble m with
    | error e =>
      rw [hf] at hbody
      rw [List.mem_singleton.mp hbody]
      exact Text.isLine_append.mpr ⟨by decide, e.isLine_message⟩
    | ok f =>
      rw [hf] at hbody
      obtain ⟨r, hr, htree⟩ := List.mem_flatMap.mp hbody
      rw [treeLines_eq] at htree
      rcases List.mem_append.mp htree with houtline | hsource
      · exact isLine_of_mem_outlineLines hnames hf hr houtline
      · exact isLine_sourceLine hnames hf (Option.mem_toList.mp hsource)

theorem entries_methodLines {ms : List Method}
    (hnames : ∀ m ∈ ms, ∀ name ∈ m.names, IsLine name) :
    Entries ms (ms.flatMap methodLines) (ms.filterMap methodWarning?) := by
  induction ms with
  | nil => exact .nil
  | cons m ms ih =>
    rw [List.forall_mem_cons] at hnames
    have hwarnings : (m :: ms).filterMap methodWarning? =
        (methodWarning? m).toList ++ ms.filterMap methodWarning? := by
      rw [List.filterMap_cons]
      cases methodWarning? m <;> rfl
    rw [List.flatMap_cons, hwarnings]
    exact .cons (entry_methodLines hnames.1) (ih hnames.2)

/-! ## The dump -/

theorem toList_dump (c : Context) :
    (dump c).toList = (c.methods.flatMap methodLines).flatMap fun l => l.toList ++ ['\n'] := by
  -- Generalised over the text written before.
  have hfold (ls : List String) (text : String) :
      (ls.foldl (fun text line => text ++ line ++ "\n") text).toList =
        text.toList ++ ls.flatMap fun l => l.toList ++ ['\n'] := by
    induction ls generalizing text with
    | nil => simp
    | cons l ls ih => simp [ih]
  rw [dump, hfold]
  rfl

/-- The dump accounts for every method and every instruction once. Cut at its
line feeds, it is the lines owed to the methods of the context in class and
declaration order, and the warnings are those owed to them in that order. -/
theorem dump_accounts {c : Context}
    (hnames : ∀ m ∈ c.methods, ∀ name ∈ m.names, IsLine name) :
    ∃ ls, (dump c).toList.splitOn '\n' = ls.map String.toList ++ [[]] ∧
      Entries c.methods ls (dumpWarnings c) := by
  refine ⟨c.methods.flatMap methodLines, ?_, entries_methodLines hnames⟩
  rw [toList_dump, Text.splitOn_flatMap_ended]
  intro l hl
  obtain ⟨m, hm, hline⟩ := List.mem_flatMap.mp hl
  exact isLine_of_mem_methodLines (hnames m hm) hline

/-- A static method that keeps a literal with a line feed in it and returns. -/
def greetMethod : Method where
  owner := "Sample"
  name := "greet"
  descriptor := "()V"
  access := { isPublic := true, isStatic := true, isAbstract := false }
  instructions :=
    [⟨0, 0, 0x12, .constant (.string "a\nb")⟩, ⟨1, 2, 0x4b, .slot 0⟩, ⟨2, 3, 0xb1, .plain⟩]
  handlers := []

/-- A static method that drops a value before there is one. -/
def dropMethod : Method where
  owner := "Sample"
  name := "drop"
  descriptor := "()V"
  access := { isPublic := true, isStatic := true, isAbstract := false }
  instructions := [⟨0, 0, 0x57, .plain⟩]
  handlers := []

/-- A class with a method that has a forest and one that has none. -/
def greetings : Context :=
  Context.make [⟨"Sample", none, [greetMethod, dropMethod]⟩] Catalog.empty

theorem dump_accounts_greetings :
    (∀ m ∈ greetings.methods, ∀ name ∈ m.names, IsLine name) ∧
    ∃ f, Forest.assemble greetMethod = .ok f ∧
      (dump greetings).toList.splitOn '\n' =
        ("Sample.greet()V" ::
          (f.roots.flatMap fun r => outlineLines f r ++ (sourceLine? f r).toList) ++
          ["Sample.drop()V", "  ! " ++
            "stack underflow at instruction 0 (offset 0, pop): requires 1 operands, 0 available"]
          ).map String.toList ++ [[]] ∧
      ((f.roots.flatMap (outlineLines f)).map Text.unindented).Perm
        ["ldc \"a\\nb\" (nullary)", "astore_0 0 (unary)", "return (nullary)"] ∧
      dumpWarnings greetings = ["skipping " ++ "Sample.drop()V" ++ ": " ++
        "stack underflow at instruction 0 (offset 0, pop): requires 1 operands, 0 available"] := by
  have hnames : ∀ m ∈ greetings.methods, ∀ name ∈ m.names, IsLine name := by decide
  refine ⟨hnames, ?_⟩
  obtain ⟨ls, hls, hentries⟩ := dump_accounts hnames
  obtain ⟨f, hf⟩ : ∃ f, Forest.assemble greetMethod = .ok f := ⟨_, rfl⟩
  have hdrop : Forest.assemble dropMethod = .error (.underflow ⟨0, 0, 0x57, .plain⟩ 1 0) := rfl
  have hkey : greetMethod.key = "Sample.greet()V" := by decide +kernel
  have hdropKey : dropMethod.key = "Sample.drop()V" := by decide +kernel
  have hmessage : (AssemblyError.underflow ⟨0, 0, 0x57, .plain⟩ 1 0).message =
      "stack underflow at instruction 0 (offset 0, pop): requires 1 operands, 0 available" := by
    decide +kernel
  have hheadlines : greetMethod.instructions.map (·.headline) =
      ["ldc \"a\\nb\" (nullary)", "astore_0 0 (unary)", "return (nullary)"] := by decide +kernel
  have hmethods : greetings.methods = [greetMethod, dropMethod] := rfl
  rw [hmethods] at hentries
  generalize dumpWarnings greetings = warnings at hentries ⊢
  rcases hentries with _ | ⟨hgreet, hrest⟩
  rcases hrest with _ | ⟨hdropped, hnil⟩
  cases hnil
  -- Each method has one of the two forms of an entry, and the other does not fit it.
  cases hgreet with
  | failed e he => rw [hf] at he; cases he
  | assembled f' hf' hcount hsame =>
    cases hdropped with
    | assembled g hg => rw [hdrop] at hg; cases hg
    | failed e he =>
      rw [hdrop, Except.error.injEq] at he
      subst he
      rw [hkey, hdropKey, hmessage] at hls
      rw [hheadlines] at hsame
      rw [hdropKey, hmessage]
      exact ⟨f', hf', hls, hsame, rfl⟩

end ClassLens.Report
