/-
Results: a log has one result for each method and each pattern it shows.

The log of a context is made from names, and names are all that an analysis
gives. That a name leads back to one pattern, and so to one rule, is what the
distinct names of a catalogue are for; that a name belongs to this method and to
no other is what the analysis answers for, whatever the context was asked
before. With both, the results are a function of the methods and the catalogue
(`resultsOf`), and what is to be said of them is said of that function.

Two steps stand in between. The loop that counts names comes to the distinct names with
their counts (`tally_eq`), and methods meet their own matches because both are in the
order of the context.
-/
import ClassLens.Report.Sarif
import ClassLens.Proofs.Context.Answers
import ClassLens.Proofs.Pattern.Matching

set_option autoImplicit false

namespace ClassLens

/-- Whether a method shows the pattern, itself or by one of its instructions. -/
def Pattern.isShownBy (p : Pattern) (m : Method) : Bool :=
  match p.matcher with
  | .method holds => holds m
  | .instruction holds => m.instructions.any holds

/-- A pattern is one of methods or one of instructions, so only one of the two
ways to show it is open. -/
theorem Pattern.ite_isShownBy (p : Pattern) (m : Method) :
    (if p.isShownBy m then 1 else 0) =
      (if p.holdsFor m then 1 else 0) + if m.instructions.any p.holdsAt then 1 else 0 := by
  obtain ⟨_, _, _, matcher⟩ := p
  cases matcher with
  | method holds => cases h : holds m <;> simp [isShownBy, holdsFor, holdsAt, h]
  | instruction holds => simp [isShownBy, holdsFor, holdsAt]

namespace Report

/-! ## Counting names -/

/-- One more name is distinct from the others, or is one of them. -/
theorem eraseDups_append_singleton (names : List String) (name : String) :
    (names ++ [name]).eraseDups =
      if name ∈ names then names.eraseDups else names.eraseDups ++ [name] := by
  have hone : [name].eraseDups = [name] := eraseDups_of_nodup (List.nodup_singleton name)
  rw [List.eraseDups_append]
  by_cases h : name ∈ names <;> simp [List.removeAll, h, hone]

/-- What a name has is changed where the name stands. -/
theorem modify_idxOf_eq_map {names : List String} (hn : names.Nodup) (count : String → Nat)
    (name : String) :
    (names.map fun own => (own, count own)).modify (names.idxOf name) (fun c => (c.1, c.2 + 1)) =
      names.map fun own => (own, if own = name then count own + 1 else count own) := by
  induction names with
  | nil => rfl
  | cons first names ih =>
    rw [List.nodup_cons] at hn
    rw [List.map_cons, List.map_cons, List.idxOf_cons]
    by_cases hfirst : first = name
    · have hrest : ∀ own ∈ names, own ≠ name := fun own hown heq => hn.1 (hfirst ▸ heq ▸ hown)
      simpa [hfirst] using hrest
    · rw [beq_false_of_ne hfirst, cond_false, List.modify_succ_cons, ih hn.2, if_neg hfirst]

/-- A tally has counted some names: each distinct one stands at its place among
them, with the number of its occurrences. -/
structure Tally.Counts (t : Tally) (names : List String) : Prop where
  counts : t.counts.toList = names.eraseDups.map fun name => (name, names.count name)
  firstSeen : ∀ name, t.firstSeen[name]? =
    if name ∈ names then some (names.eraseDups.idxOf name) else none

theorem Tally.counts_empty : Tally.empty.Counts [] :=
  ⟨rfl, fun name => by simp [empty]⟩

/-- A name that is about to be counted stands at its place among the distinct names.
Nothing more is counted yet. -/
theorem Tally.Counts.position {t : Tally} {names : List String} (h : t.Counts names)
    (name : String) :
    (t.position name).1 = (names ++ [name]).eraseDups.idxOf name ∧
    (t.position name).2.counts.toList =
      (names ++ [name]).eraseDups.map (fun own => (own, names.count own)) ∧
    ∀ own, (t.position name).2.firstSeen[own]? =
      if own ∈ names ++ [name] then some ((names ++ [name]).eraseDups.idxOf own) else none := by
  rw [Tally.position, h.firstSeen, eraseDups_append_singleton]
  by_cases hmem : name ∈ names
  · simp only [if_pos hmem]
    refine ⟨trivial, h.counts, fun own => ?_⟩
    have hown : own ∈ names ++ [name] ↔ own ∈ names := by
      simp +contextual [or_iff_left_iff_imp, hmem]
    rw [h.firstSeen]
    simp only [hown]
  · simp only [if_neg hmem]
    -- the new name stands behind the distinct ones, which are as many as the counts
    have hsize : t.counts.size = names.eraseDups.length := by
      rw [← Array.length_toList, h.counts, List.length_map]
    have hnew : name ∉ names.eraseDups := mt List.mem_eraseDups.mp hmem
    refine ⟨?_, ?_, fun own => ?_⟩
    · simp [List.idxOf_append, hnew, hsize]
    · rw [Array.toList_push, h.counts, List.map_append, List.map_singleton,
        List.count_eq_zero.mpr hmem]
    · rw [Std.HashMap.getElem?_insert, h.firstSeen]
      by_cases hown : own = name
      · simp [hown, List.idxOf_append, hnew, hsize]
      · have hne : ¬ name = own := Ne.symm hown
        by_cases hin : own ∈ names
        · simp [hne, hin, List.idxOf_append]
        · simp [hown, hne, hin]

/-- What a tally has counted grows by the name that is counted. -/
theorem Tally.Counts.add {t : Tally} {names : List String} (h : t.Counts names) (name : String) :
    (t.add name).Counts (names ++ [name]) := by
  obtain ⟨hposition, hcounts, hseen⟩ := h.position name
  refine ⟨?_, hseen⟩
  rw [Tally.add]
  simp only
  rw [Array.toList_modify, hcounts, hposition, modify_idxOf_eq_map (nodup_eraseDups _)]
  refine List.map_congr_left fun own _ => ?_
  rw [List.count_append]
  by_cases hown : own = name
  · simp [hown]
  · simp [hown, Ne.symm hown]

/-- The loop counts every name: it gives the distinct names in the order they first
occur in, each with the number of its occurrences. -/
theorem tally_eq (names : List String) :
    tally names = names.eraseDups.map fun name => (name, names.count name) := by
  have hcounts : (names.foldl Tally.add .empty).Counts names := by
    induction names using List.reverseRecOn with
    | nil => exact Tally.counts_empty
    | append_singleton names name ih =>
      rw [List.foldl_append]
      exact ih.add name
  exact hcounts.counts

/-! ## The results of a method -/

/-- The result of a pattern of methods. -/
def methodEntry (m : Method) (p : Pattern) : LogEntry :=
  ⟨p.name, m.key ++ " is " ++ p.name, m.key⟩

/-- The result of a pattern of instructions, with the number of instructions
that show it. -/
def instructionEntry (m : Method) (p : Pattern) : LogEntry :=
  ⟨p.name, m.key ++ " is " ++ p.name ++ " (" ++ toString (m.instructions.countP p.holdsAt) ++
    " matching instructions)", m.key⟩

/-- The results that a method is owed: the patterns of methods that it shows in
catalogue order, then the patterns of instructions in the order its instructions
first show them in. -/
def resultsOf (cat : Catalog) (m : Method) : List LogEntry :=
  (cat.patterns.filter (·.holdsFor m)).map (methodEntry m) ++
    (cat.firstShown m.instructions).map (instructionEntry m)

variable {cat : Catalog} {m : Method} {p : Pattern}

/-- The tally has the patterns that are shown, each with the number of
instructions that show it. -/
theorem tally_matchAdvanced (cat : Catalog) (m : Method) :
    tally (cat.matchAdvanced m) =
      (cat.firstShown m.instructions).map fun p => (p.name, m.instructions.countP p.holdsAt) := by
  rw [tally_eq, Catalog.matchAdvanced]
  have hnames := cat.eraseDups_flatMap_namesAt m.instructions
  unfold Catalog.namesAt at hnames
  rw [hnames, List.map_map]
  refine List.map_congr_left fun p hp => ?_
  have hmem := (Catalog.mem_firstShown_iff m.instructions).mp hp
  exact congrArg (p.name, ·) (Catalog.count_flatMap_namesAt hmem.1 m.instructions)

theorem methodResults_freshMatches (c : Context) (m : Method) :
    methodResults m (c.freshMatches m) = resultsOf c.catalog m := by
  rw [methodResults, Context.freshMatches, tally_matchAdvanced, Catalog.matchSimple, List.map_map,
    List.map_map]
  rfl

theorem map_ruleId_resultsOf (cat : Catalog) (m : Method) :
    (resultsOf cat m).map (·.ruleId) =
      (cat.patterns.filter (·.holdsFor m)).map (·.name) ++
        (cat.firstShown m.instructions).map (·.name) := by
  rw [resultsOf, List.map_append, List.map_map, List.map_map]
  rfl

/-- A method has one result for each pattern that it shows, and none for the
others. -/
theorem count_ruleId_resultsOf (hp : p ∈ cat.patterns) (m : Method) :
    ((resultsOf cat m).map (·.ruleId)).count p.name = if p.isShownBy m then 1 else 0 := by
  rw [map_ruleId_resultsOf, List.count_append, Catalog.count_name hp, Catalog.count_firstShown hp,
    Pattern.ite_isShownBy]

/-- No result is for a rule that is not in the catalogue. -/
theorem ruleId_mem_names {e : LogEntry} (he : e ∈ resultsOf cat m) :
    e.ruleId ∈ cat.patterns.map (·.name) := by
  have hid : e.ruleId ∈ (resultsOf cat m).map (·.ruleId) := List.mem_map_of_mem he
  rw [map_ruleId_resultsOf, List.mem_append] at hid
  rcases hid with hid | hid
  · exact (List.filter_sublist.map _).subset hid
  · obtain ⟨p, hp, hname⟩ := List.mem_map.mp hid
    exact List.mem_map.mpr ⟨p, ((Catalog.mem_firstShown_iff _).mp hp).1, hname⟩

/-! ## The log -/

/-- The log is what the methods of a context and its catalogue call for. -/
structure Log.IsExact (c : Context) (l : Log) : Prop where
  /-- There is a rule for each pattern. -/
  rules : l.rules = c.catalog.patterns.map rule
  /-- The results are those of each method in class and declaration order. -/
  results : l.results = c.methods.flatMap (resultsOf c.catalog)
  /-- Each result names exactly one rule. -/
  one_rule : ∀ e ∈ l.results, (l.rules.map (·.name)).count e.ruleId = 1
  /-- Each method has one result for each pattern that it shows, and none for
  the others. -/
  one_result : ∀ m ∈ c.methods, ∀ p ∈ c.catalog.patterns,
    ((resultsOf c.catalog m).map (·.ruleId)).count p.name = if p.isShownBy m then 1 else 0

theorem gives_log (c : Context) (artifacts : List Json) (invocation : Invocation) :
    Gives c (log c artifacts invocation)
      ⟨artifacts, invocation, c.methods.flatMap (resultsOf c.catalog),
        c.catalog.patterns.map rule⟩ := by
  -- Methods and matches are in step, so each method meets its own matches.
  have hresults : (c.methods.zip (c.methods.map c.freshMatches)).flatMap
      (fun p => methodResults p.1 p.2) = c.methods.flatMap (resultsOf c.catalog) := by
    rw [← List.map_prod_left_eq_zip, List.flatMap_map]
    exact List.flatMap_congr fun m _ => methodResults_freshMatches c m
  rw [← hresults]
  exact c.gives_analyze.bind (.pure _)

theorem isExact_resultsOf (c : Context) (artifacts : List Json) (invocation : Invocation) :
    Log.IsExact c ⟨artifacts, invocation, c.methods.flatMap (resultsOf c.catalog),
      c.catalog.patterns.map rule⟩ := by
  constructor
  case rules => rfl
  case results => rfl
  case one_rule =>
    have hnames : (c.catalog.patterns.map rule).map (·.name) = c.catalog.patterns.map (·.name) := by
      rw [List.map_map]
      rfl
    intro e he
    obtain ⟨m, -, hem⟩ := List.mem_flatMap.mp he
    rw [hnames]
    exact List.count_eq_one_of_mem c.catalog.names_nodup (ruleId_mem_names hem)
  case one_result => exact fun m _ p hp => count_ruleId_resultsOf hp m

/-- The log of a context that was asked some questions before. -/
def logAfter (c : Context) (before : List (Context.Question c)) (artifacts : List Json)
    (invocation : Invocation) : Log :=
  let cache := ((c.askAll before).run MatchCache.empty).2
  ((log c artifacts invocation).run cache).1

/-- Whatever the classes and the catalogue of a context are, and whatever it was
asked before, its log is exact. A catalogue cannot be had without distinct
names, be it the built-in or the empty one or either with patterns registered,
so nothing is asked of it here. -/
theorem isExact_logAfter (c : Context) (before : List (Context.Question c))
    (artifacts : List Json) (invocation : Invocation) :
    (logAfter c before artifacts invocation).IsExact c := by
  have hcache : ((c.askAll before).run MatchCache.empty).2.Faithful c :=
    (Context.gives_askAll before _ (MatchCache.faithful_empty c)).2
  rw [logAfter, (gives_log c artifacts invocation _ hcache).1]
  exact isExact_resultsOf c artifacts invocation

/-- Methods of one key keep their own results. -/
theorem results_twins :
    (logAfter Context.twins [.findSimple (.inside ⟨1, 0⟩ (Context.twin (some 1)) rfl) true] []
        ⟨[], none⟩).results.map (·.message) =
      ["Twin.value()I is Bodiless", "Twin.value()I is Literal (1 matching instructions)"] := by
  rw [(isExact_logAfter Context.twins _ _ _).results]
  decide

end Report

end ClassLens
