/-
Registration: what a new pattern changes, and what it leaves alone.

A catalogue is kept by its owner and grows by register calls, some of which are
refused. After any calls its names are those it began with and those that were
called for, each once and in the order they first came (`names_afterCalls`). So
a name that is found later is that of the first pattern that asked for it.

A pattern that is taken comes last and so can only add to the answers. To those
of methods it adds its name at the end. To those of instructions it adds its name
in many places, one for each instruction that shows it; without them the answer
is what it was.
-/
import ClassLens.Pattern.Builtin
import ClassLens.Proofs.Pattern.Matching

set_option autoImplicit false

namespace ClassLens

namespace Catalog

/-! ## Register calls -/

/-- Registers a pattern in a catalogue that its owner keeps, refused or not. -/
def registerCall (p : Pattern) : ExceptT DuplicatePattern (StateM Catalog) Unit := do
  let c ← get
  match c.register p with
  | .ok next => set next
  | .error e => throw e

/-- The catalogue after some register calls, of which some may be refused. -/
def afterCalls (c : Catalog) (calls : List Pattern) : Catalog :=
  calls.foldl (fun c p => ((registerCall p).run.run c).2) c

variable {c d : Catalog} {p : Pattern}

theorem register_of_mem (h : p.name ∈ c.names) : c.register p = .error ⟨p.name⟩ :=
  dif_pos h

theorem exists_register_of_not_mem (h : p.name ∉ c.names) :
    ∃ d, c.register p = .ok d ∧ d.patterns = c.patterns ++ [p] :=
  ⟨_, dif_neg h, rfl⟩

theorem run_registerCall (p : Pattern) (c : Catalog) :
    (registerCall p).run.run c =
      match c.register p with
      | .ok next => (.ok (), next)
      | .error e => (.error e, c) := by
  show ((match c.register p with
    | .ok next => set next
    | .error e => throw e : ExceptT DuplicatePattern (StateM Catalog) Unit)).run.run c = _
  cases c.register p <;> rfl

/-- A pattern under a name that is there is refused, and the catalogue is as it
was. -/
theorem run_registerCall_of_mem (h : p.name ∈ c.names) :
    (registerCall p).run.run c = (.error ⟨p.name⟩, c) := by
  rw [run_registerCall, register_of_mem h]

/-- A pattern under a new name is taken, and comes last. -/
theorem exists_run_registerCall_of_not_mem (h : p.name ∉ c.names) :
    ∃ d, (registerCall p).run.run c = (.ok (), d) ∧ d.patterns = c.patterns ++ [p] := by
  obtain ⟨d, hd, hpatterns⟩ := exists_register_of_not_mem h
  exact ⟨d, by rw [run_registerCall, hd], hpatterns⟩

/-- After some calls the names are those from before and those called for, in
the order they first came. -/
theorem names_afterCalls (c : Catalog) (calls : List Pattern) :
    (c.afterCalls calls).names = (c.names ++ calls.map (·.name)).eraseDups := by
  induction calls generalizing c with
  | nil =>
    rw [List.map_nil, List.append_nil]
    exact (eraseDups_of_nodup c.names_nodup).symm
  | cons p calls ih =>
    have hstep : c.afterCalls (p :: calls) =
        ((registerCall p).run.run c).2.afterCalls calls := rfl
    rw [hstep, ih, List.map_cons]
    by_cases h : p.name ∈ c.names
    -- A name that is there already is dropped again behind the others.
    · have hdrop : (p.name :: calls.map (·.name)).removeAll c.names =
          (calls.map (·.name)).removeAll c.names := by
        rw [List.cons_removeAll]
        simp [h]
      rw [run_registerCall_of_mem h, List.eraseDups_append, List.eraseDups_append, hdrop]
    · obtain ⟨d, hd, hpatterns⟩ := exists_run_registerCall_of_not_mem h
      have hnames : d.names = c.names ++ [p.name] := by
        rw [names, hpatterns, List.map_append]
        rfl
      rw [hd, hnames, List.append_assoc]
      rfl

/-! ## A pattern more -/

/-- `d` is `c` with a pattern more, and answers as `c` does but for its name. -/
structure Extends (c : Catalog) (p : Pattern) (d : Catalog) : Prop where
  /-- The patterns from before keep their places, and the new one is last. -/
  patterns : d.patterns = c.patterns ++ [p]
  /-- The new one is what its name leads to. -/
  get : d.get? p.name = some p
  /-- A method shows what it showed before, and then the new pattern, if that is
  one of methods and holds. -/
  simple : ∀ m, d.matchSimple m = c.matchSimple m ++ if p.holdsFor m then [p.name] else []
  /-- No name is twice among those of a method. -/
  simple_nodup : ∀ m, (d.matchSimple m).Nodup
  /-- Without the new name its instructions show what they showed before. -/
  advanced : ∀ m, (d.matchAdvanced m).filter (· != p.name) = c.matchAdvanced m

theorem matchSimple_append (h : d.patterns = c.patterns ++ [p]) (m : Method) :
    d.matchSimple m = c.matchSimple m ++ if p.holdsFor m then [p.name] else [] := by
  rw [matchSimple, matchSimple, h, List.filter_append, List.map_append]
  congr 1
  by_cases hp : p.holdsFor m <;> simp [hp]

theorem namesAt_append (h : d.patterns = c.patterns ++ [p]) (i : Instruction) :
    d.namesAt i = c.namesAt i ++ if p.holdsAt i then [p.name] else [] := by
  rw [namesAt, namesAt, h, List.filter_append, List.map_append]
  congr 1
  by_cases hp : p.holdsAt i <;> simp [hp]

/-- The names that an instruction shows are those of patterns. -/
theorem namesAt_subset (c : Catalog) (i : Instruction) : c.namesAt i ⊆ c.names :=
  (List.filter_sublist.map _).subset

theorem filter_matchAdvanced (h : d.patterns = c.patterns ++ [p]) (hp : p.name ∉ c.names)
    (m : Method) : (d.matchAdvanced m).filter (· != p.name) = c.matchAdvanced m := by
  show (m.instructions.flatMap d.namesAt).filter (· != p.name) = m.instructions.flatMap c.namesAt
  rw [List.filter_flatMap]
  refine List.flatMap_congr fun i _ => ?_
  rw [namesAt_append h, List.filter_append]
  -- Names from before differ from the new one, so all of them stay.
  have hkept : (c.namesAt i).filter (· != p.name) = c.namesAt i := by
    refine List.filter_eq_self.mpr fun name hname => ?_
    have hne : name ≠ p.name := fun heq => hp (heq ▸ c.namesAt_subset i hname)
    simp [hne]
  have hnew : (if p.holdsAt i then [p.name] else []).filter (· != p.name) = [] := by
    by_cases hi : p.holdsAt i <;> simp [hi]
  rw [hkept, hnew, List.append_nil]

theorem get?_append (h : d.patterns = c.patterns ++ [p]) (hp : p.name ∉ c.names) :
    d.get? p.name = some p := by
  have hbefore : c.patterns.find? (·.name == p.name) = none := by
    refine List.find?_eq_none.mpr fun q hq heq => hp ?_
    exact List.mem_map.mpr ⟨q, hq, beq_iff_eq.mp heq⟩
  rw [get?, h, List.find?_append, hbefore]
  simp

theorem extends_of_patterns (h : d.patterns = c.patterns ++ [p]) (hp : p.name ∉ c.names) :
    Extends c p d where
  patterns := h
  get := get?_append h hp
  simple := matchSimple_append h
  simple_nodup := fun m => d.nodup_names (·.holdsFor m)
  advanced := filter_matchAdvanced h hp

/-- Whatever a catalogue begins with, be it the built-in patterns or none, and
whatever calls were made, its names are distinct. A further call is refused
exactly when there is a pattern of the name, and then changes nothing; otherwise
the catalogue is extended by the pattern. -/
theorem registerCall_conservative (base : Catalog) (calls : List Pattern) (p : Pattern) :
    (base.afterCalls calls).names = (base.names ++ calls.map (·.name)).eraseDups ∧
    (base.afterCalls calls).names.Nodup ∧
    ((∃ q ∈ (base.afterCalls calls).patterns, q.name = p.name) →
      (registerCall p).run.run (base.afterCalls calls) =
        (.error ⟨p.name⟩, base.afterCalls calls)) ∧
    ((¬ ∃ q ∈ (base.afterCalls calls).patterns, q.name = p.name) →
      ∃ d, (registerCall p).run.run (base.afterCalls calls) = (.ok (), d) ∧
        Extends (base.afterCalls calls) p d) := by
  have hpresent : (∃ q ∈ (base.afterCalls calls).patterns, q.name = p.name) ↔
      p.name ∈ (base.afterCalls calls).names := List.mem_map.symm
  rw [hpresent]
  refine ⟨names_afterCalls base calls, ?_, run_registerCall_of_mem, fun hp => ?_⟩
  · rw [names_afterCalls]
    exact nodup_eraseDups _
  · obtain ⟨d, hd, hpatterns⟩ := exists_run_registerCall_of_not_mem hp
    exact ⟨d, hd, extends_of_patterns hpatterns hp⟩

/-- Drops a value. -/
def popPattern : Pattern :=
  ⟨"Pop", .dataFlow, "Discards a value", .instruction (·.opcode == 0x57)⟩

/-- A built-in pattern under a second description. -/
def leafPattern : Pattern :=
  ⟨"Leaf", .calling, "Again", .method fun _ => true⟩

/-- The built-in catalogue refuses a second pattern of a name, and takes a new
one all the same afterwards. -/
theorem registerCall_conservative_pop :
    (registerCall leafPattern).run.run (builtin.afterCalls [leafPattern]) =
      (.error ⟨"Leaf"⟩, builtin.afterCalls [leafPattern]) ∧
    ∃ d, (registerCall popPattern).run.run (builtin.afterCalls [leafPattern]) = (.ok (), d) ∧
      d.get? "Pop" = some popPattern ∧
      d.names = builtin.names ++ ["Pop"] := by
  obtain ⟨hnames, -, hrefused, -⟩ := registerCall_conservative builtin [leafPattern] leafPattern
  obtain ⟨-, -, -, htaken⟩ := registerCall_conservative builtin [leafPattern] popPattern
  have hbuiltin : (builtin.afterCalls [leafPattern]).names = builtin.names := by
    rw [hnames]
    decide
  have hleaf : "Leaf" ∈ (builtin.afterCalls [leafPattern]).names := by
    rw [hbuiltin]
    decide
  have hpop : "Pop" ∉ (builtin.afterCalls [leafPattern]).names := by
    rw [hbuiltin]
    decide
  obtain ⟨d, hd, hextends⟩ := htaken fun hpresent => hpop (List.mem_map.mpr hpresent)
  refine ⟨hrefused (List.mem_map.mp hleaf), d, hd, hextends.get, ?_⟩
  rw [← hbuiltin, names, hextends.patterns, List.map_append]
  rfl

end Catalog

end ClassLens
