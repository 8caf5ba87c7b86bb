/-
Matching: what the two lists of names that a catalogue answers with say.

The names of a catalogue are distinct, so a name stands for its pattern: it is
among the names of the chosen patterns iff the pattern is chosen, and then once
(`count_name`). The list for instructions repeats a name for each instruction
that shows the pattern (`count_flatMap_namesAt`). Its distinct names come in the
order the patterns are first shown in, and those that are first shown by one
instruction come in catalogue order (`eraseDups_flatMap_namesAt`).
-/
import Mathlib.Data.List.Basic
import Mathlib.Data.List.Induction
import Mathlib.Data.List.Nodup
import ClassLens.Pattern.Catalog

set_option autoImplicit false

namespace ClassLens

/-! ## Lists without repeats -/

/-- A list without repeats has none to drop. -/
theorem eraseDups_of_nodup {α : Type} [BEq α] [LawfulBEq α] {l : List α} (h : l.Nodup) :
    l.eraseDups = l := by
  induction l with
  | nil => rfl
  | cons a l ih =>
    obtain ⟨ha, hl⟩ := List.nodup_cons.mp h
    have hkeep : l.filter (fun b => !b == a) = l := by
      refine List.filter_eq_self.mpr fun b hb => ?_
      have hne : b ≠ a := fun hba => ha (hba ▸ hb)
      simp [hne]
    rw [List.eraseDups_cons, hkeep, ih hl]

theorem nodup_eraseDups {α : Type} [BEq α] [LawfulBEq α] (l : List α) : l.eraseDups.Nodup := by
  induction l using List.reverseRecOn with
  | nil => exact List.nodup_nil
  | append_singleton l a ih =>
    rw [List.eraseDups_append]
    -- what a last element adds is itself, or nothing if it is there already
    have hlast : ([a].removeAll l).eraseDups = [a].removeAll l :=
      eraseDups_of_nodup (List.Nodup.filter _ (List.nodup_singleton a))
    rw [hlast]
    refine List.Nodup.append ih (List.Nodup.filter _ (List.nodup_singleton a)) fun b hb hrest => ?_
    have hnot : b ∉ l := by simpa using (List.mem_filter.mp hrest).2
    exact hnot (List.mem_eraseDups.mp hb)

namespace Catalog

variable {cat : Catalog} {p : Pattern}

/-! ## Names of chosen patterns -/

theorem nodup_names (cat : Catalog) (choose : Pattern → Bool) :
    ((cat.patterns.filter choose).map (·.name)).Nodup :=
  cat.names_nodup.sublist (List.filter_sublist.map _)

theorem name_mem_iff (hp : p ∈ cat.patterns) (choose : Pattern → Bool) :
    p.name ∈ (cat.patterns.filter choose).map (·.name) ↔ choose p = true := by
  constructor
  · intro h
    obtain ⟨q, hq, hname⟩ := List.mem_map.mp h
    obtain ⟨hqmem, hchosen⟩ := List.mem_filter.mp hq
    rwa [← List.inj_on_of_nodup_map cat.names_nodup hqmem hp hname]
  · intro h
    exact List.mem_map_of_mem (List.mem_filter.mpr ⟨hp, h⟩)

/-- A name stands for its pattern: it occurs once if the pattern is chosen, and
not at all if it is not. -/
theorem count_name (hp : p ∈ cat.patterns) (choose : Pattern → Bool) :
    ((cat.patterns.filter choose).map (·.name)).count p.name = if choose p then 1 else 0 := by
  rw [(cat.nodup_names choose).count]
  exact if_congr (name_mem_iff hp choose) rfl rfl

/-! ## Instruction after instruction -/

/-- The names of the patterns that one instruction shows. -/
def namesAt (cat : Catalog) (i : Instruction) : List String :=
  (cat.patterns.filter (·.holdsAt i)).map (·.name)

/-- A name occurs as often as there are instructions that show its pattern. -/
theorem count_flatMap_namesAt (hp : p ∈ cat.patterns) (is : List Instruction) :
    (is.flatMap cat.namesAt).count p.name = is.countP p.holdsAt := by
  induction is with
  | nil => rfl
  | cons i is ih =>
    rw [List.flatMap_cons, List.count_append, ih, namesAt, count_name hp, List.countP_cons,
      Nat.add_comm]

theorem name_mem_flatMap_namesAt_iff (hp : p ∈ cat.patterns) (is : List Instruction) :
    p.name ∈ is.flatMap cat.namesAt ↔ is.any p.holdsAt = true := by
  rw [← List.count_pos_iff, count_flatMap_namesAt hp, List.countP_pos_iff, List.any_eq_true]

/-! ## First instructions -/

/-- The patterns that some instructions show, in the order they are first shown
in: position by position, and in catalogue order where one position is the first
for several. -/
def firstShown (cat : Catalog) (is : List Instruction) : List Pattern :=
  (List.range is.length).flatMap fun k =>
    cat.patterns.filter fun p => is.findIdx? p.holdsAt == some k

/-- The order is that of the instructions first, and that of the catalogue
second. -/
example :
    let any : Pattern := ⟨"Any", .dataFlow, "Any instruction", .instruction fun _ => true⟩
    let last : Pattern := ⟨"Last", .dataFlow, "A return", .instruction (·.opcode == 0xb1)⟩
    let load : Pattern := ⟨"Load", .dataFlow, "A load", .instruction (·.opcode == 0x1a)⟩
    (firstShown ⟨[last, any, load], by decide⟩
      [⟨0, 0, 0x1a, .slot 0⟩, ⟨1, 1, 0x1a, .slot 0⟩, ⟨2, 2, 0xb1, .plain⟩]).map (·.name) =
        ["Any", "Load", "Last"] := by
  decide

/-- With one more instruction behind, the first position stays what it was. Where
there was none it is the last, if the new instruction qualifies. -/
theorem findIdx?_append_singleton (is : List Instruction) (i : Instruction)
    (holds : Instruction → Bool) :
    (is ++ [i]).findIdx? holds =
      if is.any holds then is.findIdx? holds else if holds i then some is.length else none := by
  rw [List.findIdx?_append, List.findIdx?_singleton]
  cases hfirst : is.findIdx? holds with
  | none =>
    have hnone : is.any holds = false := by
      simpa using List.findIdx?_eq_none_iff.mp hfirst
    by_cases hi : holds i <;> simp [hnone, hi]
  | some j =>
    obtain ⟨hj, hholds, -⟩ := List.findIdx?_eq_some_iff_getElem.mp hfirst
    have hany : is.any holds = true := List.any_eq_true.mpr ⟨_, List.getElem_mem hj, hholds⟩
    simp [hany]

/-- A last instruction adds the patterns that it is the first to show. -/
theorem firstShown_append (cat : Catalog) (is : List Instruction) (i : Instruction) :
    cat.firstShown (is ++ [i]) =
      cat.firstShown is ++ cat.patterns.filter fun p => !is.any p.holdsAt && p.holdsAt i := by
  rw [firstShown, List.length_append, List.length_singleton, List.range_succ, List.flatMap_append,
    List.flatMap_singleton]
  congr 1
  · refine List.flatMap_congr fun k hk => List.filter_congr fun p _ => ?_
    have hne : is.length ≠ k := Nat.ne_of_gt (List.mem_range.mp hk)
    rw [findIdx?_append_singleton]
    by_cases hany : is.any p.holdsAt
    · rw [if_pos hany]
    · have hnone : is.findIdx? p.holdsAt = none := by simpa using hany
      by_cases hi : p.holdsAt i <;> simp [hnone, hany, hi, hne]
  · refine List.filter_congr fun p _ => ?_
    rw [findIdx?_append_singleton]
    by_cases hany : is.any p.holdsAt
    · have hne : is.findIdx? p.holdsAt ≠ some is.length := fun hfirst =>
        Nat.lt_irrefl _ (List.findIdx?_eq_some_iff_getElem.mp hfirst).1
      simp [hany, hne]
    · by_cases hi : p.holdsAt i <;> simp [hany, hi]

/-- The distinct names of the patterns of a method's instructions. -/
theorem eraseDups_flatMap_namesAt (cat : Catalog) (is : List Instruction) :
    (is.flatMap cat.namesAt).eraseDups = (cat.firstShown is).map (·.name) := by
  induction is using List.reverseRecOn with
  | nil => rfl
  | append_singleton is i ih =>
    have hnew : (cat.namesAt i).removeAll (is.flatMap cat.namesAt) =
        (cat.patterns.filter fun p => !is.any p.holdsAt && p.holdsAt i).map (·.name) := by
      rw [namesAt, List.removeAll, List.filter_map, List.filter_filter]
      refine congrArg _ (List.filter_congr fun p hp => ?_)
      have hseen : (is.flatMap cat.namesAt).elem p.name = is.any p.holdsAt := by
        rw [Bool.eq_iff_iff, List.elem_iff]
        exact name_mem_flatMap_namesAt_iff hp is
      simp only [Function.comp_apply, hseen]
    rw [List.flatMap_append, List.flatMap_singleton, List.eraseDups_append, ih, hnew,
      eraseDups_of_nodup (cat.nodup_names _), firstShown_append, List.map_append]

theorem mem_firstShown_iff (is : List Instruction) :
    p ∈ cat.firstShown is ↔ p ∈ cat.patterns ∧ is.any p.holdsAt = true := by
  induction is using List.reverseRecOn with
  | nil => simp [firstShown]
  | append_singleton is i ih =>
    rw [firstShown_append, List.mem_append, ih, List.mem_filter, List.any_append]
    by_cases hany : is.any p.holdsAt <;> simp [hany]

/-- Each pattern that is shown is there once, and the others are not. -/
theorem count_firstShown (hp : p ∈ cat.patterns) (is : List Instruction) :
    ((cat.firstShown is).map (·.name)).count p.name = if is.any p.holdsAt then 1 else 0 := by
  rw [← eraseDups_flatMap_namesAt, (nodup_eraseDups _).count]
  exact if_congr (List.mem_eraseDups.trans (name_mem_flatMap_namesAt_iff hp is)) rfl rfl

end Catalog

end ClassLens
