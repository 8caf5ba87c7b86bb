/-
Listings: what is at each place of a tree, and the one order that names can be put in.

A folder may list its entries in any order, but no two of them have the same name
(`WellNamed`). So there is one order in which the names ascend (`eq_mergeSort_iff`), and
looking up a name finds the entry that is listed under it.
-/
import ClassLens.Files.FileTree
import ClassLens.Proofs.Files.Naming
import Mathlib.Data.List.Perm.Basic

set_option autoImplicit false

namespace ClassLens

/-! ## Sorting by names -/

/-- Things can be put in an ascending order in one way only. -/
theorem eq_of_ascending {α : Type} {R : α → α → Prop} (hasymm : ∀ a b, R a b → ¬ R b a)
    {l l' : List α} (h : l.Pairwise R) (h' : l'.Pairwise R) (hmem : ∀ a, a ∈ l ↔ a ∈ l') :
    l = l' := by
  have hnodup : ∀ {l : List α}, l.Pairwise R → l.Nodup := by
    intro l hl
    refine hl.imp fun hab => ?_
    rintro rfl
    exact hasymm _ _ hab hab
  have hperm : l.Perm l' := (List.perm_ext_iff_of_nodup (hnodup h) (hnodup h')).mpr hmem
  refine List.Perm.eq_of_pairwise (fun a b _ _ hab hba => ?_) h h' hperm
  exact absurd hba (hasymm a b hab)

/-- A sorted list whose names are distinct is the one order of its elements in
which the names ascend. -/
theorem eq_mergeSort_iff {α κ : Type} [LT κ] [LE κ] [DecidableLE κ] [Std.IsLinearOrder κ]
    [Std.LawfulOrderLT κ] {name : α → κ} {l sorted : List α} (h : (l.map name).Nodup) :
    sorted = l.mergeSort (fun a b => name a ≤ name b) ↔
      sorted.Perm l ∧ sorted.Pairwise fun a b => name a < name b := by
  have hperm : (l.mergeSort fun a b => name a ≤ name b).Perm l := List.mergeSort_perm _ _
  have hascending : (l.mergeSort fun a b => name a ≤ name b).Pairwise
      fun a b => name a < name b := by
    have hle : (l.mergeSort fun a b => name a ≤ name b).Pairwise
        fun a b => decide (name a ≤ name b) = true := by
      apply List.pairwise_mergeSort
      · intro a b c hab hbc
        rw [decide_eq_true_eq] at hab hbc ⊢
        exact Std.le_trans hab hbc
      · intro a b
        rw [Bool.or_eq_true, decide_eq_true_eq, decide_eq_true_eq]
        exact Std.le_total
    have hne : (l.mergeSort fun a b => name a ≤ name b).Pairwise fun a b => name a ≠ name b :=
      List.pairwise_map.mp ((hperm.map name).nodup_iff.mpr h)
    refine (hle.and hne).imp fun hab => ?_
    exact Std.lt_of_le_of_ne (of_decide_eq_true hab.1) hab.2
  constructor
  · rintro rfl
    exact ⟨hperm, hascending⟩
  · rintro ⟨hperm', hascending'⟩
    exact eq_of_ascending (fun _ _ => Std.not_gt_of_lt) hascending' hascending
      fun _ => (hperm'.trans hperm.symm).mem_iff

namespace FileTree

/-- A tree is a file, a device, or a folder of trees that are smaller. -/
theorem induction {P : FileTree → Prop} (file : ∀ access content, P (file access content))
    (device : ∀ d, P (device d))
    (folder : ∀ access entries, (∀ e ∈ entries, P e.2) → P (folder access entries))
    (t : FileTree) : P t :=
  @FileTree.rec P (fun entries => ∀ e ∈ entries, P e.2) (fun e => P e.2) file device folder
    (by simp) (fun _ _ he hrest => List.forall_mem_cons.mpr ⟨he, hrest⟩) (fun _ _ h => h) t

variable {t u : FileTree} {access : Access} {entries : List (OsText × FileTree)} {place : Place}

/-! ## What is at a place -/

theorem at?_append (t : FileTree) (place rest : Place) :
    t.at? (place ++ rest) = (t.at? place).bind fun here => here.at? rest := by
  induction place generalizing t with
  | nil => rfl
  | cons name place ih =>
    rw [List.cons_append, at?, at?]
    cases t.entries.lookup name with
    | none => rfl
    | some next => exact ih next

theorem contentAt?_eq_some_iff {content : ByteArray} :
    t.contentAt? place = some content ↔ ∃ access, t.at? place = some (file access content) := by
  rw [contentAt?]
  cases t.at? place with
  | none => simp
  | some here => cases here <;> simp

/-! ## Names in folders -/

/-- Whether the entries of every folder have names that can be listed, and no
two of them the same. -/
def WellNamed (t : FileTree) : Prop :=
  ∀ place access entries, t.at? place = some (folder access entries) →
    (entries.map (·.1)).Nodup ∧ ∀ e ∈ entries, PathText.IsName e.1

theorem WellNamed.nodup (h : (folder access entries).WellNamed) : (entries.map (·.1)).Nodup :=
  (h [] access entries rfl).1

theorem WellNamed.isName (h : (folder access entries).WellNamed) {e : OsText × FileTree}
    (he : e ∈ entries) : PathText.IsName e.1 :=
  (h [] access entries rfl).2 e he

theorem lookup_eq_some_iff_mem {α : Type} {l : List (OsText × α)} (h : (l.map (·.1)).Nodup)
    {name : OsText} {a : α} : l.lookup name = some a ↔ (name, a) ∈ l := by
  induction l with
  | nil => simp
  | cons e l ih =>
    obtain ⟨own, b⟩ := e
    rw [List.map_cons, List.nodup_cons] at h
    rw [List.lookup_cons, List.mem_cons, Prod.mk.injEq]
    by_cases hname : name = own
    · have hnot : (own, a) ∉ l := fun hmem => h.1 (List.mem_map.mpr ⟨(own, a), hmem, rfl⟩)
      simp [hname, eq_comm, hnot]
    · rw [beq_false_of_ne hname]
      simp [hname, ih h.2]

/-- What is at a place below a folder is below one of its entries. -/
theorem WellNamed.at?_cons (h : (folder access entries).WellNamed) {name : OsText}
    {rest : Place} : (folder access entries).at? (name :: rest) = some u ↔
      ∃ e ∈ entries, e.1 = name ∧ e.2.at? rest = some u := by
  rw [at?]
  constructor
  · intro hu
    cases hfound : (folder access entries).entries.lookup name with
    | none => simp [hfound] at hu
    | some next =>
      simp only [hfound] at hu
      exact ⟨(name, next), (lookup_eq_some_iff_mem h.nodup).mp hfound, rfl, hu⟩
  · rintro ⟨⟨own, next⟩, hmem, rfl, hu⟩
    have hfound : (folder access entries).entries.lookup own = some next :=
      (lookup_eq_some_iff_mem h.nodup).mpr hmem
    simpa only [hfound] using hu

theorem WellNamed.entry (h : (folder access entries).WellNamed) {e : OsText × FileTree}
    (he : e ∈ entries) : e.2.WellNamed := by
  intro rest access' below hbelow
  exact h (e.1 :: rest) access' below (h.at?_cons.mpr ⟨e, he, rfl, hbelow⟩)

/-- What is no folder has no names in it. -/
theorem wellNamed_of_isFolder_eq_false (h : t.isFolder = false) : t.WellNamed := by
  intro place access entries hfolder
  cases t with
  | folder => simp [isFolder] at h
  | _ => cases place <;> simp [at?, FileTree.entries] at hfolder

theorem wellNamed_folder_iff :
    (folder access entries).WellNamed ↔
      (entries.map (·.1)).Nodup ∧ ∀ e ∈ entries, PathText.IsName e.1 ∧ e.2.WellNamed := by
  constructor
  · intro h
    exact ⟨h.nodup, fun e he => ⟨h.isName he, h.entry he⟩⟩
  · rintro ⟨hnodup, hentries⟩ place access' below h
    cases place with
    | nil =>
      obtain ⟨rfl, rfl⟩ : access = access' ∧ entries = below := by simpa [at?] using h
      exact ⟨hnodup, fun e he => (hentries e he).1⟩
    | cons name rest =>
      rw [at?] at h
      cases hfound : (folder access entries).entries.lookup name with
      | none => simp [hfound] at h
      | some next =>
        simp only [hfound] at h
        have hmem := (lookup_eq_some_iff_mem hnodup).mp hfound
        exact (hentries _ hmem).2 rest access' below h

/-- A folder is well-named if it lists files only, under distinct names. -/
theorem wellNamed_of_files (hnodup : (entries.map (·.1)).Nodup)
    (hentries : ∀ e ∈ entries, PathText.IsName e.1 ∧ e.2.isFolder = false) :
    (folder access entries).WellNamed :=
  wellNamed_folder_iff.mpr ⟨hnodup, fun e he =>
    ⟨(hentries e he).1, wellNamed_of_isFolder_eq_false (hentries e he).2⟩⟩

end FileTree

end ClassLens
