/-
The order of listings: a scan does not depend on it.

Folders and archives list what they hold in no particular order. `Relisted` is
the same tree with other orders, and a scan comes to the same with both
(`scan_relisted`): classes, artifacts and warnings are views of what it comes to.
A scan that fails fails at the same file or entry, with the same message. Only one
cause below a message depends on the order: of an archive, some entries of which
cannot be opened, the cause is that of the one that is listed first.
-/
import ClassLens.Proofs.Scan.Walk
import Mathlib.Data.List.Forall2

set_option autoImplicit false

namespace ClassLens.Scan

/-! ## The same tree in other orders -/

/-- Whether two named trees are the same up to the order of listings: that of
every folder, and that of every archive. -/
inductive Relisted : OsText × FileTree → OsText × FileTree → Prop
  | file {name : OsText} {access : Access} {content : ByteArray} :
      Relisted (name, .file access content) (name, .file access content)
  | archive {name : OsText} {access : Access} {a b : ByteArray} :
      FileKind.ofPath name = .archive → Archive.Relisted a b →
      Relisted (name, .file access a) (name, .file access b)
  | device {name : OsText} {d : Device} : Relisted (name, .device d) (name, .device d)
  | folder {name : OsText} {access : Access}
      {entries listed entries' : List (OsText × FileTree)} :
      entries.Perm listed → List.Forall₂ Relisted listed entries' →
      Relisted (name, .folder access entries) (name, .folder access entries')

theorem Relisted.name_eq {e e' : OsText × FileTree} (h : Relisted e e') : e.1 = e'.1 := by
  cases h <;> rfl

theorem Relisted.isFolder_eq {e e' : OsText × FileTree} (h : Relisted e e') :
    e.2.isFolder = e'.2.isFolder := by
  cases h <;> rfl

section Folders

variable {entries listed entries' : List (OsText × FileTree)}

theorem map_name_eq (h : List.Forall₂ Relisted listed entries') :
    listed.map (·.1) = entries'.map (·.1) := by
  induction h with
  | nil => rfl
  | cons he _ ih => rw [List.map_cons, List.map_cons, he.name_eq, ih]

theorem nodup_relisted (hperm : entries.Perm listed) (h : List.Forall₂ Relisted listed entries')
    (hn : (entries.map (·.1)).Nodup) : (entries'.map (·.1)).Nodup := by
  rw [← map_name_eq h]
  exact (hperm.map _).nodup_iff.mp hn

theorem exists_relisted_of_mem (h : List.Forall₂ Relisted listed entries')
    {e' : OsText × FileTree} (he' : e' ∈ entries') : ∃ e ∈ listed, Relisted e e' := by
  induction h with
  | nil => simp at he'
  | cons hfirst _ ih =>
    rcases List.mem_cons.mp he' with rfl | he'
    · exact ⟨_, List.mem_cons_self, hfirst⟩
    · obtain ⟨e, he, hrelisted⟩ := ih he'
      exact ⟨e, List.mem_cons_of_mem _ he, hrelisted⟩

/-- Relisted folders have relisted entries in the order of names. -/
theorem forall₂_sortByName (hperm : entries.Perm listed)
    (h : List.Forall₂ Relisted listed entries') (hn : (entries.map (·.1)).Nodup) :
    List.Forall₂ Relisted (FileTree.sortByName entries) (FileTree.sortByName entries') := by
  obtain ⟨hsorted, hascending⟩ := (eq_mergeSort_iff hn).mp (rfl : FileTree.sortByName entries = _)
  obtain ⟨sorted', hrelisted, hperm'⟩ := List.perm_comp_forall₂ (hsorted.trans hperm) h
  -- The names ascend on the other side as well, and there is one order in which they do.
  have hascending' : sorted'.Pairwise fun e e' => e.1 < e'.1 := by
    have hnames := List.pairwise_map.mpr hascending
    rw [map_name_eq hrelisted] at hnames
    exact List.pairwise_map.mp hnames
  obtain rfl : sorted' = FileTree.sortByName entries' :=
    (eq_mergeSort_iff (nodup_relisted hperm h hn)).mpr ⟨hperm', hascending'⟩
  exact hrelisted

end Folders

theorem Relisted.wellNamed {t u : FileTree} {name : OsText} (h : Relisted (name, t) (name, u))
    (hn : t.WellNamed) : u.WellNamed := by
  induction t using FileTree.induction generalizing name u with
  | file access content =>
    cases h <;> exact FileTree.wellNamed_of_isFolder_eq_false rfl
  | device d =>
    cases h
    exact FileTree.wellNamed_of_isFolder_eq_false rfl
  | folder access entries ih =>
    cases h with
    | folder hperm hlisted =>
      refine FileTree.wellNamed_folder_iff.mpr ⟨nodup_relisted hperm hlisted hn.nodup, ?_⟩
      rintro ⟨own', next'⟩ he'
      obtain ⟨⟨own, next⟩, he, hrelisted⟩ := exists_relisted_of_mem hlisted he'
      rw [← hperm.mem_iff] at he
      obtain rfl : own = own' := hrelisted.name_eq
      have hname : PathText.IsName own := hn.isName he
      exact ⟨hname, ih _ he hrelisted (hn.entry he)⟩

/-! ## The same failure -/

/-- Whether two failures are the same up to the entry that an archive cannot be
opened for. -/
inductive Failure.Alike : Failure → Failure → Prop
  | same {failure : Failure} : Alike failure failure
  | unopened {path : OsText} {cause cause' : Archive.EntryFault} :
      Alike (.cannotOpenArchive path (.entry cause)) (.cannotOpenArchive path (.entry cause'))

/-- Failures that are alike say the same. -/
theorem map_message_eq {f g : Option Failure} (h : Option.Rel Failure.Alike f g) :
    f.map (·.message) = g.map (·.message) := by
  cases h with
  | none => rfl
  | some halike => cases halike <;> rfl

/-- Whether two visits found the same, and ended alike. -/
structure Visit.Alike {α : Type} (v w : Visit Failure α) : Prop where
  found : v.found = w.found
  failure : Option.Rel Failure.Alike v.failure w.failure

/-- Whether two scans came to the same, and ended alike. If they failed, they say the
same of it. -/
structure Findings.Alike (f g : Findings) : Prop where
  sources : f.sources = g.sources
  isTarget : f.isTarget = g.isTarget
  failure : Option.Rel Failure.Alike f.failure g.failure
  message : f.failure.map (·.message) = g.failure.map (·.message)

namespace Visit

variable {α β γ : Type} {v w : Visit Failure α}

theorem alike_of_eq (h : v = w) : v.Alike w := by
  subst h
  refine ⟨rfl, ?_⟩
  cases v.failure with
  | none => exact .none
  | some e => exact .some .same

theorem Alike.andThen (h : v.Alike w) {next next' : Unit → Visit Failure α}
    (hnext : (next ()).Alike (next' ())) : (v.andThen next).Alike (w.andThen next') := by
  obtain ⟨found, failure⟩ := v
  obtain ⟨found', failure'⟩ := w
  obtain ⟨rfl, hfailure⟩ := h
  cases hfailure with
  | some he => exact ⟨rfl, .some he⟩
  | none => exact ⟨congrArg (found ++ ·) hnext.found, hnext.failure⟩

/-- Visits of alike things, one after the other, are alike. -/
theorem all_alike {visit : β → Visit Failure α} {visit' : γ → Visit Failure α} {l : List β}
    {l' : List γ} (h : List.Forall₂ (fun b c => (visit b).Alike (visit' c)) l l') :
    (all visit l).Alike (all visit' l') := by
  induction h with
  | nil => exact alike_of_eq rfl
  | cons hb _ ih => exact hb.andThen ih

end Visit

/-! ## Visiting relisted trees -/

theorem visitArchive_relisted {a b : ByteArray} (h : Archive.Relisted a b) (path : OsText)
    (access : Access) :
    (visitArchive Archive.entries path (access.read a)).Alike
      (visitArchive Archive.entries path (access.read b)) := by
  unfold Access.read
  cases access.fault? with
  | some fault => exact Visit.alike_of_eq rfl
  | none =>
    rcases h.entries_cases with ⟨cause, cause', ha, hb⟩ | ⟨ea, eb, ha, hb, hperm⟩
    · simp only [visitArchive, ha, hb]
      exact ⟨rfl, .some .unopened⟩
    · apply Visit.alike_of_eq
      simp only [visitArchive, ha, hb, h.size,
        classEntries_eq_of_perm hperm (Archive.nodup_entries ha)]

theorem visitTree_relisted {t u : FileTree} {name path : OsText}
    (h : Relisted (name, t) (name, u)) (hn : t.WellNamed)
    (hkind : FileKind.ofPath path = FileKind.ofPath name) :
    (visitTree Archive.entries path t).Alike (visitTree Archive.entries path u) := by
  induction t using FileTree.induction generalizing name path u with
  | file access content =>
    cases h with
    | file => exact Visit.alike_of_eq rfl
    | archive hname hrelisted =>
      simp only [visitTree, visitFile, hkind, hname]
      exact visitArchive_relisted hrelisted path access
  | device d =>
    cases h
    exact Visit.alike_of_eq rfl
  | folder access entries ih =>
    cases h with
    | folder hperm hlisted =>
      cases haccess : access.fault? with
      | some fault =>
        apply Visit.alike_of_eq
        rw [visitTree, visitTree, visitFolder, visitFolder, haccess]
        cases fault <;> rfl
      | none =>
        rw [visitTree_folder haccess, visitTree_folder haccess]
        apply Visit.all_alike
        rw [List.forall₂_map_left_iff, List.forall₂_map_right_iff]
        -- The entries are visited in the order of names, in which they are relisted
        -- one by one.
        have hsorted := forall₂_sortByName hperm hlisted hn.nodup
        have hmem : ∀ e ∈ FileTree.sortByName entries, e ∈ entries := fun e => mem_sortByName.mp
        refine ((List.forall₂_and_left _ _).mpr ⟨hmem, hsorted⟩).imp ?_
        rintro ⟨own, next⟩ ⟨own', next'⟩ ⟨he, hrelisted⟩
        obtain rfl : own = own' := hrelisted.name_eq
        refine ih _ he hrelisted (hn.entry he) ?_
        rw [FileKind.ofPath, FileKind.ofPath, (hn.isName he).extension?_under]

/-! ## Scans -/

/-- Two class files that say nothing and an archive, as one system lists them. -/
def fallingFiles : List (OsText × FileTree) :=
  [(.ofString "c.jar", .file .free Archive.ascendingFaults),
    (.ofString "b.class", .file .free .empty), (.ofString "a.class", .file .free .empty)]

/-- The files as another system lists them. -/
def risingFiles : List (OsText × FileTree) :=
  [(.ofString "a.class", .file .free .empty), (.ofString "b.class", .file .free .empty),
    (.ofString "c.jar", .file .free Archive.descendingFaults)]

theorem relisted_fallingFiles (name : OsText) :
    Relisted (name, .folder .free fallingFiles) (name, .folder .free risingFiles) := by
  refine .folder (List.reverse_perm _).symm (.cons .file (.cons .file (.cons ?_ .nil)))
  exact .archive (by decide) Archive.relisted_twoFaults

theorem failure_of_entries_eq_error {path : OsText} {access : Access} {bytes : ByteArray}
    {fault : Archive.Fault} (hkind : FileKind.ofPath path = .archive)
    (haccess : access.fault? = none) (h : Archive.entries bytes = .error fault) :
    (scan Archive.entries (some (.file access bytes)) path).failure =
      some (.cannotOpenArchive path fault) := by
  rw [scan_of_file rfl, scanFile, if_neg (by simp [hkind]), visitTree, visitFile, hkind]
  simp only [visitArchive, Access.read, haccess, h]
  rfl

/-- A class file under a name that ends as that of a module's description. -/
def misnamedFiles : List (OsText × FileTree) :=
  [(.ofString "Xmodule-info.class", .file .free ⟨Archive.tinyClass.toArray⟩)]

end ClassLens.Scan
