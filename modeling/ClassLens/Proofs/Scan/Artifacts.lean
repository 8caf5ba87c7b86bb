/-
Artifacts: what each of them is of, and how they refer to one another.

A source does not know where its artifacts will stand. `Described` says what the
artifacts of some items look like from a position on; that of one source and
that of the sources behind it make that of all (`Described.append`), so a
position is looked at once, where a source is added.
-/
import ClassLens.Proofs.Scan.Walk
import Mathlib.Data.List.Forall2

set_option autoImplicit false

namespace ClassLens.Scan

open Report (Artifact)

/-! ## Items -/

/-- What an artifact is of: a class file, an archive, or an entry of an archive,
with the path and the bytes of the file. -/
inductive Item where
  | classFile (path : OsText) (bytes : ByteArray)
  | archive (path : OsText) (bytes : ByteArray)
  | entry (path : OsText) (bytes : ByteArray) (e : Archive.Entry)

/-- Whether what an input was found to lead to is a file with the given bytes, or a
folder that has the file below it, at a path. -/
def HasFile (found : Option FileTree) (input path : OsText) (bytes : ByteArray) : Prop :=
  ∃ t place, found = some t ∧ t.contentAt? place = some bytes ∧
    path = PathText.below input place

namespace Item

/-- Whether an item is an archive. -/
def isArchive : Item → Bool
  | archive _ _ => true
  | _ => false

/-- Whether an item is an entry of an archive. -/
def isEntry : Item → Bool
  | entry _ _ _ => true
  | _ => false

/-- Whether an item is there to be found. -/
def IsFound (found : Option FileTree) (input : OsText) : Item → Prop
  | classFile path bytes =>
    FileKind.ofPath path = .classFile ∧ HasFile found input path bytes
  | archive path bytes =>
    FileKind.ofPath path = .archive ∧ HasFile found input path bytes
  | entry path bytes e =>
    FileKind.ofPath path = .archive ∧ HasFile found input path bytes ∧
      ∃ entries, Archive.entries bytes = .ok entries ∧ e ∈ entries

/-- The name of an item among all that can be named. -/
def uri : Item → String
  | classFile path _ => path.lossy
  | archive path _ => path.lossy
  | entry path _ e => "jar:" ++ path.lossy ++ "!/" ++ e.name

/-- The size of an item. -/
def size : Item → Nat
  | classFile _ bytes => bytes.size
  | archive _ bytes => bytes.size
  | entry _ _ e => e.size

/-- Whether an item is what a class was read from. -/
def Holds : Item → Class → Prop
  | classFile _ bytes, c =>
    ∃ loaded, ClassFile.load bytes = .ok loaded ∧ loaded.loadedClass = c
  | archive _ _, _ => False
  | entry _ _ e, c =>
    ∃ content loaded, e.content = .ok content ∧ ClassFile.load content = .ok loaded ∧
      loaded.loadedClass = c

end Item

/-- The artifacts of some items, the first of which has the given position. Those
of the entries of an archive follow that of the archive, and refer to it; the
others refer to nothing. -/
structure Described (first : Nat) (items : List Item) (artifacts : List Artifact) : Prop where
  each : List.Forall₂ (fun item a => a.uri = item.uri ∧ a.length = Source.lengthOf item.size)
    items artifacts
  parentless : ∀ {i : Nat} {item : Item} {a : Artifact}, items[i]? = some item →
    artifacts[i]? = some a → item.isEntry = false → a.parent = none
  parent : ∀ {i : Nat} {path : OsText} {bytes : ByteArray} {e : Archive.Entry} {a : Artifact},
    items[i]? = some (.entry path bytes e) → artifacts[i]? = some a →
    ∃ p, p < i ∧ a.parent = some (first + p) ∧ items[p]? = some (.archive path bytes) ∧
      ∀ j, p < j → j ≤ i → ∃ e' b, items[j]? = some (.entry path bytes e') ∧
        artifacts[j]? = some b ∧ b.parent = some (first + p)

theorem Described.nil (first : Nat) : Described first [] [] :=
  ⟨.nil, by simp, by simp⟩

/-- The artifacts of more items follow. -/
theorem Described.append {first : Nat} {items items' : List Item}
    {artifacts artifacts' : List Artifact} (h : Described first items artifacts)
    (h' : Described (first + artifacts.length) items' artifacts') :
    Described first (items ++ items') (artifacts ++ artifacts') where
  each := List.rel_append h.each h'.each
  parentless := by
    intro i item a hitem ha
    have hlength := h.each.length_eq
    by_cases hi : i < items.length
    · rw [List.getElem?_append_left hi] at hitem
      rw [List.getElem?_append_left (hlength ▸ hi)] at ha
      exact h.parentless hitem ha
    · rw [List.getElem?_append_right (Nat.le_of_not_lt hi)] at hitem
      rw [List.getElem?_append_right (hlength ▸ Nat.le_of_not_lt hi), ← hlength] at ha
      exact h'.parentless hitem ha
  parent := by
    intro i path bytes e a hitem ha
    have hlength := h.each.length_eq
    by_cases hi : i < items.length
    · rw [List.getElem?_append_left hi] at hitem
      rw [List.getElem?_append_left (hlength ▸ hi)] at ha
      obtain ⟨p, hp, hparent, harchive, hbetween⟩ := h.parent hitem ha
      refine ⟨p, hp, hparent, ?_, fun j hpj hji => ?_⟩
      · rwa [List.getElem?_append_left (by omega)]
      · rw [List.getElem?_append_left (by omega), List.getElem?_append_left (by omega)]
        exact hbetween j hpj hji
    · rw [List.getElem?_append_right (Nat.le_of_not_lt hi)] at hitem
      rw [List.getElem?_append_right (hlength ▸ Nat.le_of_not_lt hi), ← hlength] at ha
      obtain ⟨p, hp, hparent, harchive, hbetween⟩ := h'.parent hitem ha
      -- Behind the first items, places and positions are further on by as much.
      have hposition : first + artifacts.length + p = first + (items.length + p) := by omega
      rw [hposition] at hparent hbetween
      refine ⟨items.length + p, by omega, hparent, ?_, fun j hpj hji => ?_⟩
      · rwa [List.getElem?_append_right (by omega), Nat.add_sub_cancel_left]
      · rw [List.getElem?_append_right (by omega), List.getElem?_append_right (by omega),
          ← hlength]
        exact hbetween (j - items.length) (by omega) (by omega)

/-! ## The items of a source -/

/-- Whether a source was read from some items: a class file, or an archive and
some of its entries. -/
inductive ReadFrom : Source → List Item → Prop
  | classFile {path : OsText} {bytes : ByteArray} {loaded : ClassFile.Loaded} :
      ClassFile.load bytes = .ok loaded →
      ReadFrom (.classFile ⟨path.lossy, bytes.size, loaded⟩) [.classFile path bytes]
  | archive {path : OsText} {bytes : ByteArray} {listing : List Archive.Entry}
      {found : List ReadClass} :
      List.Forall₂ (fun e c => readEntry path e = .ok c) listing found →
      ReadFrom (.archive path.lossy bytes.size found)
        (.archive path bytes :: listing.map (.entry path bytes))

theorem readEntry_eq_ok_iff {path : OsText} {e : Archive.Entry} {c : ReadClass} :
    readEntry path e = .ok c ↔
      ∃ content loaded, e.content = .ok content ∧ ClassFile.load content = .ok loaded ∧
        c = ⟨e.name, e.size, loaded⟩ := by
  rw [readEntry]
  cases e.content with
  | error fault => simp
  | ok content => cases hload : ClassFile.load content <;> simp [hload, eq_comm]

/-- The artifacts of a class file. -/
theorem described_classFile (path : OsText) (bytes : ByteArray) (loaded : ClassFile.Loaded)
    (roles : List String) (first : Nat) :
    Described first [.classFile path bytes]
      ((Source.classFile ⟨path.lossy, bytes.size, loaded⟩).artifacts roles first) where
  each := by
    rw [Source.artifacts]
    exact .cons ⟨rfl, by rw [Item.size]⟩ .nil
  parentless := by
    intro i item a _ ha _
    cases i with
    | zero => rw [← Option.some.inj ha]
    | succ i => simp [Source.artifacts] at ha
  parent := by
    intro i path bytes e a hitem _
    cases i <;> simp at hitem

/-- The artifacts of an archive and its entries. -/
theorem described_archive {path : OsText} {listing : List Archive.Entry} {found : List ReadClass}
    (h : List.Forall₂ (fun e c => readEntry path e = .ok c) listing found) (bytes : ByteArray)
    (roles : List String) (first : Nat) :
    Described first (.archive path bytes :: listing.map (.entry path bytes))
      ((Source.archive path.lossy bytes.size found).artifacts roles first) where
  each := by
    rw [Source.artifacts]
    refine .cons ⟨rfl, by rw [Item.size]⟩ ?_
    rw [List.forall₂_map_left_iff, List.forall₂_map_right_iff]
    refine h.imp fun e c hread => ?_
    obtain ⟨_, _, _, _, rfl⟩ := readEntry_eq_ok_iff.mp hread
    exact ⟨rfl, by rw [Item.size]⟩
  parentless := by
    intro i item a hitem ha hentry
    cases i with
    | zero => rw [← Option.some.inj ha]
    | succ i =>
      rw [List.getElem?_cons_succ, List.getElem?_map] at hitem
      obtain ⟨e, -, rfl⟩ := Option.map_eq_some_iff.mp hitem
      simp [Item.isEntry] at hentry
  parent := by
    intro i path' bytes' e a hitem ha
    cases i with
    | zero => simp at hitem
    | succ i =>
      rw [List.getElem?_cons_succ, List.getElem?_map] at hitem
      obtain ⟨e', he', heq⟩ := Option.map_eq_some_iff.mp hitem
      obtain ⟨rfl, rfl, rfl⟩ := Item.entry.inj heq
      -- The archive is in front, so an entry stands one place behind its place in
      -- the listing.
      have hlast := (List.getElem?_eq_some_iff.mp he').1
      have hparent : ∀ j < listing.length, ∃ b,
          ((Source.archive path.lossy bytes.size found).artifacts roles first)[j + 1]? = some b ∧
            b.parent = some (first + 0) := by
        intro j hj
        have hj' : j < found.length := h.length_eq ▸ hj
        rw [Source.artifacts, List.getElem?_cons_succ, List.getElem?_map,
          List.getElem?_eq_getElem hj']
        exact ⟨_, rfl, rfl⟩
      refine ⟨0, Nat.succ_pos i, ?_, rfl, fun j hj hji => ?_⟩
      · obtain ⟨b, hb, hfirst⟩ := hparent i hlast
        obtain rfl := Option.some.inj (ha.symm.trans hb)
        exact hfirst
      · obtain ⟨j, rfl⟩ := Nat.exists_eq_succ_of_ne_zero (Nat.ne_of_gt hj)
        have hj : j < listing.length := by omega
        obtain ⟨b, hb, hfirst⟩ := hparent j hj
        refine ⟨listing[j], b, ?_, hb, hfirst⟩
        rw [List.getElem?_cons_succ, List.getElem?_map, List.getElem?_eq_getElem hj]
        rfl

theorem ReadFrom.described {s : Source} {items : List Item} (h : ReadFrom s items)
    (roles : List String) (first : Nat) : Described first items (s.artifacts roles first) := by
  cases h with
  | classFile => exact described_classFile _ _ _ roles first
  | archive hread => exact described_archive hread _ roles first

/-- The artifacts of all sources, by the items that each was read from. -/
theorem described_artifactsFrom {sources : List Source} {items : List (List Item)}
    (h : List.Forall₂ ReadFrom sources items) (roles : List String) (first : Nat) :
    Described first items.flatten (artifactsFrom roles first sources) := by
  induction h generalizing first with
  | nil => exact Described.nil first
  | cons hs _ ih => exact (hs.described roles first).append (ih _)

/-- The items of a source that are no archive hold its classes. -/
theorem ReadFrom.holds {s : Source} {items : List Item} (h : ReadFrom s items) :
    List.Forall₂ Item.Holds (items.filter (!·.isArchive))
      (s.found.map (·.loaded.loadedClass)) := by
  cases h with
  | classFile hload => exact .cons ⟨_, hload, rfl⟩ .nil
  | archive hread =>
    rename_i path bytes listing found
    have hentries : (Item.archive path bytes :: listing.map (.entry path bytes)).filter
        (!·.isArchive) = listing.map (.entry path bytes) := by
      rw [List.filter_cons_of_neg (by simp [Item.isArchive]), List.filter_eq_self]
      intro item hitem
      obtain ⟨e, -, rfl⟩ := List.mem_map.mp hitem
      rfl
    rw [hentries, Source.found, List.forall₂_map_left_iff, List.forall₂_map_right_iff]
    refine hread.imp fun e c hread => ?_
    obtain ⟨content, loaded, hcontent, hload, rfl⟩ := readEntry_eq_ok_iff.mp hread
    exact ⟨content, loaded, hcontent, hload, rfl⟩

theorem holds_classes {sources : List Source} {items : List (List Item)}
    (h : List.Forall₂ ReadFrom sources items) :
    List.Forall₂ Item.Holds (items.flatten.filter (!·.isArchive)) (classes sources) := by
  induction h with
  | nil => exact .nil
  | cons hs _ ih =>
    rw [List.flatten_cons, List.filter_append, classes, List.flatMap_cons, List.map_append]
    exact List.rel_append hs.holds ih

theorem classCount_eq (sources : List Source) :
    classCount sources = (classes sources).length := by
  induction sources with
  | nil => rfl
  | cons s sources ih =>
    rw [classes, List.length_map] at ih
    rw [classCount, List.map_cons, natSum_cons, classes, List.length_map, List.flatMap_cons,
      List.length_append, ← ih, classCount]

/-! ## The items of a scan -/

theorem exists_forall₂ {α β : Type} {R : α → β → Prop} {P : β → Prop} {l : List α}
    (h : ∀ a ∈ l, ∃ b, R a b ∧ P b) : ∃ l', List.Forall₂ R l l' ∧ ∀ b ∈ l', P b := by
  induction l with
  | nil => exact ⟨[], .nil, by simp⟩
  | cons a l ih =>
    rw [List.forall_mem_cons] at h
    obtain ⟨⟨b, hab, hb⟩, hl⟩ := h
    obtain ⟨l', hl', hp⟩ := ih hl
    exact ⟨b :: l', .cons hab hl', List.forall_mem_cons.mpr ⟨hb, hp⟩⟩

namespace Visit

variable {ε α β : Type}

/-- What is found without a failure was found by a visit that did not fail. -/
theorem exists_of_mem_found {visit : β → Visit ε α} {l : List β} {a : α}
    (h : (all visit l).failure = none) (ha : a ∈ (all visit l).found) :
    ∃ b ∈ l, (visit b).failure = none ∧ a ∈ (visit b).found := by
  induction l with
  | nil => simp [all, nothing] at ha
  | cons b l ih =>
    rw [all, andThen] at h ha
    cases hb : (visit b).failure with
    | some e => simp [hb] at h
    | none =>
      simp only [hb] at h ha
      rcases List.mem_append.mp ha with ha | ha
      · exact ⟨b, List.mem_cons_self, hb, ha⟩
      · obtain ⟨b', hb', hfound⟩ := ih h ha
        exact ⟨b', List.mem_cons_of_mem _ hb', hfound⟩

theorem forall₂_of_all_ofExcept {g : β → Except ε α} {l : List β}
    (h : (all (fun b => ofExcept (g b)) l).failure = none) :
    List.Forall₂ (fun b a => g b = .ok a) l (all (fun b => ofExcept (g b)) l).found := by
  induction l with
  | nil => exact .nil
  | cons b l ih =>
    rw [all, andThen] at h ⊢
    cases hb : g b with
    | error e => simp [hb, ofExcept, fail] at h
    | ok a =>
      simp only [hb, ofExcept, one] at h ⊢
      exact .cons hb (ih h)

end Visit

variable {found : Option FileTree} {input path : OsText} {s : Source}

/-- What is read of a file without a failure is read from items that are there. -/
theorem exists_readFrom_of_mem {content : Except ReadFault ByteArray}
    (hfile : ∀ bytes, content = .ok bytes → HasFile found input path bytes)
    (h : (visitFile Archive.entries path content).failure = none)
    (hs : s ∈ (visitFile Archive.entries path content).found) :
    ∃ items, ReadFrom s items ∧ ∀ item ∈ items, item.IsFound found input := by
  have hread : ReadsFile path content (visitFile Archive.entries path content) :=
    readsFile_iff.mpr rfl
  generalize visitFile Archive.entries path content = v at h hs hread
  cases hread with
  | classFile hkind _ hcontent hload =>
    obtain rfl := List.mem_singleton.mp hs
    refine ⟨_, .classFile hload, ?_⟩
    rw [List.forall_mem_singleton]
    exact ⟨hkind, hfile _ hcontent⟩
  | archive hkind hcontent hentries hmem _ hread =>
    obtain rfl := List.mem_singleton.mp hs
    obtain rfl := inTurn_readsEntry_iff.mp hread
    have hbytes := hfile _ hcontent
    refine ⟨_, .archive (Visit.forall₂_of_all_ofExcept h), ?_⟩
    rw [List.forall_mem_cons, List.forall_mem_map]
    exact ⟨⟨hkind, hbytes⟩, fun e he => ⟨hkind, hbytes, _, hentries, ((hmem e).mp he).1⟩⟩
  -- In all other cases nothing is found.
  | _ => simp at hs

/-- A device is read as an empty file, and there is nothing to be found in it. -/
theorem found_visitFile_empty (path : OsText) :
    (visitFile Archive.entries path (.ok .empty)).found = [] := by
  have hread : ReadsFile path (.ok .empty) (visitFile Archive.entries path (.ok .empty)) :=
    readsFile_iff.mpr rfl
  generalize visitFile Archive.entries path (.ok .empty) = v at hread
  cases hread with
  | classFile _ _ hcontent hload =>
    obtain rfl := Except.ok.inj hcontent
    have hcut : ClassFile.load .empty = .error _ := rfl
    simp [hcut] at hload
  | archive _ hcontent hentries =>
    obtain rfl := Except.ok.inj hcontent
    have hclosed : Archive.entries .empty = .error .noDirectory := rfl
    simp [hclosed] at hentries
  | _ => rfl

/-- What is read of a tree without a failure is read from items that are there. -/
theorem exists_readFrom_of_mem_visitTree {t : FileTree} (ht : t.WellNamed)
    (hfiles : ∀ place bytes, t.contentAt? place = some bytes →
      HasFile found input (PathText.below path place) bytes)
    (h : (visitTree Archive.entries path t).failure = none)
    (hs : s ∈ (visitTree Archive.entries path t).found) :
    ∃ items, ReadFrom s items ∧ ∀ item ∈ items, item.IsFound found input := by
  induction t using FileTree.induction generalizing path with
  | file access content =>
    rw [visitTree] at h hs
    refine exists_readFrom_of_mem (fun bytes hbytes => hfiles [] bytes ?_) h hs
    rw [Access.read] at hbytes
    cases hfault : access.fault? with
    | none => simpa [hfault, FileTree.contentAt?, FileTree.at?] using hbytes
    | some fault => simp [hfault] at hbytes
  | device d =>
    rw [visitTree, found_visitFile_empty] at hs
    simp at hs
  | folder access entries ih =>
    cases haccess : access.fault? with
    | some fault =>
      rw [visitTree, visitFolder, haccess] at h
      cases fault <;> simp [Visit.fail] at h
    | none =>
      rw [visitTree_folder haccess] at h hs
      obtain ⟨b, hb, hfailure, hfound⟩ := Visit.exists_of_mem_found h hs
      obtain ⟨e, he, rfl⟩ := List.mem_map.mp hb
      rw [mem_sortByName] at he
      refine ih e he (ht.entry he) (fun place bytes hbytes => ?_) hfailure hfound
      obtain ⟨own, hown⟩ := FileTree.contentAt?_eq_some_iff.mp hbytes
      refine hfiles (e.1 :: place) bytes (FileTree.contentAt?_eq_some_iff.mpr ⟨own, ?_⟩)
      exact ht.at?_cons.mpr ⟨e, he, rfl, hown⟩

/-! ## Inputs -/

theorem scan_none (path : OsText) :
    (scan Archive.entries none path).sources = [] ∧
      (scan Archive.entries none path).isTarget = true := by
  have hread : ReadsFile path (.error .unopened)
      (visitFile Archive.entries path (.error .unopened)) :=
    readsFile_iff.mpr rfl
  rw [scan, scanFile]
  generalize visitFile Archive.entries path (.error .unopened) = v at hread
  split
  · exact ⟨rfl, rfl⟩
  · cases hread with
    | classFile _ _ hcontent => simp at hcontent
    | archive _ hcontent => simp at hcontent
    | _ => exact ⟨rfl, rfl⟩

/-- The sources of a scan without a failure were read from items that are there. -/
theorem exists_items (hfound : ∀ t ∈ found, t.WellNamed)
    (h : (scan Archive.entries found path).failure = none) :
    ∃ items, List.Forall₂ ReadFrom (scan Archive.entries found path).sources items ∧
      ∀ own ∈ items, ∀ item ∈ own, item.IsFound found path := by
  apply exists_forall₂
  intro s hs
  cases found with
  | none => simp [(scan_none path).1] at hs
  | some t =>
    have hfiles : ∀ place bytes, t.contentAt? place = some bytes →
        HasFile (some t) path (PathText.below path place) bytes :=
      fun place bytes hbytes => ⟨t, place, rfl, hbytes, rfl⟩
    cases hfolder : t.isFolder with
    | true =>
      rw [scan_of_folder hfolder] at h hs
      exact exists_readFrom_of_mem_visitTree (hfound t rfl) hfiles h hs
    | false =>
      rw [scan_of_file hfolder, scanFile] at h hs
      split at hs
      · simp at hs
      · rename_i hkind
        rw [if_neg hkind] at h
        exact exists_readFrom_of_mem_visitTree (hfound t rfl) hfiles h hs

/-! ## Roles -/

/-- Whether a file at a path is read, and not passed over. -/
def IsReadAt (path : OsText) : Prop :=
  FileKind.ofPath path = .archive ∨
    FileKind.ofPath path = .classFile ∧ isModuleInfo path.lossy = false

theorem roles_of_mem_artifactsFrom_nil {sources : List Source} {first : Nat} {a : Artifact}
    (ha : a ∈ artifactsFrom [] first sources) : a.roles = [] := by
  induction sources generalizing first with
  | nil => simp [artifactsFrom] at ha
  | cons s sources ih =>
    rw [artifactsFrom] at ha
    rcases List.mem_append.mp ha with ha | ha
    · cases s with
      | classFile c =>
        obtain rfl := List.mem_singleton.mp ha
        rfl
      | archive path size found =>
        rcases List.mem_cons.mp ha with rfl | ha
        · rfl
        · obtain ⟨c, -, rfl⟩ := List.mem_map.mp ha
          rfl
    · exact ih ha

/-- Only the first artifact of a source can have roles. -/
theorem exists_artifacts_eq_cons (s : Source) (roles : List String) (first : Nat) :
    ∃ a rest, s.artifacts roles first = a :: rest ∧ a.roles = roles ∧
      ∀ b ∈ rest, b.roles = [] := by
  cases s with
  | classFile c => exact ⟨_, [], rfl, rfl, by simp⟩
  | archive path size found =>
    refine ⟨_, _, rfl, rfl, fun b hb => ?_⟩
    obtain ⟨c, -, rfl⟩ := List.mem_map.mp hb
    rfl

/-- A file that is itself the input is the only source, unless it is passed
over. -/
theorem sources_of_file {access : Access} {bytes : ByteArray}
    (h : (scan Archive.entries (some (.file access bytes)) path).failure = none) :
    (¬ IsReadAt path ∧ (scan Archive.entries (some (.file access bytes)) path).sources = []) ∨
      (IsReadAt path ∧
        ∃ s, (scan Archive.entries (some (.file access bytes)) path).sources = [s]) := by
  rw [scan_of_file rfl, scanFile] at h ⊢
  split at h
  · simp at h
  rename_i hkind
  rw [if_neg hkind]
  rw [visitTree] at h ⊢
  have hread : ReadsFile path (access.read bytes)
      (visitFile Archive.entries path (access.read bytes)) :=
    readsFile_iff.mpr rfl
  generalize visitFile Archive.entries path (access.read bytes) = v at h hread ⊢
  cases hread with
  | passedOver hother => exact absurd hother hkind
  | moduleInfo hclass hinfo => exact Or.inl ⟨by simp [IsReadAt, hclass, hinfo], rfl⟩
  | classFile hclass hinfo => exact Or.inr ⟨Or.inr ⟨hclass, hinfo⟩, _, rfl⟩
  | archive harchive => exact Or.inr ⟨Or.inl harchive, _, rfl⟩
  | _ => simp at h

theorem isTarget_of_file {t : FileTree} (h : t.isFolder = false) :
    (scan Archive.entries (some t) path).isTarget = true := by
  rw [scan_of_file h, scanFile]
  split <;> rfl

/-- Only the first artifact has a role, and it has one if the input is itself a
file that is read. -/
theorem roles_artifacts (h : (scan Archive.entries found path).failure = none) :
    (∀ i a, (scan Archive.entries found path).artifacts[i]? = some a → a.roles ≠ [] →
      i = 0 ∧ a.roles = [Report.analysisTarget]) ∧
    ((∃ a ∈ (scan Archive.entries found path).artifacts, a.roles ≠ []) ↔
      ∃ access bytes, found = some (.file access bytes) ∧ IsReadAt path) := by
  rw [Findings.artifacts]
  cases found with
  | none => simp [(scan_none path).1, artifactsFrom]
  | some t =>
    cases t with
    | folder access entries =>
      rw [scan_of_folder rfl, if_neg Bool.false_ne_true]
      constructor
      · intro i a ha hroles
        exact absurd (roles_of_mem_artifactsFrom_nil (List.mem_of_getElem? ha)) hroles
      · constructor
        · rintro ⟨a, ha, hroles⟩
          exact absurd (roles_of_mem_artifactsFrom_nil ha) hroles
        · rintro ⟨access, bytes, hbytes, -⟩
          simp at hbytes
    | device d =>
      have hsources : (scan Archive.entries (some (.device d)) path).sources = [] := by
        rw [scan_of_file rfl, scanFile, visitTree]
        split
        · rfl
        · exact found_visitFile_empty path
      simp [hsources, artifactsFrom]
    | file access bytes =>
      rw [isTarget_of_file rfl, if_pos rfl]
      rcases sources_of_file h with ⟨hnot, hsources⟩ | ⟨hread, s, hsources⟩
      · simp [hsources, artifactsFrom, hnot]
      · obtain ⟨first, rest, hfirst, hroles, hrest⟩ :=
          exists_artifacts_eq_cons s [Report.analysisTarget] 0
        rw [hsources, artifactsFrom, artifactsFrom, List.append_nil, hfirst]
        constructor
        · intro i a ha hne
          cases i with
          | zero => exact ⟨rfl, Option.some.inj ha ▸ hroles⟩
          | succ i => exact absurd (hrest a (List.mem_of_getElem? ha)) hne
        · simp [hread, hroles]

/-- In a scan without a failure, every class has an artifact of its own, in the
same order, and archives have the others. The artifacts of the entries of an
archive follow that of the archive and refer to it. The input has a role if it
is itself a file that is read, and then its artifact is the first. -/
theorem artifacts_trace (hfound : ∀ t ∈ found, t.WellNamed)
    (h : (scan Archive.entries found path).failure = none) :
    classCount (scan Archive.entries found path).sources =
      (classes (scan Archive.entries found path).sources).length ∧
    (∃ items : List Item,
      (∀ item ∈ items, item.IsFound found path) ∧
      Described 0 items (scan Archive.entries found path).artifacts ∧
      List.Forall₂ Item.Holds (items.filter (!·.isArchive))
        (classes (scan Archive.entries found path).sources)) ∧
    (∀ i a, (scan Archive.entries found path).artifacts[i]? = some a → a.roles ≠ [] →
      i = 0 ∧ a.roles = [Report.analysisTarget]) ∧
    ((∃ a ∈ (scan Archive.entries found path).artifacts, a.roles ≠ []) ↔
      ∃ access bytes, found = some (.file access bytes) ∧ IsReadAt path) := by
  obtain ⟨items, hitems, hown⟩ := exists_items hfound h
  refine ⟨classCount_eq _, ⟨items.flatten, ?_, ?_, ?_⟩, roles_artifacts h⟩
  · intro item hitem
    obtain ⟨own, hmem, hitem⟩ := List.mem_flatten.mp hitem
    exact hown own hmem item hitem
  · exact described_artifactsFrom hitems _ 0
  · exact holds_classes hitems

/-- A class file and an archive with two classes. -/
def mixedFiles : List (OsText × FileTree) :=
  [(.ofString "a.class", .file .free ⟨Archive.tinyClass.toArray⟩),
    (.ofString "b.jar", .file .free Archive.twoClasses)]

/-- Nothing fails in the walk over them, and it comes to three classes. -/
theorem exists_walks_mixedFiles : ∃ loaded, Walks (.ofString "in", .folder .free mixedFiles)
    ⟨[.classFile ⟨"in/a.class", 31, loaded⟩,
      .archive "in/b.jar" Archive.twoClasses.size
        [⟨"A.class", 31, loaded⟩, ⟨"B.class", 31, loaded⟩]], none⟩ := by
  obtain ⟨loaded, hload, -⟩ := exists_load_tinyClass
  have hclass : ReadsFile (PathText.under (.ofString "in") (.ofString "a.class"))
      (Access.free.read ⟨Archive.tinyClass.toArray⟩)
      ⟨[.classFile ⟨"in/a.class", 31, loaded⟩], none⟩ := by
    have hpath : (PathText.under (.ofString "in") (.ofString "a.class")).lossy =
      "in/a.class" := by decide
    rw [← hpath]
    exact .classFile (by decide) (by decide) rfl hload
  have hread : ∀ name, ReadsEntry (PathText.under (.ofString "in") (.ofString "b.jar"))
      (Archive.tinyOpened name) ⟨[⟨name, 31, loaded⟩], none⟩ :=
    fun name => .read (Archive.content_tinyOpened name) hload
  have hturn := InTurn.passed (hread "A.class") (.passed (hread "B.class") .done)
  have hmem : ∀ e, e ∈ [Archive.tinyOpened "A.class", Archive.tinyOpened "B.class"] ↔
      e ∈ [Archive.tinyOpened "A.class", Archive.tinyOpened "B.class"] ∧ IsClassEntry e := by
    intro e
    refine ⟨fun he => ⟨he, ?_⟩, And.left⟩
    simp only [List.mem_cons, List.not_mem_nil, or_false] at he
    rcases he with rfl | rfl <;> exact ⟨by decide, by decide, by decide⟩
  have harchive : ReadsFile (PathText.under (.ofString "in") (.ofString "b.jar"))
      (Access.free.read Archive.twoClasses)
      ⟨[.archive "in/b.jar" Archive.twoClasses.size
        [⟨"A.class", 31, loaded⟩, ⟨"B.class", 31, loaded⟩]], none⟩ := by
    have hpath : (PathText.under (.ofString "in") (.ofString "b.jar")).lossy = "in/b.jar" := by
      decide
    rw [← hpath]
    exact .archive (by decide) rfl Archive.entries_twoClasses hmem (by decide) hturn
  have hascending : mixedFiles.Pairwise fun e e' => e.1 < e'.1 := by decide
  have hentries := InTurn.passed (Walks.file hclass) (.passed (Walks.file harchive) .done)
  exact ⟨loaded, .folder rfl (.refl _) hascending hentries⟩

theorem artifacts_trace_mixedFiles :
    (scan Archive.entries (some (.folder .free mixedFiles)) (.ofString "in")).artifacts.map
          (fun a => (a.uri, a.parent)) =
        [("in/a.class", none), ("in/b.jar", none), ("jar:in/b.jar!/A.class", some 1),
          ("jar:in/b.jar!/B.class", some 1)] ∧
      (classes (scan Archive.entries (some (.folder .free mixedFiles))
        (.ofString "in")).sources).length = 3 := by
  have hwell : (FileTree.folder .free mixedFiles).WellNamed :=
    FileTree.wellNamed_of_files (by decide) (by decide)
  obtain ⟨loaded, hwalks⟩ := exists_walks_mixedFiles
  have hscan : scan Archive.entries (some (.folder .free mixedFiles)) (.ofString "in") = _ :=
    scan_of_folder rfl
  rw [← (walks_iff hwell).mp hwalks] at hscan
  have hfound : ∀ t ∈ some (FileTree.folder .free mixedFiles), t.WellNamed := by
    rintro t ⟨⟩
    exact hwell
  have hfailure :
      (scan Archive.entries (some (.folder .free mixedFiles)) (.ofString "in")).failure = none := by
    rw [hscan]
  obtain ⟨hcount, -, -⟩ := artifacts_trace hfound hfailure
  rw [← hcount, hscan]
  exact ⟨rfl, rfl⟩

end ClassLens.Scan
