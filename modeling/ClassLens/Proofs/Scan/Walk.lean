/-
The walk: what a scan comes to, said once more.

The definition of a scan goes through a tree by its structure and sorts what the entries
of a folder come to. `Walks` says it the way a person would: folders are listed as a
whole, siblings come in the order of their names, archives are opened as a whole, entry
by entry as they are listed, before their classes are read, and the first failure ends
it, with its cause. The two agree (`walks_iff`), and the relation is also the way to find
out what a given tree comes to.
-/
import ClassLens.Proofs.Archive.Relisting
import ClassLens.Proofs.Files.Listing
import ClassLens.Scan.Basic

set_option autoImplicit false

namespace ClassLens.Scan

/-! ## The walk -/

/-- Visits of some things in turn, up to the first that fails. -/
inductive InTurn {ε α β : Type} (Visits : β → Visit ε α → Prop) : List β → Visit ε α → Prop
  | done : InTurn Visits [] ⟨[], none⟩
  | failed {b : β} {rest : List β} {found : List α} {e : ε} :
      Visits b ⟨found, some e⟩ → InTurn Visits (b :: rest) ⟨found, some e⟩
  | passed {b : β} {rest : List β} {found : List α} {later : Visit ε α} :
      Visits b ⟨found, none⟩ → InTurn Visits rest later →
      InTurn Visits (b :: rest) ⟨found ++ later.found, later.failure⟩

/-- Whether an entry of an archive is read: it is a class, and has no name that ends as
that of a module's description. -/
structure IsClassEntry (e : Archive.Entry) : Prop where
  notFolder : e.isFolder = false
  isClass : PathText.endsWith e.name ".class" = true
  notModuleInfo : isModuleInfo e.name = false

/-- What reading an entry of an archive gives. -/
inductive ReadsEntry (path : OsText) (e : Archive.Entry) : Visit Failure ReadClass → Prop
  | unread {fault : Archive.ContentFault} :
      e.content = .error fault → ReadsEntry path e ⟨[], some (.cannotReadEntry path e.name fault)⟩
  | malformed {bytes : ByteArray} {cause : ClassFile.LoadError} :
      e.content = .ok bytes → ClassFile.load bytes = .error cause →
      ReadsEntry path e ⟨[], some (.cannotParseEntry path e.name cause)⟩
  | read {bytes : ByteArray} {loaded : ClassFile.Loaded} :
      e.content = .ok bytes → ClassFile.load bytes = .ok loaded →
      ReadsEntry path e ⟨[⟨e.name, e.size, loaded⟩], none⟩

/-- What reading a file of a folder gives. An archive fails before any of its
entries is read if one of them cannot be opened, for the one that is listed first; if
all are opened, its class entries are read in the order of their names. -/
inductive ReadsFile (path : OsText) (content : Except ReadFault ByteArray) :
    Visit Failure Source → Prop
  | passedOver : FileKind.ofPath path = .other → ReadsFile path content ⟨[], none⟩
  | moduleInfo : FileKind.ofPath path = .classFile → isModuleInfo path.lossy = true →
      ReadsFile path content ⟨[], none⟩
  | unread {fault : ReadFault} :
      FileKind.ofPath path = .classFile → isModuleInfo path.lossy = false →
      content = .error fault → ReadsFile path content ⟨[], some (.cannotRead path fault)⟩
  | malformed {bytes : ByteArray} {cause : ClassFile.LoadError} :
      FileKind.ofPath path = .classFile → isModuleInfo path.lossy = false →
      content = .ok bytes → ClassFile.load bytes = .error cause →
      ReadsFile path content ⟨[], some (.cannotParse path cause)⟩
  | classFile {bytes : ByteArray} {loaded : ClassFile.Loaded} :
      FileKind.ofPath path = .classFile → isModuleInfo path.lossy = false →
      content = .ok bytes → ClassFile.load bytes = .ok loaded →
      ReadsFile path content ⟨[.classFile ⟨path.lossy, bytes.size, loaded⟩], none⟩
  | closed : FileKind.ofPath path = .archive → content = .error .unopened →
      ReadsFile path content ⟨[], some (.cannotOpen path)⟩
  | broken : FileKind.ofPath path = .archive → content = .error .broken →
      ReadsFile path content ⟨[], some (.cannotRead path .broken)⟩
  | noDirectory {bytes : ByteArray} : FileKind.ofPath path = .archive → content = .ok bytes →
      Archive.headers? bytes = none →
      ReadsFile path content ⟨[], some (.cannotOpenArchive path .noDirectory)⟩
  | unopened {bytes : ByteArray} {headers before after : List Archive.Header}
      {h : Archive.Header} {cause : Archive.EntryFault} :
      FileKind.ofPath path = .archive → content = .ok bytes →
      Archive.headers? bytes = some headers →
      Archive.distinctHeaders headers = before ++ h :: after →
      (∀ own ∈ before, ∃ e, Archive.opened bytes own = .ok e) →
      Archive.opened bytes h = .error cause →
      ReadsFile path content ⟨[], some (.cannotOpenArchive path (.entry cause))⟩
  | archive {bytes : ByteArray} {entries listing : List Archive.Entry}
      {read : Visit Failure ReadClass} :
      FileKind.ofPath path = .archive → content = .ok bytes →
      Archive.entries bytes = .ok entries →
      (∀ e, e ∈ listing ↔ e ∈ entries ∧ IsClassEntry e) →
      (listing.Pairwise fun e e' => e.name < e'.name) →
      InTurn (ReadsEntry path) listing read →
      ReadsFile path content ⟨[.archive path.lossy bytes.size read.found], read.failure⟩

/-- What walking over a tree gives, depth first and the entries of every folder
in the order of their names. -/
inductive Walks : OsText × FileTree → Visit Failure Source → Prop
  | file {path : OsText} {access : Access} {bytes : ByteArray} {v : Visit Failure Source} :
      ReadsFile path (access.read bytes) v → Walks (path, .file access bytes) v
  | device {path : OsText} {d : Device} {v : Visit Failure Source} :
      ReadsFile path (.ok .empty) v → Walks (path, .device d) v
  | closed {path : OsText} {access : Access} {entries : List (OsText × FileTree)} :
      access.fault? = some .unopened →
      Walks (path, .folder access entries) ⟨[], some (.cannotList path)⟩
  | broken {path : OsText} {access : Access} {entries : List (OsText × FileTree)} :
      access.fault? = some .broken →
      Walks (path, .folder access entries) ⟨[], some (.cannotListEntry path)⟩
  | folder {path : OsText} {access : Access} {entries listing : List (OsText × FileTree)}
      {v : Visit Failure Source} :
      access.fault? = none →
      listing.Perm entries → (listing.Pairwise fun e e' => e.1 < e'.1) →
      InTurn Walks (listing.map fun e => (PathText.under path e.1, e.2)) v →
      Walks (path, .folder access entries) v

/-! ## Visiting lists -/

theorem Visit.all_map {ε α β γ : Type} {visit : β → Visit ε α} (g : γ → β) (l : List γ) :
    Visit.all visit (l.map g) = Visit.all (fun c => visit (g c)) l := by
  induction l with
  | nil => rfl
  | cons c l ih => rw [List.map_cons, all, all, ih]

/-- Visits in turn are those of the list, if each thing has one visit. -/
theorem inTurn_iff {ε α β : Type} {Visits : β → Visit ε α → Prop} {visit : β → Visit ε α}
    {l : List β} (h : ∀ b ∈ l, ∀ v, Visits b v ↔ v = visit b) {v : Visit ε α} :
    InTurn Visits l v ↔ v = Visit.all visit l := by
  induction l generalizing v with
  | nil =>
    rw [Visit.all, Visit.nothing]
    constructor
    · rintro ⟨⟩
      rfl
    · rintro rfl
      exact .done
  | cons b l ih =>
    rw [List.forall_mem_cons] at h
    rw [Visit.all, Visit.andThen]
    constructor
    · intro hv
      cases hv with
      | failed hb => rw [← (h.1 _).mp hb]
      | passed hb hl => rw [← (h.1 _).mp hb, ← (ih h.2).mp hl]
    · rintro rfl
      have hb := (h.1 (visit b)).mpr rfl
      cases hvisit : visit b with
      | mk found failure =>
        rw [hvisit] at hb
        cases failure with
        | some e => exact .failed hb
        | none => exact .passed hb ((ih h.2).mpr rfl)

/-! ## Entries of archives -/

theorem readsEntry_iff {path : OsText} {e : Archive.Entry} {v : Visit Failure ReadClass} :
    ReadsEntry path e v ↔ v = .ofExcept (readEntry path e) := by
  rw [readEntry]
  constructor
  · intro hv
    cases hv with
    | unread hcontent => rw [hcontent]; rfl
    | malformed hcontent hload => simp only [hcontent, hload]; rfl
    | read hcontent hload => simp only [hcontent, hload]; rfl
  · rintro rfl
    cases hcontent : e.content with
    | error fault => exact .unread hcontent
    | ok bytes =>
      cases hload : ClassFile.load bytes with
      | error cause =>
        simp only [hload]
        exact .malformed hcontent hload
      | ok loaded =>
        simp only [hload]
        exact .read hcontent hload

theorem inTurn_readsEntry_iff {path : OsText} {listing : List Archive.Entry}
    {v : Visit Failure ReadClass} :
    InTurn (ReadsEntry path) listing v ↔
      v = Visit.all (fun e => .ofExcept (readEntry path e)) listing := by
  apply inTurn_iff
  intro e _ v
  exact readsEntry_iff

theorem mem_classEntries_iff {entries : List Archive.Entry} {e : Archive.Entry} :
    e ∈ classEntries entries ↔ e ∈ entries ∧ IsClassEntry e := by
  rw [classEntries, (List.mergeSort_perm _ _).mem_iff, List.mem_filter]
  constructor
  · rintro ⟨he, hclass⟩
    simp only [Bool.and_eq_true, Bool.not_eq_true'] at hclass
    exact ⟨he, hclass.1.1, hclass.1.2, hclass.2⟩
  · rintro ⟨he, hclass⟩
    simp [he, hclass.notFolder, hclass.isClass, hclass.notModuleInfo]

theorem pairwise_classEntries {entries : List Archive.Entry}
    (hn : (entries.map (·.name)).Nodup) :
    (classEntries entries).Pairwise fun e e' => e.name < e'.name :=
  ((eq_mergeSort_iff (hn.sublist (List.filter_sublist.map _))).mp rfl).2

/-- The class entries of an archive are read in the one order in which their
names ascend. -/
theorem eq_classEntries {entries listing : List Archive.Entry}
    (hn : (entries.map (·.name)).Nodup) (hmem : ∀ e, e ∈ listing ↔ e ∈ entries ∧ IsClassEntry e)
    (hascending : listing.Pairwise fun e e' => e.name < e'.name) :
    listing = classEntries entries := by
  refine eq_of_ascending (fun _ _ => Std.not_gt_of_lt) hascending (pairwise_classEntries hn) ?_
  intro e
  rw [hmem, mem_classEntries_iff]

theorem classEntries_eq_of_perm {entries entries' : List Archive.Entry}
    (hperm : entries.Perm entries') (hn : (entries.map (·.name)).Nodup) :
    classEntries entries = classEntries entries' := by
  refine eq_classEntries ((hperm.map _).nodup_iff.mp hn) ?_ (pairwise_classEntries hn)
  intro e
  rw [mem_classEntries_iff, hperm.mem_iff]

/-! ## Files -/

/-- What reading a class file gives. -/
theorem readsFile_visitClassFile {path : OsText} {content : Except ReadFault ByteArray}
    (hkind : FileKind.ofPath path = .classFile) :
    ReadsFile path content (visitClassFile path content) := by
  unfold visitClassFile
  cases hinfo : isModuleInfo path.lossy with
  | true => exact .moduleInfo hkind hinfo
  | false =>
    cases content with
    | error fault => exact .unread hkind hinfo rfl
    | ok bytes =>
      cases hload : ClassFile.load bytes with
      | error cause =>
        simp only [hload]
        exact .malformed hkind hinfo rfl hload
      | ok loaded =>
        simp only [hload]
        exact .classFile hkind hinfo rfl hload

/-- What reading an archive gives. -/
theorem readsFile_visitArchive {path : OsText} {content : Except ReadFault ByteArray}
    (hkind : FileKind.ofPath path = .archive) :
    ReadsFile path content (visitArchive Archive.entries path content) := by
  cases content with
  | error fault =>
    cases fault with
    | unopened => exact .closed hkind rfl
    | broken => exact .broken hkind rfl
  | ok bytes =>
    simp only [visitArchive]
    cases hentries : Archive.entries bytes with
    | error fault =>
      rcases Archive.entries_eq_error_iff.mp hentries with
        ⟨hheaders, rfl⟩ | ⟨headers, cause, hheaders, hopen, rfl⟩
      · exact .noDirectory hkind rfl hheaders
      · obtain ⟨before, h, after, hcut, hbefore, hclosed⟩ :=
          Archive.openAll_eq_error_iff.mp hopen
        exact .unopened hkind rfl hheaders hcut hbefore hclosed
    | ok entries =>
      exact .archive hkind rfl hentries (fun _ => mem_classEntries_iff)
        (pairwise_classEntries (Archive.nodup_entries hentries))
        (inTurn_readsEntry_iff.mpr rfl)

theorem readsFile_iff {path : OsText} {content : Except ReadFault ByteArray}
    {v : Visit Failure Source} :
    ReadsFile path content v ↔ v = visitFile Archive.entries path content := by
  rw [visitFile]
  constructor
  · intro hv
    cases hv with
    | passedOver hkind => rw [hkind]; rfl
    | moduleInfo hkind hinfo => simp only [hkind, visitClassFile, hinfo]; rfl
    | unread hkind hinfo hcontent => simp only [hkind, visitClassFile, hinfo, hcontent]; rfl
    | malformed hkind hinfo hcontent hload =>
      simp only [hkind, visitClassFile, hinfo, hcontent, hload]; rfl
    | classFile hkind hinfo hcontent hload =>
      simp only [hkind, visitClassFile, hinfo, hcontent, hload]; rfl
    | closed hkind hcontent => simp only [hkind, visitArchive, hcontent]; rfl
    | broken hkind hcontent => simp only [hkind, visitArchive, hcontent]; rfl
    | noDirectory hkind hcontent hheaders =>
      have hclosed := Archive.entries_eq_error_iff.mpr (.inl ⟨hheaders, rfl⟩)
      simp only [hkind, visitArchive, hcontent, hclosed]
      rfl
    | unopened hkind hcontent hheaders hcut hbefore hopened =>
      have hopen := Archive.openAll_eq_error_iff.mpr ⟨_, _, _, hcut, hbefore, hopened⟩
      have hclosed := Archive.entries_eq_error_iff.mpr (.inr ⟨_, _, hheaders, hopen, rfl⟩)
      simp only [hkind, visitArchive, hcontent, hclosed]
      rfl
    | archive hkind hcontent hentries hmem hascending hread =>
      obtain rfl := eq_classEntries (Archive.nodup_entries hentries) hmem hascending
      rw [inTurn_readsEntry_iff] at hread
      simp only [hkind, visitArchive, hcontent, hentries, hread]
  · rintro rfl
    cases hkind : FileKind.ofPath path with
    | other => exact .passedOver hkind
    | classFile => exact readsFile_visitClassFile hkind
    | archive => exact readsFile_visitArchive hkind

/-! ## Trees -/

theorem entryVisits_eq_map (opener : Opener) (path : OsText) (entries : List (OsText × FileTree)) :
    entryVisits opener path entries =
      entries.map fun e => (e.1, fun _ => visitTree opener (PathText.under path e.1) e.2) := by
  induction entries with
  | nil => rw [entryVisits, List.map_nil]
  | cons e entries ih => rw [entryVisits, ih, List.map_cons]

/-- A folder that can be listed is visited entry by entry, in the order of their
names. -/
theorem visitTree_folder {opener : Opener} {path : OsText} {access : Access}
    (haccess : access.fault? = none) (entries : List (OsText × FileTree)) :
    visitTree opener path (.folder access entries) =
      Visit.all (fun b => visitTree opener b.1 b.2)
        ((FileTree.sortByName entries).map fun e => (PathText.under path e.1, e.2)) := by
  rw [visitTree, visitFolder, haccess, entryVisits_eq_map]
  simp only [FileTree.sortByName]
  rw [← List.map_mergeSort (r := fun a b => decide (a.1 ≤ b.1)) fun _ _ _ _ => rfl,
    Visit.all_map, Visit.all_map]

theorem mem_sortByName {α : Type} {l : List (OsText × α)} {e : OsText × α} :
    e ∈ FileTree.sortByName l ↔ e ∈ l :=
  (List.mergeSort_perm _ _).mem_iff

theorem walks_iff {t : FileTree} (h : t.WellNamed) {path : OsText} {v : Visit Failure Source} :
    Walks (path, t) v ↔ v = visitTree Archive.entries path t := by
  induction t using FileTree.induction generalizing path v with
  | file access bytes =>
    rw [visitTree, ← readsFile_iff]
    constructor
    · intro hv
      cases hv with
      | file hread => exact hread
    · exact .file
  | device d =>
    rw [visitTree, ← readsFile_iff]
    constructor
    · intro hv
      cases hv with
      | device hread => exact hread
    · exact .device
  | folder access entries ih =>
    -- The order of names is the only one that a walk may take, and it visits
    -- entries of the folder only, so the induction hypothesis speaks of all of them.
    have hturn (haccess : access.fault? = none) {v : Visit Failure Source} : InTurn Walks
          ((FileTree.sortByName entries).map fun e => (PathText.under path e.1, e.2)) v ↔
        v = visitTree Archive.entries path (.folder access entries) := by
      rw [visitTree_folder haccess]
      apply inTurn_iff
      intro b hb v
      obtain ⟨e, he, rfl⟩ := List.mem_map.mp hb
      rw [mem_sortByName] at he
      exact ih e he (h.entry he)
    constructor
    · intro hv
      cases hv with
      | closed haccess => rw [visitTree, visitFolder, haccess]; rfl
      | broken haccess => rw [visitTree, visitFolder, haccess]; rfl
      | folder haccess hperm hascending hwalks =>
        obtain rfl := (eq_mergeSort_iff h.nodup).mpr ⟨hperm, hascending⟩
        exact (hturn haccess).mp hwalks
    · intro hv
      cases haccess : access.fault? with
      | none =>
        obtain ⟨hperm, hascending⟩ := (eq_mergeSort_iff h.nodup).mp rfl
        exact .folder haccess hperm hascending ((hturn haccess).mpr hv)
      | some fault =>
        rw [visitTree, visitFolder, haccess] at hv
        rw [hv]
        cases fault with
        | unopened => exact .closed haccess
        | broken => exact .broken haccess

/-! ## Inputs -/

variable {opener : Opener} {path : OsText}

theorem scan_of_folder {t : FileTree} (h : t.isFolder = true) :
    scan opener (some t) path =
      ⟨(visitTree opener path t).found, false, (visitTree opener path t).failure⟩ := by
  rw [scan]
  simp only [h, if_true]

theorem scan_of_file {t : FileTree} (h : t.isFolder = false) :
    scan opener (some t) path = scanFile path (visitTree opener path t) := by
  rw [scan]
  simp only [h]
  rfl

/-- The class file that examples are made of can be loaded. -/
theorem exists_load_tinyClass : ∃ loaded, ClassFile.load ⟨Archive.tinyClass.toArray⟩ = .ok loaded ∧
    loaded.loadedClass.name = "A" := by
  have hname : (ClassFile.load ⟨Archive.tinyClass.toArray⟩).toOption.map
      (·.loadedClass.name) = some "A" := by
    decide +kernel
  cases hload : ClassFile.load ⟨Archive.tinyClass.toArray⟩ with
  | error fault => simp [hload, Except.toOption] at hname
  | ok loaded =>
    rw [hload] at hname
    exact ⟨loaded, rfl, Option.some.inj hname⟩

end ClassLens.Scan
