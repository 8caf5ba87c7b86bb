/-
Writing: what an open file changes in a tree.

Putting a file makes folders on the way where there are none. A path, however, is
followed through folders that there are, so the file that it leads to gets its
content and nothing else changes: every other place has what it had (`SameBut`).
Writing behind what a file holds only touches that file, so a file that is made and
then written to differs from what was there at one place still. Opening a device
changes nothing.
-/
import ClassLens.Files.FileSystem
import ClassLens.Proofs.Files.Listing

set_option autoImplicit false

namespace ClassLens.FileTree

variable {t u v next : FileTree} {access : Access} {entries : List (OsText × FileTree)}
  {place : Place} {name : OsText} {content more : ByteArray}

/-! ## What is at a place, apart from what is below -/

/-- What a tree is, but for the entries of a folder. -/
inductive Node where
  | file (access : Access) (content : ByteArray)
  | device (d : Device)
  | folder (access : Access)

/-- What a tree is, apart from what is below. -/
def node : FileTree → Node
  | file access content => .file access content
  | device d => .device d
  | folder access _ => .folder access

/-- What is at a place, apart from what is below. -/
def nodeAt? (t : FileTree) (place : Place) : Option Node :=
  (t.at? place).map node

theorem nodeAt?_cons (t : FileTree) (name : OsText) (place : Place) :
    t.nodeAt? (name :: place) = (t.entries.lookup name).bind (·.nodeAt? place) := by
  rw [nodeAt?, at?]
  cases t.entries.lookup name <;> rfl

/-- What has no entries has nothing below it. -/
theorem nodeAt?_of_entries_eq_nil (h : t.entries = []) (hplace : place ≠ []) :
    t.nodeAt? place = none := by
  cases place with
  | nil => exact absurd rfl hplace
  | cons name place =>
    rw [nodeAt?_cons, h]
    rfl

theorem nodeAt?_eq_file_iff :
    t.nodeAt? place = some (.file access content) ↔ t.at? place = some (file access content) := by
  rw [nodeAt?]
  cases t.at? place with
  | none => simp
  | some here => cases here <;> simp [node]

theorem nodeAt?_eq_device_iff {d : Device} :
    t.nodeAt? place = some (.device d) ↔ t.at? place = some (device d) := by
  rw [nodeAt?]
  cases t.at? place with
  | none => simp
  | some here => cases here <;> simp [node]

/-- Whether there is nothing at a place but a file that can be opened to be written, or
a place for one. -/
inductive CanWrite (t : FileTree) (place : Place) : Prop
  | file {access : Access} {content : ByteArray} :
      t.nodeAt? place = some (.file access content) → access.isWritable = true → CanWrite t place
  | device {d : Device} : t.nodeAt? place = some (.device d) → CanWrite t place
  | new {access : Access} :
      t.nodeAt? place = none → t.nodeAt? place.dropLast = some (.folder access) →
      access.isWritable = true → CanWrite t place

theorem canWrite_iff : t.canWrite place = true ↔ t.CanWrite place := by
  rw [canWrite]
  constructor
  · intro h
    cases hplace : t.at? place with
    | some here =>
      have hnode : t.nodeAt? place = some here.node := congrArg (Option.map node) hplace
      cases here with
      | file access content => exact .file hnode (by simpa [hplace] using h)
      | device d => exact .device hnode
      | folder access entries => simp [hplace] at h
    | none =>
      cases habove : t.at? place.dropLast with
      | none => simp [hplace, habove] at h
      | some above =>
        have hnode : t.nodeAt? place.dropLast = some above.node :=
          congrArg (Option.map node) habove
        cases above with
        | folder access entries =>
          exact .new (congrArg (Option.map node) hplace) hnode (by simpa [hplace, habove] using h)
        | file | device => simp [hplace, habove] at h
  · intro h
    cases h with
    | file hplace hwritable => simp [nodeAt?_eq_file_iff.mp hplace, hwritable]
    | device hplace => simp [nodeAt?_eq_device_iff.mp hplace]
    | new hplace habove hwritable =>
      obtain ⟨above, habove, hnode⟩ := Option.map_eq_some_iff.mp habove
      rw [Option.map_eq_none_iff.mp hplace, habove]
      cases above with
      | folder => simpa [← Node.folder.inj hnode] using hwritable
      | file | device => simp [node] at hnode

/-- What is at a place below the root is in a folder. -/
theorem hasFolder_dropLast (h : t.at? place ≠ none) :
    place = [] ∨ t.hasFolder place.dropLast = true := by
  by_cases hplace : place = []
  · exact .inl hplace
  · rw [← List.dropLast_concat_getLast hplace, at?_append] at h
    rw [hasFolder]
    cases habove : t.at? place.dropLast with
    | none => simp [habove] at h
    | some above =>
      rw [habove, Option.bind_some] at h
      cases above with
      | folder access entries => exact .inr rfl
      | file | device => simp [at?, FileTree.entries] at h

theorem CanWrite.hasFolder_dropLast (h : t.CanWrite place) :
    place = [] ∨ t.hasFolder place.dropLast = true := by
  cases h with
  | file hplace => exact FileTree.hasFolder_dropLast (by simp [nodeAt?_eq_file_iff.mp hplace])
  | device hplace => exact FileTree.hasFolder_dropLast (by simp [nodeAt?_eq_device_iff.mp hplace])
  | new _ habove =>
    obtain ⟨above, habove, hnode⟩ := Option.map_eq_some_iff.mp habove
    rw [hasFolder, habove]
    cases above with
    | folder access entries => exact .inr rfl
    | file | device => simp [node] at hnode

/-! ## One level of a tree -/

theorem lookup_cons_eq (name own : OsText) (t : FileTree) (l : List (OsText × FileTree)) :
    ((name, t) :: l).lookup own = if own = name then some t else l.lookup own := by
  rw [List.lookup_cons]
  by_cases h : own = name
  · simp [h]
  · rw [beq_false_of_ne h, if_neg h]

theorem lookup_setEntry (name own : OsText) (t : FileTree) (l : List (OsText × FileTree)) :
    (setEntry name t l).lookup own = if own = name then some t else l.lookup own := by
  induction l with
  | nil => rw [setEntry, lookup_cons_eq]
  | cons e l ih =>
    obtain ⟨first, old⟩ := e
    rw [setEntry, lookup_cons_eq]
    by_cases hfirst : first = name
    · rw [if_pos (beq_iff_eq.mpr hfirst), lookup_cons_eq, hfirst]
      split <;> rfl
    · rw [if_neg (by simpa using hfirst), lookup_cons_eq, ih]
      by_cases h : own = first
      · rw [if_pos h, if_pos h, if_neg (h ▸ hfirst)]
      · rw [if_neg h, if_neg h]

/-! ## Putting a file -/

/-- One tree is another but for one place, where it has a file with some content. -/
structure SameBut (t u : FileTree) (place : Place) (content : ByteArray) : Prop where
  /-- There was a file at the place, or nothing. -/
  before : ∀ n ∈ t.nodeAt? place, ∃ access old, n = .file access old
  /-- What is at other places is the same. -/
  elsewhere : ∀ p, p ≠ place → u.nodeAt? p = t.nodeAt? p
  /-- The file at the place has the content. -/
  written : ∃ access, u.nodeAt? place = some (.file access content)

/-- Another file at the same place changes nothing else. -/
theorem SameBut.trans (h : t.SameBut u place content) (h' : u.SameBut v place more) :
    t.SameBut v place more where
  before := h.before
  elsewhere p hp := (h'.elsewhere p hp).trans (h.elsewhere p hp)
  written := h'.written

/-- An entry of a folder changes, so the folder does below the name of the entry. -/
theorem SameBut.setEntry
    (hbefore : ∀ n ∈ (entries.lookup name).bind (·.nodeAt? place),
      ∃ access old, n = .file access old)
    (helsewhere : ∀ p, p ≠ place → next.nodeAt? p = (entries.lookup name).bind (·.nodeAt? p))
    (hwritten : ∃ access, next.nodeAt? place = some (.file access content)) :
    (folder access entries).SameBut (folder access (setEntry name next entries)) (name :: place)
      content := by
  constructor
  case before =>
    rw [nodeAt?_cons]
    exact hbefore
  case elsewhere =>
    intro p hp
    cases p with
    | nil => rfl
    | cons own p =>
      rw [nodeAt?_cons, nodeAt?_cons, FileTree.entries, FileTree.entries, lookup_setEntry]
      split
      case isTrue hown =>
        rw [Option.bind_some, hown]
        exact helsewhere p fun heq => hp (by rw [hown, heq])
      case isFalse => rfl
  case written =>
    rw [nodeAt?_cons, FileTree.entries, lookup_setEntry, if_pos rfl, Option.bind_some]
    exact hwritten

/-- A file that is put in a folder, in the place of a file or of nothing, changes nothing
but itself. -/
theorem sameBut_putFile (habove : place = [] ∨ t.hasFolder place.dropLast = true)
    (hbefore : ∀ n ∈ t.nodeAt? place, ∃ access old, n = .file access old) (content : ByteArray) :
    t.SameBut (t.putFile place content) place content := by
  induction place generalizing t with
  | nil =>
    obtain ⟨access, old, hnode⟩ := hbefore t.node rfl
    have hroot : t.nodeAt? [] = some (.file access old) := congrArg some hnode
    obtain rfl : t = file access old := Option.some.inj (nodeAt?_eq_file_iff.mp hroot)
    refine ⟨hbefore, fun p hp => ?_, access, rfl⟩
    rw [nodeAt?_of_entries_eq_nil rfl hp, nodeAt?_of_entries_eq_nil rfl hp]
  | cons name place ih =>
    have hfolder : t.hasFolder ((name :: place).dropLast) = true := habove.resolve_left (by simp)
    obtain ⟨access, entries, rfl⟩ : ∃ access entries, t = folder access entries := by
      cases t with
      | folder access entries => exact ⟨access, entries, rfl⟩
      | file | device =>
        cases place <;> simp [hasFolder, at?, isFolder, FileTree.entries] at hfolder
    rw [nodeAt?_cons, FileTree.entries] at hbefore
    rw [putFile, alter]
    cases hlookup : entries.lookup name with
    | some old =>
      rw [hlookup, Option.bind_some] at hbefore
      have habove' : place = [] ∨ old.hasFolder place.dropLast = true := by
        cases place with
        | nil => exact .inl rfl
        | cons own place => simpa [hasFolder, at?, FileTree.entries, hlookup] using hfolder
      have hold := ih habove' hbefore
      apply SameBut.setEntry
      · rw [hlookup, Option.bind_some]
        exact hold.before
      · rw [hlookup]
        exact hold.elsewhere
      · exact hold.written
    | none =>
      -- The folder is that of the place itself, which has nothing yet.
      obtain rfl : place = [] := by
        cases place with
        | nil => rfl
        | cons own place => simp [hasFolder, at?, FileTree.entries, hlookup] at hfolder
      apply SameBut.setEntry
      · simp [hlookup]
      · intro p hp
        rw [hlookup, Option.bind_none]
        exact nodeAt?_of_entries_eq_nil rfl hp
      · exact ⟨.free, rfl⟩

end FileTree

namespace FileSystem

variable {fs fs' : FileSystem} {path : OsText} {place : Place} {target : Target}
  {content : ByteArray}

/-! ## Opening and writing -/

/-- Paths start from the same places, and one tree is the other but for one place, where
it has a file with some content. -/
structure SameBut (fs fs' : FileSystem) (place : Place) (content : ByteArray) : Prop where
  here : fs'.here = fs.here
  root : fs.root.SameBut fs'.root place content

/-- What opening a path to write to it comes to. A file is empty then, and nothing else
changes. -/
inductive Opens (fs : FileSystem) (path : OsText) : Target → FileSystem → Prop
  | file {place : Place} {fs' : FileSystem} : fs.place? path = some place →
      fs.SameBut fs' place .empty → Opens fs path (.file place) fs'
  | device {place : Place} {d : Device} : fs.place? path = some place →
      fs.root.nodeAt? place = some (.device d) → Opens fs path (.device d) fs

theorem create?_of_place? (h : fs.place? path = some place) :
    fs.create? path =
      if !fs.root.canWrite place then none
      else match fs.root.at? place with
        | some (.device d) => some (.device d, fs)
        | _ => some (.file place, { fs with root := fs.root.putFile place .empty }) := by
  rw [create?, h]
  rfl

/-- A path cannot be opened if it leads nowhere, or to what cannot be written. -/
theorem create?_eq_none_iff :
    fs.create? path = none ↔ ∀ place, fs.place? path = some place → ¬ fs.root.CanWrite place := by
  cases hplace : fs.place? path with
  | none => simp [create?, hplace]
  | some place =>
    simp only [create?_of_place? hplace, Option.some.injEq, forall_eq', ← FileTree.canWrite_iff]
    cases fs.root.canWrite place with
    | false => simp
    | true =>
      simp only [Bool.not_true, Bool.false_eq_true, if_false]
      split <;> simp

theorem opens_of_create? (h : fs.create? path = some (target, fs')) : fs.Opens path target fs' := by
  cases hplace : fs.place? path with
  | none => simp [create?, hplace] at h
  | some place =>
    rw [create?_of_place? hplace] at h
    cases hwrite : fs.root.canWrite place with
    | false => simp [hwrite] at h
    | true =>
      have hcan := FileTree.canWrite_iff.mp hwrite
      simp only [hwrite, Bool.not_true, Bool.false_eq_true, if_false] at h
      split at h
      case h_1 d hdevice =>
        obtain ⟨rfl, rfl⟩ := Prod.mk.inj (Option.some.inj h)
        exact .device hplace (FileTree.nodeAt?_eq_device_iff.mpr hdevice)
      case h_2 hdevice =>
        obtain ⟨rfl, rfl⟩ := Prod.mk.inj (Option.some.inj h)
        refine .file hplace ⟨rfl, FileTree.sameBut_putFile hcan.hasFolder_dropLast ?_ _⟩
        intro n hn
        cases hcan with
        | file hfile => exact ⟨_, _, Option.some.inj (hn.symm.trans hfile)⟩
        | device hown => exact absurd (FileTree.nodeAt?_eq_device_iff.mp hown) (hdevice _)
        | new hnone => simp [hnone] at hn

/-- What is written behind the content of a file is in that file, and nothing else
changes. -/
theorem SameBut.append (h : fs.SameBut fs' place content) (more : ByteArray) :
    fs.SameBut (fs'.append place more) place (content ++ more) := by
  obtain ⟨access, hwritten⟩ := h.root.written
  have hfile := FileTree.nodeAt?_eq_file_iff.mp hwritten
  have hcontent : fs'.root.contentAt? place = some content :=
    FileTree.contentAt?_eq_some_iff.mpr ⟨access, hfile⟩
  refine ⟨h.here, h.root.trans ?_⟩
  rw [FileSystem.append, hcontent, Option.getD_some]
  refine FileTree.sameBut_putFile (FileTree.hasFolder_dropLast (by simp [hfile])) ?_ _
  intro n hn
  exact ⟨access, content, Option.some.inj (hn.symm.trans hwritten)⟩

end FileSystem

end ClassLens
