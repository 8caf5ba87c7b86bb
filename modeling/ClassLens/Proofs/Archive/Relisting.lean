/-
Relisting: archives that list the same entries in other orders.

What an archive has to offer is its listing, the name of every entry and what
opening it gives. If the names are distinct, then two archives with the same
listing in other orders can both be opened or neither can, and they have the
same entries up to their order. Why they cannot be opened is another matter: it is
told of the entry that cannot be opened and is listed first.
-/
import ClassLens.Archive.Basic
import Mathlib.Data.List.Forall2
import Mathlib.Data.List.Perm.Basic

set_option autoImplicit false

namespace ClassLens

namespace Archive

variable {data a b : ByteArray} {headers : List Header} {entries : List Entry}

/-! ## One header for each name -/

theorem map_name_insertHeader (headers : List Header) (h : Header) :
    (insertHeader headers h).map (·.name) =
      if h.name ∈ headers.map (·.name) then headers.map (·.name)
      else headers.map (·.name) ++ [h.name] := by
  have hany : headers.any (·.name == h.name) = true ↔ h.name ∈ headers.map (·.name) := by
    simp [List.any_eq_true]
  rw [insertHeader]
  -- Putting a header in the place of another one leaves all names as they are.
  by_cases hmem : h.name ∈ headers.map (·.name)
  · rw [if_pos (hany.mpr hmem), if_pos hmem, List.map_map]
    apply List.map_congr_left
    intro own _
    by_cases hname : own.name = h.name <;> simp [hname]
  · rw [if_neg (mt hany.mp hmem), if_neg hmem, List.map_append, List.map_singleton]

theorem nodup_insertHeader (hn : (headers.map (·.name)).Nodup) (h : Header) :
    ((insertHeader headers h).map (·.name)).Nodup := by
  rw [map_name_insertHeader]
  split
  · exact hn
  · rename_i hmem
    rw [List.nodup_append]
    refine ⟨hn, List.pairwise_singleton _ _, ?_⟩
    intro own hown name hname heq
    rw [List.mem_singleton] at hname
    exact hmem (hname ▸ heq ▸ hown)

theorem nodup_distinctHeaders (headers : List Header) :
    ((distinctHeaders headers).map (·.name)).Nodup := by
  rw [distinctHeaders]
  apply List.foldlRecOn (motive := fun kept : List Header => (kept.map (·.name)).Nodup)
  · exact List.nodup_nil
  · exact fun kept hkept h _ => nodup_insertHeader hkept h

theorem foldl_insertHeader_of_nodup {kept : List Header}
    (hn : ((kept ++ headers).map (·.name)).Nodup) :
    headers.foldl insertHeader kept = kept ++ headers := by
  induction headers generalizing kept with
  | nil => rw [List.foldl_nil, List.append_nil]
  | cons h headers ih =>
    have hany : kept.any (·.name == h.name) ≠ true := by
      rw [List.map_append, List.nodup_append] at hn
      intro hany
      obtain ⟨own, hown, heq⟩ := List.any_eq_true.mp hany
      refine hn.2.2 own.name (List.mem_map_of_mem hown) h.name ?_ (beq_iff_eq.mp heq)
      exact List.mem_map_of_mem List.mem_cons_self
    rw [← List.singleton_append, ← List.append_assoc] at hn ⊢
    rw [List.singleton_append, List.foldl_cons, insertHeader, if_neg hany, ih hn]

/-- Headers with distinct names all count. -/
theorem distinctHeaders_of_nodup (hn : (headers.map (·.name)).Nodup) :
    distinctHeaders headers = headers :=
  foldl_insertHeader_of_nodup hn

/-! ## Opening -/

theorem name_of_opened {h : Header} {e : Entry} (he : opened data h = .ok e) : e.name = h.name := by
  rw [opened] at he
  split at he
  · cases he
  split at he
  · cases he
  split at he
  · cases he
  split at he
  · cases he
  split at he
  · cases he
  rw [← Except.ok.inj he]

theorem openAll_cons_eq_ok_iff {h : Header} :
    openAll data (h :: headers) = .ok entries ↔
      ∃ e rest, opened data h = .ok e ∧ openAll data headers = .ok rest ∧ entries = e :: rest := by
  rw [openAll]
  cases opened data h with
  | error fault => simp
  | ok e =>
    cases openAll data headers with
    | error fault => simp [Except.map]
    | ok rest => simp [Except.map, eq_comm]

/-- If all entries are opened, each is that of its header. -/
theorem openAll_eq_ok_iff :
    openAll data headers = .ok entries ↔
      List.Forall₂ (fun h e => opened data h = .ok e) headers entries := by
  induction headers generalizing entries with
  | nil => simp [openAll, eq_comm]
  | cons h headers ih =>
    rw [openAll_cons_eq_ok_iff, List.forall₂_cons_left_iff]
    simp only [ih]

/-- If not all entries are opened, it is for the first that cannot be. -/
theorem openAll_eq_error_iff {fault : EntryFault} :
    openAll data headers = .error fault ↔
      ∃ before h after, headers = before ++ h :: after ∧
        (∀ own ∈ before, ∃ e, opened data own = .ok e) ∧ opened data h = .error fault := by
  constructor
  · intro h
    induction headers with
    | nil => simp [openAll] at h
    | cons first headers ih =>
      rw [openAll] at h
      cases hfirst : opened data first with
      | error cause =>
        obtain rfl : cause = fault := by simpa [hfirst] using h
        exact ⟨[], first, headers, rfl, by simp, hfirst⟩
      | ok e =>
        have hrest : openAll data headers = .error fault := by
          cases hrest : openAll data headers <;> simp_all [Except.map]
        obtain ⟨before, own, after, rfl, hbefore, hfault⟩ := ih hrest
        exact ⟨first :: before, own, after, rfl,
          List.forall_mem_cons.mpr ⟨⟨e, hfirst⟩, hbefore⟩, hfault⟩
  · rintro ⟨before, own, after, rfl, hbefore, hfault⟩
    induction before with
    | nil => rw [List.nil_append, openAll, hfault]
    | cons first before ih =>
      obtain ⟨⟨e, hfirst⟩, hbefore⟩ := List.forall_mem_cons.mp hbefore
      rw [List.cons_append, openAll, hfirst, ih hbefore]
      rfl

theorem entries_eq_ok_iff :
    Archive.entries data = .ok entries ↔
      ∃ headers, headers? data = some headers ∧
        openAll data (distinctHeaders headers) = .ok entries := by
  rw [Archive.entries]
  cases headers? data with
  | none => simp
  | some headers =>
    cases hopen : openAll data (distinctHeaders headers) <;> simp [Except.mapError, hopen]

/-- An archive cannot be opened if it has no directory, or if one of its entries
cannot. -/
theorem entries_eq_error_iff {fault : Fault} :
    Archive.entries data = .error fault ↔
      (headers? data = none ∧ fault = .noDirectory) ∨
        ∃ headers cause, headers? data = some headers ∧
          openAll data (distinctHeaders headers) = .error cause ∧ fault = .entry cause := by
  rw [Archive.entries]
  cases headers? data with
  | none => simp [eq_comm]
  | some headers =>
    cases hopen : openAll data (distinctHeaders headers) <;>
      simp [Except.mapError, hopen, eq_comm]

/-- The entries of an archive have distinct names. -/
theorem nodup_entries (h : Archive.entries data = .ok entries) :
    (entries.map (·.name)).Nodup := by
  obtain ⟨headers, -, hopen⟩ := entries_eq_ok_iff.mp h
  have hnames (hs : List Header) (es : List Entry)
      (hopened : List.Forall₂ (fun h e => opened data h = .ok e) hs es) :
      es.map (·.name) = hs.map (·.name) := by
    induction hopened with
    | nil => rfl
    | cons he _ ih => rw [List.map_cons, List.map_cons, name_of_opened he, ih]
  rw [hnames _ _ (openAll_eq_ok_iff.mp hopen)]
  exact nodup_distinctHeaders headers

/-! ## The record that counts -/

theorem headersAt?_eq_none {place : Nat} (h : data.size < place + EndRecord.fixedSize) :
    headersAt? data place = none := by
  simp [headersAt?, directoryPlace?, EndRecord.read?, Nat.not_le.mpr h]

theorem headersBefore?_add {place : Nat} (h : data.size < place + EndRecord.fixedSize)
    (n : Nat) : headersBefore? data (place + n) = headersBefore? data place := by
  induction n with
  | zero => rfl
  | succ n ih => rw [← Nat.add_assoc, headersBefore?, headersAt?_eq_none (by omega), ih]

/-- The record that counts starts where there is room for one. -/
theorem headers?_eq (data : ByteArray) :
    headers? data = headersBefore? data (data.size + 1 - EndRecord.fixedSize) := by
  have hroom : data.size < data.size + 1 - EndRecord.fixedSize + EndRecord.fixedSize := by omega
  have hsize : data.size + 1 - EndRecord.fixedSize ≤ data.size := by
    rw [EndRecord.fixedSize]
    omega
  rw [headers?, ← headersBefore?_add hroom, Nat.add_sub_of_le hsize]

/-! ## Listings -/

/-- What the directory of an archive lists: names, and what opening the entries
gives. -/
def listing? (data : ByteArray) : Option (List (String × Except EntryFault Entry)) :=
  (headers? data).map fun headers => headers.map fun h => (h.name, opened data h)

variable {l : List (String × Except EntryFault Entry)}

/-- An archive can be opened if all that it lists can. -/
theorem entries_eq_ok_iff_of_listing (h : listing? data = some l) (hn : (l.map (·.1)).Nodup) :
    Archive.entries data = .ok entries ↔
      List.Forall₂ (fun listed e => listed.2 = .ok e) l entries := by
  obtain ⟨headers, hheaders, rfl⟩ := Option.map_eq_some_iff.mp h
  rw [List.map_map] at hn
  simp [entries_eq_ok_iff, hheaders, distinctHeaders_of_nodup hn, openAll_eq_ok_iff]

/-- If the entry that is listed first cannot be opened, the archive cannot be opened
for that reason. -/
theorem entries_eq_error_of_listing {name : String} {cause : EntryFault}
    (h : listing? data = some ((name, .error cause) :: l))
    (hn : (((name, .error cause) :: l).map (·.1)).Nodup) :
    Archive.entries data = .error (.entry cause) := by
  obtain ⟨headers, hheaders, hlisted⟩ := Option.map_eq_some_iff.mp h
  rw [← hlisted, List.map_map] at hn
  cases headers with
  | nil => simp at hlisted
  | cons first headers =>
    obtain ⟨hfirst, -⟩ := List.cons.inj hlisted
    obtain ⟨-, hfault⟩ := Prod.mk.inj hfirst
    refine entries_eq_error_iff.mpr (.inr ⟨_, cause, hheaders, ?_, rfl⟩)
    rw [distinctHeaders_of_nodup hn]
    exact openAll_eq_error_iff.mpr ⟨[], first, headers, rfl, by simp, hfault⟩

/-- Whether two archives list the same entries, which have distinct names, in
some order each. -/
structure Relisted (a b : ByteArray) : Prop where
  size : a.size = b.size
  listings : ∃ l l', listing? a = some l ∧ listing? b = some l' ∧ l.Perm l' ∧
    (l.map (·.1)).Nodup

theorem Relisted.symm (h : Relisted a b) : Relisted b a := by
  obtain ⟨l, l', hl, hl', hperm, hn⟩ := h.listings
  exact ⟨h.size.symm, l', l, hl', hl, hperm.symm, (hperm.map _).nodup_iff.mp hn⟩

/-- An archive that can be opened can be opened with its entries in another order. -/
theorem Relisted.exists_entries (h : Relisted a b) (ha : Archive.entries a = .ok entries) :
    ∃ entries', Archive.entries b = .ok entries' ∧ entries.Perm entries' := by
  obtain ⟨l, l', hl, hl', hperm, hn⟩ := h.listings
  rw [entries_eq_ok_iff_of_listing hl hn] at ha
  obtain ⟨entries', hb, hentries⟩ := List.perm_comp_forall₂ hperm.symm ha
  have hn' := (hperm.map (·.1)).nodup_iff.mp hn
  exact ⟨entries', (entries_eq_ok_iff_of_listing hl' hn').mpr hb, hentries.symm⟩

/-- Whether an archive can be opened, and with which entries, does not depend on
the order that it lists them in. If it cannot be opened, some entry cannot. -/
theorem Relisted.entries_cases (h : Relisted a b) :
    (∃ cause cause', Archive.entries a = .error (.entry cause) ∧
        Archive.entries b = .error (.entry cause')) ∨
      ∃ ea eb, Archive.entries a = .ok ea ∧ Archive.entries b = .ok eb ∧ ea.Perm eb := by
  have hentry {a b : ByteArray} (h : Relisted a b) {fault : Fault}
      (ha : Archive.entries a = .error fault) : ∃ cause, fault = .entry cause := by
    obtain ⟨l, l', hl, -⟩ := h.listings
    obtain ⟨headers, hheaders, -⟩ := Option.map_eq_some_iff.mp hl
    rcases entries_eq_error_iff.mp ha with ⟨hnone, -⟩ | ⟨_, cause, -, -, rfl⟩
    · simp [hheaders] at hnone
    · exact ⟨cause, rfl⟩
  cases ha : Archive.entries a with
  | ok ea =>
    obtain ⟨eb, hb, hperm⟩ := h.exists_entries ha
    exact .inr ⟨ea, eb, rfl, hb, hperm⟩
  | error fault =>
    cases hb : Archive.entries b with
    | ok eb =>
      obtain ⟨ea, hea, -⟩ := h.symm.exists_entries hb
      simp [ha] at hea
    | error fault' =>
      obtain ⟨cause, rfl⟩ := hentry h ha
      obtain ⟨cause', rfl⟩ := hentry h.symm hb
      exact .inl ⟨cause, cause', rfl, rfl⟩

/-! ## Archives of two entries -/

/-- The bytes of a class file without members. -/
def tinyClass : List UInt8 :=
  [0xca, 0xfe, 0xba, 0xbe, 0, 0, 0, 0x34, 0, 3, 7, 0, 2, 1, 0, 1, 0x41, 0, 1, 0, 1] ++
    List.replicate 10 0

/-- What the directory and the entry itself say of the class file: its flags, how it is
packed, its checksum and sizes, and the size of the name. -/
def tinyFields (flags : UInt8) : List UInt8 :=
  [0, 0, flags, 0, 0, 0, 0, 0, 0, 0] ++
    [0x3d, 0x4a, 0xb5, 0xd3, 31, 0, 0, 0, 31, 0, 0, 0, 7, 0, 0, 0]

/-- The name of a class file, which is one letter up to its extension. -/
def tinyName (letter : UInt8) : List UInt8 :=
  [letter, 0x2e, 0x63, 0x6c, 0x61, 0x73, 0x73]

/-- The class file as an entry. -/
def tinyEntry : List UInt8 :=
  [0x50, 0x4b, 3, 4] ++ tinyFields 0 ++ tinyName 0x41 ++ tinyClass

/-- The header of the entry at a place. -/
def tinyHeader (letter place flags : UInt8) : List UInt8 :=
  [0x50, 0x4b, 1, 2, 0, 0] ++ tinyFields flags ++ List.replicate 10 0 ++
    [place, 0, 0, 0] ++ tinyName letter

/-- The record of a directory of two headers that starts at a place. -/
def tinyRecord (place : UInt8) : List UInt8 :=
  [0x50, 0x4b, 5, 6, 0, 0, 0, 0, 2, 0, 2, 0, 106, 0, 0, 0, place, 0, 0, 0, 0, 0]

/-- An archive that lists the class file under two names. -/
def twoClasses : ByteArray :=
  ⟨(tinyEntry ++ tinyHeader 0x41 0 0 ++ tinyHeader 0x42 0 0 ++ tinyRecord 68).toArray⟩

/-- An archive of which nothing is left but the directory, and by that one of its
entries is encrypted. -/
def ascendingFaults : ByteArray :=
  ⟨(tinyHeader 0x41 0 1 ++ tinyHeader 0x42 255 0 ++ tinyRecord 0).toArray⟩

/-- The same with its headers the other way round. -/
def descendingFaults : ByteArray :=
  ⟨(tinyHeader 0x42 255 0 ++ tinyHeader 0x41 0 1 ++ tinyRecord 0).toArray⟩

/-- The class file as an entry that was opened. -/
def tinyOpened (name : String) : Entry :=
  ⟨name, 31, .stored, ⟨tinyClass.toArray⟩, 0xd3b54a3d⟩

theorem content_tinyOpened (name : String) :
    (tinyOpened name).content = .ok ⟨tinyClass.toArray⟩ := by
  have hchecksum : Archive.checksum ⟨tinyClass.toArray⟩ = 0xd3b54a3d := by decide +kernel
  simp [tinyOpened, Entry.content, Packing.unpack?, hchecksum]

/-- What there is to an entry, in a form that can be compared. -/
structure EntryKey where
  name : String
  size : Nat
  packing : Packing
  packed : List UInt8
  checksum : UInt32
  deriving DecidableEq

/-- The comparable form of an entry. -/
def Entry.key (e : Entry) : EntryKey :=
  ⟨e.name, e.size, e.packing, e.packed.data.toList, e.checksum⟩

theorem Entry.key_injective : Function.Injective Entry.key := by
  rintro ⟨name, size, packing, ⟨⟨packed⟩⟩, checksum⟩
    ⟨name', size', packing', ⟨⟨packed'⟩⟩, checksum'⟩ h
  simp only [key, EntryKey.mk.injEq] at h
  obtain ⟨rfl, rfl, rfl, rfl, rfl⟩ := h
  rfl

/-- The comparable form of what opening an entry gives. -/
def resultKey : Except EntryFault Entry → Except EntryFault EntryKey :=
  Except.map Entry.key

theorem resultKey_injective : Function.Injective resultKey := by
  intro r r' h
  cases r with
  | error fault => cases r' <;> simp_all [resultKey, Except.map]
  | ok e =>
    cases r' with
    | error fault => simp [resultKey, Except.map] at h
    | ok e' =>
      simp only [resultKey, Except.map, Except.ok.injEq] at h
      rw [Entry.key_injective h]

/-- The comparable form of what a directory lists. -/
def listedKey (e : String × Except EntryFault Entry) : String × Except EntryFault EntryKey :=
  (e.1, resultKey e.2)

theorem listedKey_injective : Function.Injective listedKey := by
  intro e e' h
  obtain ⟨hname, hresult⟩ := Prod.mk.inj h
  exact Prod.ext hname (resultKey_injective hresult)

theorem listing?_of_keys
    (h : (headersBefore? data (data.size + 1 - EndRecord.fixedSize)).map
      (List.map fun h => listedKey (h.name, opened data h)) = some (l.map listedKey)) :
    listing? data = some l := by
  apply Option.map_injective (List.map_injective_iff.mpr listedKey_injective)
  rw [listing?, headers?_eq, Option.map_map, Option.map_some, ← h]
  simp [Function.comp_def]

theorem listing?_twoClasses :
    listing? twoClasses =
      some [("A.class", .ok (tinyOpened "A.class")), ("B.class", .ok (tinyOpened "B.class"))] :=
  listing?_of_keys (by decide +kernel)

theorem entries_twoClasses :
    Archive.entries twoClasses = .ok [tinyOpened "A.class", tinyOpened "B.class"] :=
  (entries_eq_ok_iff_of_listing listing?_twoClasses (by decide)).mpr (.cons rfl (.cons rfl .nil))

theorem listing?_ascendingFaults :
    listing? ascendingFaults =
      some [("A.class", .error .encrypted), ("B.class", .error .cutOff)] :=
  listing?_of_keys (by decide +kernel)

theorem listing?_descendingFaults :
    listing? descendingFaults =
      some [("B.class", .error .cutOff), ("A.class", .error .encrypted)] :=
  listing?_of_keys (by decide +kernel)

theorem relisted_twoFaults : Relisted ascendingFaults descendingFaults where
  size := by
    simp only [ascendingFaults, descendingFaults, ByteArray.size, List.size_toArray,
      List.length_append]
    omega
  listings := ⟨_, _, listing?_ascendingFaults, listing?_descendingFaults,
    List.Perm.swap _ _ _, by decide⟩

end Archive

end ClassLens
