/-
Naming: the name that a path ends with.

What kind of file a path leads to is decided by the last of its parts. So the
kind of a file below a folder is that of its own name, however the path of the
folder is written, if the name is one that a folder can list.
-/
import ClassLens.Files.PathText

set_option autoImplicit false

namespace ClassLens.PathText

/-- Whether a folder can list something under a name: it is one part of a path,
and stands for itself. -/
structure IsName (name : OsText) : Prop where
  noSlash : slash ∉ name
  notHere : isHere name = false
  notUp : name ≠ levelUp

theorem isName_iff {name : OsText} :
    IsName name ↔ slash ∉ name ∧ isHere name = false ∧ name ≠ levelUp :=
  ⟨fun h => ⟨h.noSlash, h.notHere, h.notUp⟩, fun h => ⟨h.1, h.2.1, h.2.2⟩⟩

instance (name : OsText) : Decidable (IsName name) :=
  decidable_of_iff _ isName_iff.symm

/-! ## Parts -/

theorem parts_ne_nil (path : OsText) : parts path ≠ [] := by
  cases path with
  | nil => simp [parts]
  | cons b rest =>
    rw [parts]
    split
    · simp
    · split <;> simp

theorem parts_cons {b : UInt8} (hb : b ≠ slash) (rest : OsText) :
    ∃ part more, parts rest = part :: more ∧ parts (b :: rest) = (b :: part) :: more := by
  obtain ⟨part, more, hparts⟩ := List.exists_cons_of_ne_nil (parts_ne_nil rest)
  exact ⟨part, more, hparts, by rw [parts, if_neg hb, hparts]⟩

theorem parts_append_slash (before after : OsText) :
    parts (before ++ slash :: after) = parts before ++ parts after := by
  induction before with
  | nil => simp [parts]
  | cons b before ih =>
    rw [List.cons_append]
    by_cases hb : b = slash
    · rw [parts, parts, if_pos hb, if_pos hb, ih, List.cons_append]
    · obtain ⟨part, more, hparts, hcons⟩ := parts_cons hb before
      obtain ⟨part', more', hparts', hcons'⟩ := parts_cons hb (before ++ slash :: after)
      rw [ih, hparts, List.cons_append, List.cons.injEq] at hparts'
      rw [hcons, hcons', ← hparts'.1, ← hparts'.2, List.cons_append]

theorem parts_of_noSlash {name : OsText} (h : slash ∉ name) : parts name = [name] := by
  induction name with
  | nil => rfl
  | cons b rest ih =>
    rw [List.mem_cons, not_or] at h
    rw [parts, if_neg (Ne.symm h.1), ih h.2]

theorem exists_parts_under (folder : OsText) {name : OsText} (h : slash ∉ name) :
    ∃ before, parts (under folder name) = before ++ [name] := by
  rw [under]
  split
  case isTrue hslash =>
    obtain ⟨before, rfl⟩ := List.getLast?_eq_some_iff.mp hslash
    refine ⟨parts before, ?_⟩
    rw [List.append_assoc, List.singleton_append, parts_append_slash, parts_of_noSlash h]
  case isFalse =>
    exact ⟨parts folder, by rw [parts_append_slash, parts_of_noSlash h]⟩

/-! ## The last name -/

theorem lastName?_of_parts {path name : OsText} {before : List OsText}
    (h : parts path = before ++ [name]) (hhere : isHere name = false) (hup : name ≠ levelUp) :
    lastName? path = some name := by
  have hkept : [name].filter (fun part => !isHere part) = [name] := by simp [hhere]
  rw [lastName?, h, List.filter_append, hkept, List.getLast?_concat, Option.filter_some,
    if_pos (bne_iff_ne.mpr hup)]

theorem IsName.lastName?_eq {name : OsText} (h : IsName name) : lastName? name = some name := by
  have hparts : parts name = [] ++ [name] := parts_of_noSlash h.noSlash
  exact lastName?_of_parts hparts h.notHere h.notUp

/-- The extension of what a folder lists is that of its name. -/
theorem IsName.extension?_under {name : OsText} (h : IsName name) (folder : OsText) :
    extension? (under folder name) = extension? name := by
  obtain ⟨before, hparts⟩ := exists_parts_under folder h.noSlash
  rw [extension?, extension?, lastName?_of_parts hparts h.notHere h.notUp, h.lastName?_eq]

end ClassLens.PathText
