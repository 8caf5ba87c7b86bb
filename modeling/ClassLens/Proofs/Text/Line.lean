/-
Texts of one line.

A report is lines with a line feed behind each, and its reader cuts it at the
line feeds. That gives the lines back only if none of them has a line feed
inside, so every text that goes into a line is looked at here for this one
thing. A number has digits only, and a quoted string has its line feeds written
as escapes.

The reader of an outline also drops a carriage return before a line feed. A line
that does not end in one comes back whole (`lines_join_map_ended`).
-/
import ClassLens.Decimal.FloatText
import ClassLens.Text.Lines
import ClassLens.Text.Quoted

set_option autoImplicit false

namespace ClassLens.Text

/-- The text has no line feed, so it is at most one line. -/
def IsLine (s : String) : Prop :=
  '\n' ∉ s.toList

instance (s : String) : Decidable (IsLine s) :=
  inferInstanceAs (Decidable ('\n' ∉ s.toList))

/-! ## Putting texts together -/

@[simp] theorem isLine_append {s t : String} : IsLine (s ++ t) ↔ IsLine s ∧ IsLine t := by
  simp only [IsLine, String.toList_append, List.mem_append, not_or]

theorem isLine_ofList {cs : List Char} : IsLine (String.ofList cs) ↔ '\n' ∉ cs := by
  rw [IsLine, String.toList_ofList]

theorem isLine_intercalate {separator : String} {ts : List String} (hseparator : IsLine separator)
    (h : ∀ t ∈ ts, IsLine t) : IsLine (separator.intercalate ts) := by
  induction ts with
  | nil => exact List.not_mem_nil
  | cons t ts ih =>
    have ht : IsLine t := h t List.mem_cons_self
    cases ts with
    | nil => rwa [String.intercalate_singleton]
    | cons t' ts =>
      rw [String.intercalate_cons_cons, isLine_append, isLine_append]
      exact ⟨⟨ht, hseparator⟩, ih fun s hs => h s (List.mem_cons_of_mem t hs)⟩

/-! ## Numbers -/

theorem digitChar_ne_newline (n : Nat) : n.digitChar ≠ '\n' := by
  fun_cases Nat.digitChar n <;> decide

theorem newline_not_mem_toDigits {base : Nat} (hbase : 1 < base) (n : Nat) :
    '\n' ∉ Nat.toDigits base n := by
  induction n using Nat.strongRecOn with
  | ind n ih =>
    rw [Nat.toDigits_eq_if hbase]
    split
    case isTrue => simp [(digitChar_ne_newline n).symm]
    case isFalse hlarge =>
      have hsmaller : n / base < n := Nat.div_lt_self (by omega) hbase
      simp [ih _ hsmaller, (digitChar_ne_newline (n % base)).symm]

@[simp] theorem isLine_natRepr (n : Nat) : IsLine n.repr := by
  rw [IsLine, Nat.toList_repr]
  exact newline_not_mem_toDigits (by decide) n

@[simp] theorem isLine_intRepr (n : Int) : IsLine n.repr := by
  have hsign : IsLine "-" := by decide
  rw [Int.repr_eq_if]
  split
  · exact isLine_natRepr _
  · exact isLine_append.mpr ⟨hsign, isLine_natRepr _⟩

/-! ## Quoted text -/

theorem newline_not_mem_quoteChar (c : Char) : '\n' ∉ quoteChar c := by
  have hdigits : '\n' ∉ hexDigits c.toNat := newline_not_mem_toDigits (by decide) c.toNat
  fun_cases quoteChar c
  -- The character itself, where it is not a line feed, or its number.
  case case7 _ _ _ hc _ _ _ => simp [Ne.symm hc]
  case case8 => simp [hdigits]
  case case9 _ _ _ hc _ _ _ _ => simp [Ne.symm hc]
  all_goals decide

/-- Whatever is quoted, the line feeds in it are escaped. -/
@[simp] theorem isLine_quoted (s : String) : IsLine (quoted s) := by
  rw [quoted, isLine_ofList]
  simp [newline_not_mem_quoteChar]

end ClassLens.Text

/-! ## Floating point literals -/

namespace ClassLens.Decimal

theorem newline_not_mem_positional {digits : List Char} (h : '\n' ∉ digits) (exponent : Int) :
    '\n' ∉ positional digits exponent := by
  have htake (k : Nat) : '\n' ∉ digits.take k := fun hmem => h (List.mem_of_mem_take hmem)
  have hdrop (k : Nat) : '\n' ∉ digits.drop k := fun hmem => h (List.mem_of_mem_drop hmem)
  have hfraction (k : Nat) :
      '\n' ∉ (if (digits.drop k).isEmpty then ['0'] else digits.drop k) := by
    split
    · decide
    · exact hdrop k
  rw [positional]
  split
  · simp [h]
  · simp only [List.mem_append, List.mem_cons, not_or]
    exact ⟨⟨htake _, by simp⟩, by decide, hfraction _⟩

theorem newline_not_mem_scientific {digits : List Char} (h : '\n' ∉ digits) (exponent : Int) :
    '\n' ∉ scientific digits exponent := by
  have htake : '\n' ∉ digits.take 1 := fun hmem => h (List.mem_of_mem_take hmem)
  have hfraction : '\n' ∉ (if digits.length ≤ 1 then [] else '.' :: digits.drop 1) := by
    split
    · exact List.not_mem_nil
    · exact List.not_mem_cons_of_ne_of_not_mem (by decide) fun hmem => h (List.mem_of_mem_drop hmem)
  have hexponent : '\n' ∉ 'e' :: (toString exponent).toList :=
    List.not_mem_cons_of_ne_of_not_mem (by decide) (Text.isLine_intRepr exponent)
  rw [scientific, List.mem_append, List.mem_append, not_or, not_or]
  exact ⟨⟨htake, hfraction⟩, hexponent⟩

theorem newline_not_mem_chars (style : FloatStyle) (d : Numeral) : '\n' ∉ d.chars style := by
  have hdigits : '\n' ∉ dropTrailingZeros (Nat.toDigits 10 d.digits) := by
    intro hmem
    rw [dropTrailingZeros, List.mem_reverse] at hmem
    have hall := (List.dropWhile_suffix _).mem hmem
    exact Text.newline_not_mem_toDigits (by decide) d.digits (List.mem_reverse.mp hall)
  rw [Numeral.chars]
  split
  · exact newline_not_mem_positional hdigits _
  · exact newline_not_mem_scientific hdigits _

theorem isLine_text (f : BinaryFormat) (bits : Nat) : Text.IsLine (f.text bits) := by
  have hsigned (negative : Bool) {cs : List Char} (h : '\n' ∉ cs) :
      Text.IsLine (String.ofList (if negative then '-' :: cs else cs)) := by
    rw [Text.isLine_ofList]
    split <;> simp [h]
  rw [BinaryFormat.text]
  split
  case h_1 => decide
  case h_2 negative _ => exact hsigned negative (by decide)
  case h_3 negative _ => exact hsigned negative (by decide)
  case h_4 negative _ _ _ => exact hsigned negative (newline_not_mem_chars _ _)

end ClassLens.Decimal

/-! ## Cutting a text into lines -/

namespace ClassLens.Text

/-- Lines with a line feed behind each, cut at the line feeds, are these lines
and nothing behind them. -/
theorem splitOn_flatMap_ended {ls : List String} (h : ∀ l ∈ ls, IsLine l) :
    (ls.flatMap fun l => l.toList ++ ['\n']).splitOn '\n' = ls.map String.toList ++ [[]] := by
  induction ls with
  | nil => exact List.splitOn_nil '\n'
  | cons l ls ih =>
    rw [List.flatMap_cons, List.append_assoc, List.singleton_append,
      List.splitOn_append_cons_self_of_not_mem (h l List.mem_cons_self),
      ih fun l' hl' => h l' (List.mem_cons_of_mem l hl'), List.map_cons, List.cons_append]

/-- What stands before a line feed is collected into one line. -/
theorem linesFrom_append {cs : List Char} (h : '\n' ∉ cs) (rest line : List Char)
    (read : List String) :
    linesFrom (cs ++ '\n' :: rest) line read =
      linesFrom rest [] (endedLine (cs.reverse ++ line) :: read) := by
  induction cs generalizing line with
  | nil => simp [linesFrom]
  | cons c cs ih =>
    rw [List.mem_cons, not_or] at h
    obtain ⟨hc, hcs⟩ := h
    rw [List.cons_append, linesFrom, if_neg (Ne.symm hc), ih hcs, List.reverse_cons,
      List.append_assoc, List.singleton_append]

theorem endedLine_reverse {cs : List Char} (h : cs.getLast? ≠ some '\r') :
    endedLine cs.reverse = String.ofList cs := by
  rw [← List.head?_reverse] at h
  cases hcs : cs.reverse with
  | nil => rw [List.reverse_eq_nil_iff.mp hcs]; rfl
  | cons c line =>
    rw [hcs] at h
    rw [endedLine, ← hcs, List.reverse_reverse]
    rintro rest heq
    simp_all

theorem toList_join_ended (ls : List String) :
    (String.join (ls.map (· ++ "\n"))).toList = ls.flatMap fun l => l.toList ++ ['\n'] := by
  rw [String.toList_join, List.flatMap_map]
  simp

/-- Lines with a line feed behind each are read back, if none of them ends in a
carriage return. -/
theorem lines_join_map_ended {ls : List String} (h : ∀ l ∈ ls, IsLine l)
    (hend : ∀ l ∈ ls, l.toList.getLast? ≠ some '\r') :
    lines (String.join (ls.map (· ++ "\n"))) = ls := by
  -- Generalised over the lines read before.
  have hread (read : List String) : linesFrom (ls.flatMap fun l => l.toList ++ ['\n']) [] read =
      read.reverse ++ ls := by
    induction ls generalizing read with
    | nil => simp [linesFrom]
    | cons l ls ih =>
      have hl : endedLine (l.toList.reverse ++ []) = l := by
        rw [List.append_nil, endedLine_reverse (hend l List.mem_cons_self), String.ofList_toList]
      rw [List.flatMap_cons, List.append_assoc, List.singleton_append,
        linesFrom_append (h l List.mem_cons_self), hl,
        ih (fun l' hl' => h l' (List.mem_cons_of_mem l hl'))
          (fun l' hl' => hend l' (List.mem_cons_of_mem l hl')),
        List.reverse_cons, List.append_assoc, List.singleton_append]
  rw [lines, toList_join_ended, hread, List.reverse_nil, List.nil_append]

/-! ## Indentation -/

/-- A line without the spaces it begins with. -/
def unindented (s : String) : String :=
  String.ofList (s.toList.dropWhile (· == ' '))

/-- Indentation is all that is taken off. -/
theorem unindented_append {s : String} (n : Nat) (h : s.toList.head? ≠ some ' ') :
    unindented (String.ofList (List.replicate n ' ') ++ s) = s := by
  have hrest : s.toList.dropWhile (· == ' ') = s.toList := by
    cases hs : s.toList with
    | nil => rfl
    | cons c cs =>
      rw [hs] at h
      simp_all
  rw [unindented, String.toList_append, String.toList_ofList,
    List.dropWhile_append_of_pos (by simp), hrest, String.ofList_toList]

/-- The number of spaces that a line begins with. -/
def indentation (s : String) : Nat :=
  (s.toList.takeWhile (· == ' ')).length

/-- Indentation goes as far as the spaces in front of a text that begins with none. -/
theorem indentation_append {s : String} (n : Nat) (h : s.toList.head? ≠ some ' ') :
    indentation (String.ofList (List.replicate n ' ') ++ s) = n := by
  have hrest : s.toList.takeWhile (· == ' ') = [] := by
    cases hs : s.toList with
    | nil => rfl
    | cons c cs =>
      rw [hs] at h
      simp_all
  rw [indentation, String.toList_append, String.toList_ofList,
    List.takeWhile_append_of_pos (by simp), hrest, List.append_nil, List.length_replicate]

end ClassLens.Text
