/-
Texts of JSON values: the printed form of a value is one of them.

`IsText` is the grammar of such texts. White space may stand wherever the grammar has
it, so a text is told by what it says and not by how it is laid out. The printed form of
every value is a text of it (`isText_pretty`).
-/
import ClassLens.Report.Json
import Mathlib.Data.List.Forall2

set_option autoImplicit false

namespace ClassLens.Report.Json

/-! ## Tokens -/

/-- Whether there is nothing but white space. -/
def IsBlank (cs : List Char) : Prop :=
  ∀ c ∈ cs, c = ' ' ∨ c = '\t' ∨ c = '\n' ∨ c = '\r'

/-- What a character may be written as in a string. One whose number has more than four
digits stands for itself. -/
inductive Spells : Char → List Char → Prop
  | plain {c : Char} : 0x20 ≤ c.toNat → c ≠ '"' → c ≠ '\\' → Spells c [c]
  | quote : Spells '"' ['\\', '"']
  | backslash : Spells '\\' ['\\', '\\']
  | slash : Spells '/' ['\\', '/']
  | backspace : Spells '\x08' ['\\', 'b']
  | formFeed : Spells '\x0c' ['\\', 'f']
  | lineFeed : Spells '\n' ['\\', 'n']
  | carriageReturn : Spells '\r' ['\\', 'r']
  | tab : Spells '\t' ['\\', 't']
  /-- The four hexadecimal digits of its number. -/
  | number {c : Char} {p q r s : Nat} : p < 16 → q < 16 → r < 16 → s < 16 →
      c.toNat = ((p * 16 + q) * 16 + r) * 16 + s →
      Spells c ['\\', 'u', p.digitChar, q.digitChar, r.digitChar, s.digitChar]

/-- Whether there is a string in quotes. -/
def IsQuoted (s : String) (cs : List Char) : Prop :=
  ∃ spellings, List.Forall₂ Spells s.toList spellings ∧ cs = '"' :: spellings.flatten ++ ['"']

/-- Whether there are the digits of a number, without zeros in front. -/
structure IsDecimal (n : Nat) (cs : List Char) : Prop where
  digits : ∀ c ∈ cs, c.isDigit = true
  nonempty : cs ≠ []
  shortest : cs.head? = some '0' → cs = ['0']
  value : Nat.ofDigitChars 10 cs 0 = n

/-- Whether there is a number. -/
inductive IsNumeral : Int → List Char → Prop
  | natural {n : Nat} {cs : List Char} : IsDecimal n cs → IsNumeral n cs
  | negative {n : Nat} {cs : List Char} : IsDecimal n cs → IsNumeral (-n) ('-' :: cs)

/-! ## Values -/

mutual

/-- Whether there is a value. -/
inductive IsText : Json → List Char → Prop
  | padded {j : Json} {before cs after : List Char} :
      IsBlank before → IsText j cs → IsBlank after → IsText j (before ++ cs ++ after)
  | null : IsText .null ['n', 'u', 'l', 'l']
  | true : IsText (.bool true) ['t', 'r', 'u', 'e']
  | false : IsText (.bool false) ['f', 'a', 'l', 's', 'e']
  | num {n : Int} {cs : List Char} : IsNumeral n cs → IsText (.num n) cs
  | str {s : String} {cs : List Char} : IsQuoted s cs → IsText (.str s) cs
  | list {items : List Json} {cs : List Char} :
      IsItems items cs → IsText (.list items) ('[' :: cs ++ [']'])
  | obj {members : List (String × Json)} {cs : List Char} :
      IsMembers members cs → IsText (.obj members) ('\x7b' :: cs ++ ['\x7d'])

/-- Whether there are the items of a list. -/
inductive IsItems : List Json → List Char → Prop
  | none {cs : List Char} : IsBlank cs → IsItems [] cs
  | last {item : Json} {cs : List Char} : IsText item cs → IsItems [item] cs
  | next {item : Json} {rest : List Json} {cs cs' : List Char} :
      IsText item cs → rest ≠ [] → IsItems rest cs' → IsItems (item :: rest) (cs ++ ',' :: cs')

/-- Whether there are the members of an object. -/
inductive IsMembers : List (String × Json) → List Char → Prop
  | none {cs : List Char} : IsBlank cs → IsMembers [] cs
  | last {key : String} {value : Json} {cs cs' : List Char} :
      IsText (.str key) cs → IsText value cs' → IsMembers [(key, value)] (cs ++ ':' :: cs')
  | next {key : String} {value : Json} {rest : List (String × Json)} {cs cs' cs'' : List Char} :
      IsText (.str key) cs → IsText value cs' → rest ≠ [] → IsMembers rest cs'' →
      IsMembers ((key, value) :: rest) (cs ++ ':' :: cs' ++ ',' :: cs'')

end

/-! ## Printed tokens -/

theorem isBlank_nil : IsBlank [] := fun _ hc => absurd hc List.not_mem_nil

theorem isBlank_newline (depth : Nat) : IsBlank (newline depth).toList := by
  intro c hc
  rw [newline, String.toList_ofList, List.mem_cons, List.mem_replicate] at hc
  rcases hc with rfl | ⟨-, rfl⟩ <;> simp

/-- A character is written as one of its spellings. -/
theorem spells_escapeChar (c : Char) : Spells c (escapeChar c) := by
  fun_cases escapeChar c
  case case1 hc => exact hc ▸ .quote
  case case2 hc => exact hc ▸ .backslash
  case case3 hc => exact hc ▸ .lineFeed
  case case4 hc => exact hc ▸ .carriageReturn
  case case5 hc => exact hc ▸ .tab
  case case6 hc => exact hc ▸ .backspace
  case case7 hc => exact hc ▸ .formFeed
  case case8 hsmall =>
    -- its number has two digits at most, so the first two are zeros
    have hzero : Nat.digitChar 0 = '0' := rfl
    rw [hexPair, ← hzero]
    exact .number (by decide) (by decide) (by omega) (Nat.mod_lt _ (by decide)) (by omega)
  case case9 hquote hbackslash _ _ _ _ _ hlarge =>
    exact .plain (Nat.le_of_not_lt hlarge) hquote hbackslash

theorem isQuoted_quote (s : String) : IsQuoted s (quote s).toList := by
  refine ⟨s.toList.map escapeChar, ?_, ?_⟩
  · rw [List.forall₂_map_right_iff, List.forall₂_same]
    exact fun c _ => spells_escapeChar c
  · rw [quote, String.toList_ofList, List.flatMap_def]

theorem head?_toDigits (n : Nat) :
    (Nat.toDigits 10 n).head? = some '0' → Nat.toDigits 10 n = ['0'] := by
  induction n using Nat.strongRecOn with
  | ind n ih =>
    rw [Nat.toDigits_eq_if (by decide)]
    split
    case isTrue =>
      intro h
      rw [Option.some.inj h]
    case isFalse hlarge =>
      rw [List.head?_append_of_ne_nil _ Nat.toDigits_ne_nil]
      intro h
      -- the digits in front are those of no zero
      have hfront := ih (n / 10) (by omega) h
      have hvalue := Nat.ofDigitChars_toDigits (n := n / 10) (b := 10) (by decide) (by decide)
      rw [hfront] at hvalue
      have hzero : Nat.ofDigitChars 10 ['0'] 0 = 0 := rfl
      omega

theorem isDecimal_repr (n : Nat) : IsDecimal n n.repr.toList := by
  rw [Nat.repr, String.toList_ofList]
  exact ⟨fun c hc => Nat.isDigit_of_mem_toDigits (by decide) (by decide) hc, Nat.toDigits_ne_nil,
    head?_toDigits n, Nat.ofDigitChars_toDigits (by decide) (by decide)⟩

theorem isNumeral_toString (n : Int) : IsNumeral n (toString n).toList := by
  cases n with
  | ofNat n => exact .natural (isDecimal_repr n)
  | negSucc n =>
    have hminus : (toString (Int.negSucc n)).toList = '-' :: (n + 1).repr.toList :=
      String.toList_append
    rw [hminus, Int.negSucc_eq]
    exact .negative (isDecimal_repr (n + 1))

/-! ## Printed values -/

/-- A value is none of others, a list of values, or an object of values. -/
theorem induction {P : Json → Prop} (null : P .null) (bool : ∀ value, P (.bool value))
    (num : ∀ value, P (.num value)) (str : ∀ value, P (.str value))
    (list : ∀ items, (∀ item ∈ items, P item) → P (.list items))
    (obj : ∀ members, (∀ m ∈ members, P m.2) → P (.obj members)) (j : Json) : P j :=
  @Json.rec P (fun items => ∀ item ∈ items, P item) (fun members => ∀ m ∈ members, P m.2)
    (fun m => P m.2) null bool num str list obj (by simp)
    (fun _ _ hitem hrest => List.forall_mem_cons.mpr ⟨hitem, hrest⟩) (by simp)
    (fun _ _ hm hrest => List.forall_mem_cons.mpr ⟨hm, hrest⟩) (fun _ _ h => h) j

/-- Items that follow one. -/
theorem isItems_prettyItems {depth : Nat} {rest : List Json}
    (h : ∀ item ∈ rest, IsText item (item.prettyAt depth).toList) {first : Json}
    {cs after : List Char} (hfirst : IsText first cs) (hafter : IsBlank after) :
    IsItems (first :: rest) (cs ++ (prettyItems depth rest).toList ++ after) := by
  induction rest generalizing first cs with
  | nil =>
    have hlast := hfirst.padded isBlank_nil hafter
    rw [List.nil_append] at hlast
    rw [prettyItems, String.toList_empty, List.append_nil]
    exact .last hlast
  | cons item rest ih =>
    rw [List.forall_mem_cons] at h
    have hitem := h.1.padded (isBlank_newline depth) isBlank_nil
    have hrest := IsItems.next hfirst (List.cons_ne_nil item rest) (ih h.2 hitem)
    simpa [prettyItems] using hrest

/-- Members that follow one. -/
theorem isMembers_prettyMembers {depth : Nat} {rest : List (String × Json)}
    (h : ∀ m ∈ rest, IsText m.2 (m.2.prettyAt depth).toList) {key : String} {value : Json}
    {cs cs' after : List Char} (hkey : IsText (.str key) cs) (hvalue : IsText value cs')
    (hafter : IsBlank after) :
    IsMembers ((key, value) :: rest)
      (cs ++ ':' :: cs' ++ (prettyMembers depth rest).toList ++ after) := by
  induction rest generalizing key value cs cs' with
  | nil =>
    have hlast := hvalue.padded isBlank_nil hafter
    rw [List.nil_append] at hlast
    have hmember := IsMembers.last hkey hlast
    simpa [prettyMembers] using hmember
  | cons m rest ih =>
    obtain ⟨key', value'⟩ := m
    rw [List.forall_mem_cons] at h
    have hkey' := (IsText.str (isQuoted_quote key')).padded (isBlank_newline depth) isBlank_nil
    have hspace : IsBlank [' '] := by simp [IsBlank]
    have hvalue' := h.1.padded hspace isBlank_nil
    have hrest := IsMembers.next hkey hvalue (List.cons_ne_nil (key', value') rest)
      (ih h.2 hkey' hvalue')
    simpa [prettyMembers] using hrest

theorem isText_prettyAt (j : Json) (depth : Nat) : IsText j (j.prettyAt depth).toList := by
  induction j using induction generalizing depth with
  | null =>
    rw [prettyAt]
    exact .null
  | bool value =>
    rw [prettyAt]
    cases value with
    | true => exact .true
    | false => exact .false
  | num value => exact .num (isNumeral_toString value)
  | str value => exact .str (isQuoted_quote value)
  | list items ih =>
    cases items with
    | nil =>
      rw [prettyAt]
      exact .list (.none isBlank_nil)
    | cons item rest =>
      have hitems := fun own hown => ih own hown (depth + 1)
      rw [List.forall_mem_cons] at hitems
      have hfirst := hitems.1.padded (isBlank_newline (depth + 1)) isBlank_nil
      have hlist := IsText.list (isItems_prettyItems hitems.2 hfirst (isBlank_newline depth))
      simpa [prettyAt] using hlist
  | obj members ih =>
    cases members with
    | nil =>
      rw [prettyAt]
      exact .obj (.none isBlank_nil)
    | cons m rest =>
      obtain ⟨key, value⟩ := m
      have hmembers := fun own hown => ih own hown (depth + 1)
      rw [List.forall_mem_cons] at hmembers
      have hkey :=
        (IsText.str (isQuoted_quote key)).padded (isBlank_newline (depth + 1)) isBlank_nil
      have hspace : IsBlank [' '] := by simp [IsBlank]
      have hvalue := hmembers.1.padded hspace isBlank_nil
      have hobj :=
        IsText.obj (isMembers_prettyMembers hmembers.2 hkey hvalue (isBlank_newline depth))
      simpa [prettyAt] using hobj

/-- The printed form of a value is a text of it. -/
theorem isText_pretty (j : Json) : IsText j j.pretty.toList :=
  j.isText_prettyAt 0

end ClassLens.Report.Json
