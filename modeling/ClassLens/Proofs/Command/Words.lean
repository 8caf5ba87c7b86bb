/-
Words: what they say, and what is read from them.

The value of a setting stands behind its name, in the same word or in the next one
(`Gives`). That says nothing of the order in which words are read, and it need not: a
word that is taken for a value is never in the form of an option, so the name of a
setting is one wherever it stands.
-/
import ClassLens.Command.Options

set_option autoImplicit false

namespace ClassLens

/-! ## Texts of the system -/

namespace OsText

theorem ofString_append (s s' : String) : ofString (s ++ s') = ofString s ++ ofString s' := by
  simp [ofString]

/-- What can be had as a text is that text as the system has it. -/
theorem text?_eq_some_iff {t : OsText} {s : String} : t.text? = some s ↔ t = ofString s := by
  rw [text?, String.fromUTF8?]
  constructor
  · intro h
    split at h
    case isTrue =>
      rw [← Option.some.inj h]
      rfl
    case isFalse => simp at h
  · rintro rfl
    have hbytes : (⟨(ofString s).toArray⟩ : ByteArray) = s.toByteArray := rfl
    rw [hbytes, dif_pos s.isValidUTF8]
    rfl

end OsText

namespace Command

variable {o o' : Options} {s s' : Setting} {f : Flag} {task : Task} {words : List OsText}
  {text name value own word cs : OsText} {attached : Option OsText} {letters : List UInt8}

/-! ## Forms of words -/

/-- What is behind a long name in its word. -/
def attachment : Option OsText → OsText
  | none => []
  | some value => equalsSign :: value

theorem Word.ofLong_eq_iff (hname : equalsSign ∉ name) :
    Word.ofLong cs = .long name attached ↔ cs = name ++ attachment attached := by
  have hne : ∀ c ∈ name, (c != equalsSign) = true := fun c hc =>
    bne_iff_ne.mpr fun heq => hname (heq ▸ hc)
  constructor
  · intro h
    have hcut := List.takeWhile_append_dropWhile (p := (· != equalsSign)) (l := cs)
    rw [ofLong] at h
    cases hrest : cs.dropWhile (· != equalsSign) with
    | nil =>
      simp only [hrest, Word.long.injEq] at h
      obtain ⟨rfl, rfl⟩ := h
      rw [attachment, ← hrest, hcut]
    | cons c rest =>
      have hstop := List.head?_dropWhile_not (· != equalsSign) cs
      obtain rfl : c = equalsSign := by simpa [hrest] using hstop
      simp only [hrest, Word.long.injEq] at h
      obtain ⟨rfl, rfl⟩ := h
      rw [attachment, ← hrest, hcut]
  · rintro rfl
    rw [ofLong, List.takeWhile_append_of_pos hne, List.dropWhile_append_of_pos hne]
    cases attached <;> simp [attachment]

/-- The word of a long name is known by its bytes. -/
theorem Word.of_eq_long_iff (hname : equalsSign ∉ name) (hne : name ≠ []) :
    Word.of text = .long name attached ↔
      text = dash :: dash :: (name ++ attachment attached) := by
  constructor
  · intro h
    rw [Word.of.eq_def] at h
    -- All other forms of a word stand in front of the long one.
    split at h
    case h_1 => simp at h
    case h_2 first rest =>
      split at h
      case isTrue => simp at h
      case isFalse hfirst =>
        split at h
        case h_1 => simp at h
        case h_2 second rest =>
          split at h
          case isTrue => simp at h
          case isFalse hsecond =>
            split at h
            case isTrue => simp at h
            case isFalse =>
              rw [Decidable.not_not.mp hfirst, Decidable.not_not.mp hsecond,
                (ofLong_eq_iff hname).mp h]
  · rintro rfl
    have hempty : (name ++ attachment attached).isEmpty = false := by
      cases name with
      | nil => exact absurd rfl hne
      | cons c cs => rfl
    simp only [Word.of, ne_eq, not_true_eq_false, if_false, hempty, Bool.false_eq_true]
    exact (ofLong_eq_iff hname).mpr rfl

/-! ## Settings -/

/-- The long name of a setting. -/
def Setting.longName : Setting → String
  | .input => "input"
  | .output => "output"

theorem Setting.ofString_longName_inj :
    OsText.ofString s.longName = OsText.ofString s'.longName ↔ s = s' := by
  cases s <;> cases s' <;> decide

theorem Meaning.ofName?_eq_setting_iff :
    Meaning.ofName? text = some (.setting s) ↔ text = .ofString s.longName := by
  rw [← OsText.text?_eq_some_iff, ofName?.eq_def]
  constructor
  · intro h
    split at h <;> simp at h
    all_goals
      subst h
      assumption
  · intro h
    rw [h]
    cases s <;> rfl

theorem Word.of_eq_longName_iff : Word.of word = .long (.ofString s.longName) attached ↔
    word = .ofString ("--" ++ s.longName) ++ attachment attached := by
  have hdashes : OsText.ofString "--" = [dash, dash] := by decide
  rw [Word.of_eq_long_iff (by cases s <;> decide) (by cases s <;> decide),
    OsText.ofString_append, hdashes]
  rfl

/-- Words give a setting a value: its name is one of them, and the value is the next one
or attached to it. -/
def Gives (words : List OsText) (s : Setting) (value : OsText) : Prop :=
  [.ofString ("--" ++ s.longName), value] <:+: words ∨
    .ofString ("--" ++ s.longName ++ "=") ++ value ∈ words

theorem gives_cons : Gives (word :: words) s value ↔
    Word.of word = .long (.ofString s.longName) none ∧ words.head? = some value ∨
      Word.of word = .long (.ofString s.longName) (some value) ∨ Gives words s value := by
  have hnext : [value] <+: words ↔ words.head? = some value := by
    cases words <;> simp [List.cons_prefix_cons, eq_comm]
  have hname : .ofString ("--" ++ s.longName) = word ↔
      Word.of word = .long (.ofString s.longName) none := by
    rw [Word.of_eq_longName_iff, attachment, List.append_nil, eq_comm]
  have hvalue : .ofString ("--" ++ s.longName ++ "=") ++ value = word ↔
      Word.of word = .long (.ofString s.longName) (some value) := by
    have hsign : OsText.ofString "=" = [equalsSign] := by decide
    rw [Word.of_eq_longName_iff, attachment, OsText.ofString_append _ "=", hsign,
      List.append_assoc, List.singleton_append, eq_comm]
  rw [Gives, Gives, List.infix_cons_iff, List.cons_prefix_cons, List.mem_cons, hnext, hname, hvalue,
    or_assoc, or_left_comm (b := _ = Word.long _ _)]

/-- A word that does not name the setting gives it nothing. -/
theorem gives_cons_of_ne (h : ∀ attached, Word.of word ≠ .long (.ofString s.longName) attached) :
    Gives (word :: words) s value ↔ Gives words s value := by
  rw [gives_cons]
  simp [h]

theorem gives_cons_of_attached (h : Word.of word = .long (.ofString s'.longName) (some own)) :
    Gives (word :: words) s value ↔ s = s' ∧ value = own ∨ Gives words s value := by
  rw [gives_cons, h]
  simp [Setting.ofString_longName_inj, eq_comm]

/-- The next word is the value, and no name of a setting. -/
theorem gives_cons_of_next (h : Word.of word = .long (.ofString s'.longName) none)
    (hown : Word.of own = .plain) :
    Gives (word :: own :: words) s value ↔ s = s' ∧ value = own ∨ Gives words s value := by
  rw [gives_cons, h, gives_cons_of_ne (by simp [hown])]
  simp [Setting.ofString_longName_inj, eq_comm]

/-! ## Reading -/

theorem value?_of_giveFlag? (h : o.giveFlag? f = some o') (s : Setting) :
    o'.value? s = o.value? s := by
  rw [Options.giveFlag?.eq_def] at h
  split at h
  case isTrue => simp at h
  case isFalse =>
    obtain rfl := Option.some.inj h
    cases f <;> cases s <;> rfl

/-- A setting that has a value keeps it, as it cannot be given another. -/
theorem value?_of_giveValue? (h : o.giveValue? s' own = some o') :
    o'.value? s = some value ↔ o.value? s = some value ∨ s = s' ∧ value = own := by
  rw [Options.giveValue?.eq_def] at h
  split at h
  case isTrue => simp at h
  case isFalse hfree =>
    obtain rfl := Option.some.inj h
    rw [Bool.or_eq_true, not_or, Option.not_isSome_iff_eq_none] at hfree
    obtain ⟨-, hnone⟩ := hfree
    cases s <;> cases s' <;> simp_all [Options.value?, eq_comm (a := own)]

theorem value?_of_readLetters (h : readLetters o letters = .ok o') (s : Setting) :
    o'.value? s = o.value? s := by
  fun_induction readLetters o letters
  case case1 => rw [Except.ok.inj h]
  case case2 hgive ih => rw [ih h, value?_of_giveFlag? hgive]
  all_goals simp at h

theorem readLetters_ne_perform : readLetters o letters ≠ .error (.perform task o') := by
  fun_induction readLetters o letters <;> simp_all

theorem Request.eq_of_ofOptions (h : ofOptions o = .perform task o') : o = o' := by
  rw [ofOptions] at h
  split at h
  case isTrue => exact (Request.perform.inj h).2
  case isFalse =>
    cases hinput : o.input with
    | none => simp [hinput] at h
    | some path =>
      rw [hinput] at h
      exact (Request.perform.inj h).2

/-- If all words are read, a setting has the value that it had, or that they give it. -/
theorem value?_of_ofWordsFrom (h : Request.ofWordsFrom o words = .perform task o') :
    o'.value? s = some value ↔ o.value? s = some value ∨ Gives words s value := by
  fun_induction Request.ofWordsFrom o words
  -- no word is left, or the one behind which there are no options
  case case1 =>
    rw [Request.eq_of_ofOptions h]
    simp [Gives]
  case case3 word rest hword hrest =>
    rw [Request.eq_of_ofOptions h, gives_cons_of_ne (by simp [hword]), List.isEmpty_iff.mp hrest]
    simp [Gives]
  -- letters
  case case5 hletters => exact absurd (h ▸ hletters) readLetters_ne_perform
  case case6 hword o₁ hletters ih =>
    rw [ih h, value?_of_readLetters hletters, gives_cons_of_ne (by simp [hword])]
  -- a flag
  case case9 hflag o₁ hgive hword ih =>
    rw [ih h, value?_of_giveFlag? hgive, gives_cons_of_ne]
    intro attached hlong
    rw [hword, Word.long.injEq] at hlong
    rw [hlong.1, Meaning.ofName?_eq_setting_iff.mpr rfl] at hflag
    simp at hflag
  -- a setting with its value, or before it
  case case11 hsetting o₁ hgive hword ih =>
    rw [Meaning.ofName?_eq_setting_iff.mp hsetting] at hword
    rw [ih h, value?_of_giveValue? hgive, gives_cons_of_attached hword, or_assoc]
  case case14 hsetting own rest hplain o₁ hgive hword ih =>
    rw [Meaning.ofName?_eq_setting_iff.mp hsetting] at hword
    rw [ih h, value?_of_giveValue? hgive, gives_cons_of_next hword hplain, or_assoc]
  all_goals simp at h

/-- The value of a setting is the one that the words give it. -/
theorem value?_of_ofWords (h : Request.ofWords words = .perform task o) :
    o.value? s = some value ↔ Gives words s value := by
  rw [value?_of_ofWordsFrom h]
  cases s <;> simp [Options.value?]

end Command

end ClassLens
