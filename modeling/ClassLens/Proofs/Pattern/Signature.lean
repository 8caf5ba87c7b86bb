/-
Signatures: what the patterns that look at a method's own descriptor say of it.

Two of them read the descriptor, and say nothing of one that cannot be read. The
third, for methods that give back their own class, never reads it: it looks at
the characters behind the last closing parenthesis. `isChained_iff` says what it
finds there, in any text at all. The two ways of looking agree on a descriptor
that is spelled out in full and whose result has no parenthesis in its name, and
not in general: the text may fail to be a descriptor, there may be more text
behind the result, and a class may have any name.
-/
import ClassLens.Pattern.Builtin
import ClassLens.Proofs.Pattern.Matching

set_option autoImplicit false

namespace ClassLens

/-! ## The characters behind the last parenthesis -/

namespace MethodDescriptor

theorem resultChars?_append {before rest : List Char} (h : ')' ∉ rest) :
    resultChars? (before ++ ')' :: rest) = some rest := by
  have hall : ∀ c ∈ rest.reverse, (c != ')') = true := by
    intro c hc
    rw [bne_iff_ne]
    rintro rfl
    exact h (List.mem_reverse.mp hc)
  have hmem : ')' ∈ before ++ ')' :: rest := List.mem_append_right _ List.mem_cons_self
  have hstop : (')' != ')') = false := by decide
  rw [resultChars?, if_pos hmem, List.reverse_append, List.reverse_cons, List.append_assoc,
    List.takeWhile_append_of_pos hall, List.singleton_append, List.takeWhile_cons, hstop]
  simp

theorem resultChars?_eq_some_iff {cs rest : List Char} :
    resultChars? cs = some rest ↔ ∃ before, cs = before ++ ')' :: rest ∧ ')' ∉ rest := by
  constructor
  · intro h
    have hmem : ')' ∈ cs := by
      by_contra hnot
      simp [resultChars?, hnot] at h
    -- The last parenthesis is the first one from the back.
    obtain ⟨after, before, hcut, hafter⟩ :=
      List.eq_append_cons_of_mem (List.mem_reverse.mpr hmem)
    have hcs : cs = before.reverse ++ ')' :: after.reverse := by
      rw [← List.reverse_reverse cs, hcut]
      simp
    have hrest : ')' ∉ after.reverse := fun hc => hafter (List.mem_reverse.mp hc)
    rw [hcs, resultChars?_append hrest, Option.some.injEq] at h
    exact ⟨before.reverse, h ▸ hcs, h ▸ hrest⟩
  · rintro ⟨before, rfl, hrest⟩
    exact resultChars?_append hrest

/-- A text ends in a class of some name, as the shortcut sees it. -/
theorem returnsClass_iff {text owner : String} :
    returnsClass text owner = true ↔
      ∃ before, text.toList = before ++ [')', 'L'] ++ owner.toList ++ [';'] ∧
        ')' ∉ owner.toList := by
  rw [returnsClass, beq_iff_eq, resultChars?_eq_some_iff]
  have hmem : ')' ∈ 'L' :: owner.toList ++ [';'] ↔ ')' ∈ owner.toList := by simp
  rw [hmem]
  simp

end MethodDescriptor

/-- A type that is written as a class is one. -/
theorem TypeDescriptor.chars_eq_iff {t : TypeDescriptor} {name : String} :
    t.chars = 'L' :: name.toList ++ [';'] ↔ t = ⟨0, .object name⟩ := by
  constructor
  · intro h
    obtain ⟨dimensions, element⟩ := t
    cases dimensions with
    | succ n => simp [chars, List.replicate_succ] at h
    | zero =>
      cases element with
      | void => simp [chars, elementChars] at h
      | primitive p => cases p <;> simp [chars, elementChars, Primitive.letter] at h
      | object own =>
        simp only [chars, elementChars, List.replicate_zero, List.nil_append, List.cons_append,
          List.cons.injEq, true_and, List.append_cancel_right_eq] at h
        rw [String.toList_inj.mp h]
  · rintro rfl
    rfl

namespace MethodDescriptor

/-- In a full spelling the last parenthesis is the one before the result, unless
there is one in the name of a class. -/
theorem returnsClass_text {d : MethodDescriptor} (h : ')' ∉ d.result.chars) (owner : String) :
    returnsClass d.text owner = true ↔ d.result = ⟨0, .object owner⟩ := by
  have hchars : d.text.toList =
      ('(' :: d.parameters.flatMap TypeDescriptor.chars) ++ ')' :: d.result.chars := by
    rw [text, String.toList_ofList, chars]
  rw [returnsClass, beq_iff_eq, hchars, resultChars?_append h, Option.some.injEq,
    TypeDescriptor.chars_eq_iff]

end MethodDescriptor

/-! ## The patterns of a signature -/

variable {m : Method}

theorem Catalog.name_mem_builtin_iff {name description : String} {category : PatternCategory}
    {holds : Method → Bool} (h : ⟨name, category, description, .method holds⟩ ∈ simplePatterns) :
    name ∈ builtin.matchSimple m ↔ holds m = true := by
  have hp : ⟨name, category, description, .method holds⟩ ∈ builtin.patterns :=
    List.mem_append_left _ h
  exact name_mem_iff hp (·.holdsFor m)

theorem noParams_mem_iff :
    "NoParams" ∈ Catalog.builtin.matchSimple m ↔ m.takesNothing = true :=
  Catalog.name_mem_builtin_iff (.head _)

theorem noReturn_mem_iff :
    "NoReturn" ∈ Catalog.builtin.matchSimple m ↔ m.returnsNothing = true :=
  Catalog.name_mem_builtin_iff (.tail _ (.head _))

theorem chained_mem_iff :
    "Chained" ∈ Catalog.builtin.matchSimple m ↔ m.isChained = true :=
  Catalog.name_mem_builtin_iff (.tail _ (.tail _ (.head _)))

theorem isChained_iff :
    m.isChained = true ↔
      m.isInstance = true ∧ MethodDescriptor.returnsClass m.descriptor m.owner = true := by
  rw [Method.isChained, Bool.and_eq_true]

/-- What the patterns of a signature say. The first two go by the descriptor, and
are not shown by a method whose descriptor cannot be read. The third goes by the
text: a method shows it that is called on an object and whose descriptor, read or
not, ends in its own class behind the last parenthesis. Where the text is the
full spelling of a descriptor and its result has no parenthesis in it, that is so
exactly if the result is the class of the method. -/
theorem signature_patterns (m : Method) :
    (∀ e, MethodDescriptor.parse m.descriptor = .error e →
      "NoParams" ∉ Catalog.builtin.matchSimple m ∧
      "NoReturn" ∉ Catalog.builtin.matchSimple m) ∧
    (∀ d, MethodDescriptor.parse m.descriptor = .ok d →
      ("NoParams" ∈ Catalog.builtin.matchSimple m ↔ d.parameters = []) ∧
      ("NoReturn" ∈ Catalog.builtin.matchSimple m ↔ d.result = ⟨0, .void⟩)) ∧
    ("Chained" ∈ Catalog.builtin.matchSimple m ↔
      m.isInstance = true ∧
      ∃ before, m.descriptor.toList = before ++ [')', 'L'] ++ m.owner.toList ++ [';'] ∧
        ')' ∉ m.owner.toList) ∧
    ∀ d, MethodDescriptor.parse m.descriptor = .ok d →
      m.descriptor = d.text → ')' ∉ d.result.chars →
      ("Chained" ∈ Catalog.builtin.matchSimple m ↔
        m.isInstance = true ∧ d.result = ⟨0, .object m.owner⟩) := by
  rw [noParams_mem_iff, noReturn_mem_iff, chained_mem_iff, isChained_iff]
  refine ⟨?_, ?_, ?_, ?_⟩
  · intro e he
    simp [Method.takesNothing, Method.returnsNothing, Method.signature?, he, Except.toOption]
  · intro d hd
    simp [Method.takesNothing, Method.returnsNothing, Method.signature?, hd, Except.toOption,
      MethodDescriptor.parameterCount, MethodDescriptor.returnsVoid]
  · rw [MethodDescriptor.returnsClass_iff]
  · intro d _ htext hresult
    rw [htext, MethodDescriptor.returnsClass_text hresult]

/-- A method of a class that builds text, called on an object. -/
def builderMethod (descriptor : String) : Method where
  owner := "a/Builder"
  name := "put"
  descriptor := descriptor
  access := { isPublic := true, isStatic := false, isAbstract := true }
  instructions := []
  handlers := []

theorem signature_patterns_builder :
    MethodDescriptor.parse "(I)La/Builder;" =
      .ok ⟨[⟨0, .primitive .int⟩], ⟨0, .object "a/Builder"⟩⟩ ∧
    "NoParams" ∉ Catalog.builtin.matchSimple (builderMethod "(I)La/Builder;") ∧
    "Chained" ∈ Catalog.builtin.matchSimple (builderMethod "(I)La/Builder;") := by
  have hparse : MethodDescriptor.parse "(I)La/Builder;" =
      .ok ⟨[⟨0, .primitive .int⟩], ⟨0, .object "a/Builder"⟩⟩ := by decide +kernel
  obtain ⟨-, hread, -, hchained⟩ := signature_patterns (builderMethod "(I)La/Builder;")
  refine ⟨hparse, ?_, (hchained _ hparse ?_ ?_).mpr ?_⟩
  · rw [(hread _ hparse).1]
    simp
  · decide
  · decide
  · exact ⟨rfl, rfl⟩

/-- A method shows that it gives back its own class although its descriptor, with
a parameter of no type, cannot be read. -/
theorem chained_of_unreadable :
    MethodDescriptor.parse "(X)La/Builder;" = .error .unrecognized ∧
    "Chained" ∈ Catalog.builtin.matchSimple (builderMethod "(X)La/Builder;") := by
  refine ⟨by decide +kernel, chained_mem_iff.mpr ?_⟩
  decide

end ClassLens
