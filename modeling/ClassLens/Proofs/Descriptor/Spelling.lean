/-
Spelling: a descriptor that is written out is read back.

Reading goes from left to right and never back, so the types of a list are read one
after the other whatever follows them: brackets count dimensions, a letter is a type
by itself, and the name of a class goes on to its semicolon, be there parentheses,
brackets or letters of other types in it. Only a semicolon in the name, or more
brackets than are allowed, would be taken for something else.

What is counted off a descriptor that has been read is what was written, so the
number of values that a call consumes can be told from the types of its parameters.
-/
import ClassLens.Forest.Arity
import ClassLens.Proofs.Pattern.Signature

set_option autoImplicit false

namespace ClassLens

/-! ## Types that can be spelled -/

namespace TypeDescriptor

/-- What is written for the type is taken for it: there are no more dimensions than
are allowed, and no semicolon in the name of a class. -/
structure IsLegible (t : TypeDescriptor) : Prop where
  dimensions : t.dimensions ≤ DescriptorToken.maxDimensions
  name : ∀ name, t.element = .object name → ';' ∉ name.toList

/-- The type of a field or a parameter: anything that can be written but `void` and
arrays of it. -/
structure IsField (t : TypeDescriptor) : Prop extends t.IsLegible where
  ne_void : t.element ≠ .void

/-- The type of a result: that of a field, or `void`. -/
def IsResult (t : TypeDescriptor) : Prop :=
  t = ⟨0, .void⟩ ∨ t.IsField

theorem IsResult.isLegible {t : TypeDescriptor} (h : t.IsResult) : t.IsLegible := by
  rcases h with rfl | h
  · exact ⟨Nat.zero_le _, nofun⟩
  · exact h.toIsLegible

end TypeDescriptor

/-! ## Reading one type -/

namespace DescriptorToken

open TypeDescriptor

/-- Brackets are counted. -/
theorem scan_brackets (n : Nat) {k : Nat} (h : k + n ≤ maxDimensions) (cs : List Char) :
    scan k (List.replicate n '[' ++ cs) = scan (k + n) cs := by
  induction n generalizing k with
  | zero => rfl
  | succ n ih =>
    rw [List.replicate_succ, List.cons_append, scan, if_pos rfl, if_neg (by omega), ih (by omega),
      Nat.add_right_comm, Nat.add_assoc]

/-- The name of a class goes on to its semicolon. -/
theorem scan_object {name : String} (h : ';' ∉ name.toList) (k : Nat) (rest : List Char) :
    scan k (elementChars (.object name) ++ rest) = .ok (.type ⟨k, .object name⟩, rest) := by
  have hname : ∀ c ∈ name.toList, (c != ';') = true := by
    intro c hc
    rw [bne_iff_ne]
    rintro rfl
    exact h hc
  have hstop : (';' != ';') = false := by decide
  rw [elementChars, List.append_assoc, List.cons_append, scan, if_neg (by decide),
    if_neg (by decide), if_pos rfl, List.singleton_append, List.dropWhile_append_of_pos hname,
    List.takeWhile_append_of_pos hname, List.dropWhile_cons, List.takeWhile_cons, hstop]
  simp

theorem scan_element {e : ElementType} (h : ∀ name, e = .object name → ';' ∉ name.toList) (k : Nat)
    (rest : List Char) : scan k (elementChars e ++ rest) = .ok (.type ⟨k, e⟩, rest) := by
  cases e with
  | void => rfl
  | primitive p => cases p <;> rfl
  | object name => exact scan_object (h name rfl) k rest

/-- A type that is written out is read back, whatever follows. -/
theorem scan_chars {t : TypeDescriptor} (h : t.IsLegible) (rest : List Char) :
    scan 0 (t.chars ++ rest) = .ok (.type t, rest) := by
  rw [chars, List.append_assoc, scan_brackets _ (by rw [Nat.zero_add]; exact h.dimensions),
    Nat.zero_add, scan_element h.name]

end DescriptorToken

/-! ## Reading a descriptor -/

namespace MethodDescriptor

variable {ts read : List TypeDescriptor} {t r : TypeDescriptor} {cs rest : List Char}

theorem scanParameters_of_close (h : DescriptorToken.scan 0 cs = .ok (.close, rest)) :
    scanParameters read cs = .ok (read.reverse, rest) := by
  rw [scanParameters]
  split <;> simp_all

theorem scanParameters_of_type (h : DescriptorToken.scan 0 cs = .ok (.type t, rest)) :
    scanParameters read cs = scanParameters (t :: read) rest := by
  rw [scanParameters]
  split <;> simp_all

/-- The parameters are read one after the other, up to the parenthesis behind them
and no further. -/
theorem scanParameters_chars (h : ∀ t ∈ ts, t.IsLegible) :
    scanParameters read (ts.flatMap TypeDescriptor.chars ++ ')' :: rest) =
      .ok (read.reverse ++ ts, rest) := by
  induction ts generalizing read with
  | nil =>
    rw [List.flatMap_nil, List.nil_append, List.append_nil]
    exact scanParameters_of_close rfl
  | cons t ts ih =>
    rw [List.forall_mem_cons] at h
    -- The other types and the parenthesis are what follows the first type.
    rw [List.flatMap_cons, List.append_assoc,
      scanParameters_of_type (DescriptorToken.scan_chars h.1 _), ih h.2, List.reverse_cons,
      List.append_assoc, List.singleton_append]

/-- A descriptor that is written out is read back. -/
theorem parse_text (hts : ∀ t ∈ ts, t.IsLegible) (hr : r.IsLegible) :
    parse (text ⟨ts, r⟩) = .ok ⟨ts, r⟩ := by
  have hresult : DescriptorToken.scan 0 r.chars = .ok (.type r, []) := by
    have := DescriptorToken.scan_chars hr []
    rwa [List.append_nil] at this
  rw [parse, text, String.toList_ofList, chars, List.cons_append]
  simp only [ofChars, scanParameters_chars hts, hresult, List.reverse_nil, List.nil_append]

end MethodDescriptor

/-! ## Counting slots -/

theorem TypeDescriptor.slots_eq (t : TypeDescriptor) :
    t.slots = 1 + ((if t = ⟨0, .primitive .long⟩ then 1 else 0) +
      if t = ⟨0, .primitive .double⟩ then 1 else 0) := by
  rw [slots]
  by_cases hlong : t = ⟨0, .primitive .long⟩
  · subst hlong
    rfl
  · simp only [hlong, false_or, if_false]
    split_ifs <;> rfl

/-- One slot a type, and one more for each `long` and each `double`. -/
theorem natSum_slots (ts : List TypeDescriptor) :
    natSum (ts.map TypeDescriptor.slots) =
      ts.length + (ts.count ⟨0, .primitive .long⟩ + ts.count ⟨0, .primitive .double⟩) := by
  induction ts with
  | nil => rfl
  | cons t ts ih =>
    rw [List.map_cons, natSum_cons, ih, TypeDescriptor.slots_eq, List.length_cons, List.count_cons,
      List.count_cons]
    simp only [beq_iff_eq]
    omega

/-! ## Calls -/

/-- What is known of a method, and of the calls to it, from the types that its
descriptor is written with. All of the types are read back, so the parameters are
counted, and a result of `void` is told from all others. A call consumes a value a
parameter, one more for each `long` and `double`, and the object it is made on if
it is made on one. An array takes one slot, whatever it is an array of. -/
theorem call_arity_of_spelling {ts : List TypeDescriptor} {r : TypeDescriptor}
    (hts : ∀ t ∈ ts, t.IsField) (hr : r.IsResult) :
    (∃ d, MethodDescriptor.parse (MethodDescriptor.text ⟨ts, r⟩) = .ok d ∧
      d.parameterCount = ts.length ∧
      d.argumentSlots =
        ts.length + (ts.count ⟨0, .primitive .long⟩ + ts.count ⟨0, .primitive .double⟩) ∧
      (d.returnsVoid = true ↔ r = ⟨0, .void⟩)) ∧
    (∀ (i : Instruction) (site : CallSite) (m : Method),
      ArityClass.of i.opcode = .nary → i.operand = .call site →
      site.descriptor = MethodDescriptor.text ⟨ts, r⟩ →
      i.arity m = .ok
        (ts.length + (ts.count ⟨0, .primitive .long⟩ + ts.count ⟨0, .primitive .double⟩) +
          if site.kind = .virtual ∨ site.kind = .interface ∨ site.kind = .special then 1
          else 0)) ∧
    ∀ m : Method, m.descriptor = MethodDescriptor.text ⟨ts, r⟩ →
      ("NoParams" ∈ Catalog.builtin.matchSimple m ↔ ts = []) ∧
      ("NoReturn" ∈ Catalog.builtin.matchSimple m ↔ r = ⟨0, .void⟩) := by
  have hparse := MethodDescriptor.parse_text (fun t ht => (hts t ht).toIsLegible) hr.isLegible
  have hslots : MethodDescriptor.argumentSlots ⟨ts, r⟩ =
      ts.length + (ts.count ⟨0, .primitive .long⟩ + ts.count ⟨0, .primitive .double⟩) :=
    natSum_slots ts
  refine ⟨⟨_, hparse, rfl, hslots, by simp [MethodDescriptor.returnsVoid]⟩, ?_, ?_⟩
  -- The descriptor of the method does not matter to a call in it.
  · intro i site m hnary hsite hdescriptor
    have hsignature : i.signature site.descriptor = .ok ⟨ts, r⟩ := by
      rw [Instruction.signature, hdescriptor, hparse]
    have hreceiver : site.kind.hasReceiver = true ↔
        site.kind = .virtual ∨ site.kind = .interface ∨ site.kind = .special := by
      cases site.kind <;> simp [CallKind.hasReceiver]
    rw [Instruction.arity, hnary]
    simp only [Instruction.naryArity, hsite, hsignature, hreceiver, ← hslots]
    rfl
  · intro m hdescriptor
    rw [noParams_mem_iff, noReturn_mem_iff]
    simp [Method.takesNothing, Method.returnsNothing, Method.signature?, hdescriptor, hparse,
      Except.toOption, MethodDescriptor.parameterCount, MethodDescriptor.returnsVoid]

/-- A class whose name reads like the rest of a descriptor. -/
def misleadingName : ElementType :=
  .object "a)V(J[D"

/-- A long, a double, arrays of both, and a class and an array of it whose name has
parentheses, brackets and the letters of other types in it. -/
def misleadingTypes : List TypeDescriptor :=
  [⟨0, .primitive .long⟩, ⟨2, .primitive .long⟩, ⟨0, misleadingName⟩, ⟨0, .primitive .double⟩,
    ⟨1, .primitive .double⟩, ⟨1, misleadingName⟩]

/-- A call on an object, with `misleadingTypes`. -/
def misleadingCall : Instruction where
  index := 7
  offset := 40
  opcode := 0xb6
  operand := .call ⟨"a/B", "m", "(J[[JLa)V(J[D;D[D[La)V(J[D;)V", .virtual, 40⟩

/-- A method of the same descriptor. -/
def misleadingMethod : Method where
  owner := "a/B"
  name := "m"
  descriptor := "(J[[JLa)V(J[D;D[D[La)V(J[D;)V"
  access := { isPublic := true, isStatic := false, isAbstract := true }
  instructions := []
  handlers := []

/-- Six types, two of them of two slots, and the object the call is made on. -/
theorem call_arity_of_spelling_misleading :
    (∀ t ∈ misleadingTypes, t.IsField) ∧
    (⟨0, .void⟩ : TypeDescriptor).IsResult ∧
    misleadingCall.arity misleadingMethod = .ok 9 ∧
    "NoParams" ∉ Catalog.builtin.matchSimple misleadingMethod ∧
    "NoReturn" ∈ Catalog.builtin.matchSimple misleadingMethod := by
  have hname : ∀ name, misleadingName = .object name → ';' ∉ name.toList := by
    intro name h
    rw [misleadingName, ElementType.object.injEq] at h
    rw [← h]
    decide
  have hts : ∀ t ∈ misleadingTypes, t.IsField := by
    intro t ht
    simp only [misleadingTypes, List.mem_cons, List.not_mem_nil, or_false] at ht
    rcases ht with rfl | rfl | rfl | rfl | rfl | rfl
    · exact ⟨⟨by decide, nofun⟩, nofun⟩
    · exact ⟨⟨by decide, nofun⟩, nofun⟩
    · exact ⟨⟨by decide, hname⟩, nofun⟩
    · exact ⟨⟨by decide, nofun⟩, nofun⟩
    · exact ⟨⟨by decide, nofun⟩, nofun⟩
    · exact ⟨⟨by decide, hname⟩, nofun⟩
  have hr : (⟨0, .void⟩ : TypeDescriptor).IsResult := .inl rfl
  have htext : misleadingMethod.descriptor =
      MethodDescriptor.text ⟨misleadingTypes, ⟨0, .void⟩⟩ := by decide
  obtain ⟨-, harity, hpatterns⟩ := call_arity_of_spelling hts hr
  obtain ⟨hparams, hreturn⟩ := hpatterns misleadingMethod htext
  refine ⟨hts, hr, ?_, ?_, hreturn.mpr rfl⟩
  · have hcall := harity misleadingCall _ misleadingMethod (by decide) rfl htext
    rw [hcall]
    decide
  · rw [hparams]
    nofun

end ClassLens
