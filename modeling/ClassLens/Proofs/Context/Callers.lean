/-
Callers: the calls that a context finds by key, and what the patterns say of the same
calls.

There are two ways of asking whether a method calls another. The patterns compare
owner, name and descriptor, each for itself. A search for callers compares keys, in
which the three are run together. Where the parts agree the keys do, so a method that
calls itself is among the callers of its key. The converse needs that a key can be
cut back into its parts (`key_eq_iff`): the first dot has to end the owner, and the
first parenthesis behind it the name.

Both ways look at `Method.methodCalls` and at nothing else of the code, and dynamic
calls are not among these. So all dynamic calls can be dropped and no answer changes,
and two methods that differ in dynamic calls only are answered for alike.
-/
import ClassLens.Proofs.Context.Answers
import ClassLens.Proofs.Context.Keys
import ClassLens.Proofs.Pattern.Signature

set_option autoImplicit false

namespace ClassLens

/-! ## Keys and their parts -/

/-- Texts are cut at the first place of a character in the same way. -/
theorem append_cons_inj_of_first {a : Char} {front front' back back' : List Char}
    (h : a ∉ front) (h' : a ∉ front') :
    front ++ a :: back = front' ++ a :: back' ↔ front = front' ∧ back = back' := by
  induction front generalizing front' with
  | nil =>
    cases front' with
    | nil => simp
    | cons b front' =>
      have hne : a ≠ b := fun hab => h' (hab ▸ List.mem_cons_self)
      simp [hne]
  | cons b front ih =>
    cases front' with
    | nil =>
      have hne : b ≠ a := fun hba => h (hba ▸ List.mem_cons_self)
      simp [hne]
    | cons b' front' =>
      have hrest := ih (fun hmem => h (List.mem_cons_of_mem b hmem))
        fun hmem => h' (List.mem_cons_of_mem b' hmem)
      simp [hrest, and_assoc]

/-- Parts that a key can be cut back into. -/
structure Separable (owner name descriptor : String) : Prop where
  owner : '.' ∉ owner.toList
  name : '(' ∉ name.toList
  descriptor : ∃ rest, descriptor.toList = '(' :: rest

/-- Keys of separable parts agree only if the parts do. -/
theorem key_eq_iff {owner name descriptor owner' name' descriptor' : String}
    (h : Separable owner name descriptor) (h' : Separable owner' name' descriptor') :
    owner ++ "." ++ name ++ descriptor = owner' ++ "." ++ name' ++ descriptor' ↔
      owner = owner' ∧ name = name' ∧ descriptor = descriptor' := by
  obtain ⟨rest, hrest⟩ := h.descriptor
  obtain ⟨rest', hrest'⟩ := h'.descriptor
  have hdot : ".".toList = ['.'] := rfl
  simp only [← String.toList_inj, String.toList_append, hdot, List.append_assoc,
    List.cons_append, List.nil_append]
  rw [append_cons_inj_of_first h.owner h'.owner, hrest, hrest',
    append_cons_inj_of_first h.name h'.name, List.cons.injEq]
  simp

/-! ## Calls that name a method -/

namespace Method

variable {m : Method} {site : CallSite}

theorem mem_methodCalls_iff :
    site ∈ m.methodCalls ↔
      ∃ i ∈ m.instructions, i.operand = .call site ∧ site.kind ≠ .dynamic := by
  rw [methodCalls, List.mem_filter, calls, List.mem_filterMap, bne_iff_ne]
  constructor
  · rintro ⟨⟨i, hi, hsite⟩, hkind⟩
    refine ⟨i, hi, ?_, hkind⟩
    split at hsite
    case h_1 own hown => rw [hown, Option.some.inj hsite]
    case h_2 => simp at hsite
  · rintro ⟨i, hi, hsite, hkind⟩
    exact ⟨⟨i, hi, by rw [hsite]⟩, hkind⟩

theorem isRecursive_iff :
    m.isRecursive = true ↔ ∃ site ∈ m.methodCalls,
      site.owner = m.owner ∧ site.name = m.name ∧ site.descriptor = m.descriptor := by
  simp [isRecursive, and_assoc]

theorem isLeaf_iff : m.isLeaf = true ↔ ¬ ∃ site, site ∈ m.methodCalls := by
  rw [isLeaf, List.isEmpty_iff, List.eq_nil_iff_forall_not_mem, not_exists]

/-- A call of the method's name is to the method itself or to another of its name. -/
theorem isRecursive_or_callsSameName_iff :
    m.isRecursive = true ∨ m.callsSameName = true ↔
      ∃ site ∈ m.methodCalls, site.name = m.name := by
  simp only [isRecursive, callsSameName, List.any_eq_true, ← exists_or, ← and_or_left]
  refine exists_congr fun site => and_congr_right fun _ => ?_
  by_cases howner : site.owner = m.owner <;>
    by_cases hdescriptor : site.descriptor = m.descriptor <;> simp [howner, hdescriptor]

/-- The code has a call that is not dynamic and of which something holds. -/
def HasCall (m : Method) (holds : CallSite → Prop) : Prop :=
  ∃ i ∈ m.instructions, ∃ site, i.operand = .call site ∧ site.kind ≠ .dynamic ∧ holds site

theorem hasCall_iff {holds : CallSite → Prop} :
    m.HasCall holds ↔ ∃ site ∈ m.methodCalls, holds site := by
  simp only [mem_methodCalls_iff]
  constructor
  · rintro ⟨i, hi, site, hsite, hkind, hholds⟩
    exact ⟨site, ⟨i, hi, hsite, hkind⟩, hholds⟩
  · rintro ⟨site, ⟨i, hi, hsite, hkind⟩, hholds⟩
    exact ⟨i, hi, site, hsite, hkind, hholds⟩

/-- The method and the methods that it calls have keys that can be cut back into
their parts. -/
structure HasSeparableKeys (m : Method) : Prop where
  own : Separable m.owner m.name m.descriptor
  called : ∀ site ∈ m.methodCalls, Separable site.owner site.name site.descriptor

/-! ## Dropping dynamic calls -/

end Method

/-- Whether the instruction is a dynamic call. -/
def Instruction.isDynamicCall (i : Instruction) : Bool :=
  match i.operand with
  | .call site => site.kind == .dynamic
  | _ => false

namespace Method

/-- The method without its dynamic calls. -/
def withoutDynamic (m : Method) : Method :=
  { m with instructions := m.instructions.filter (!·.isDynamicCall) }

theorem methodCalls_withoutDynamic (m : Method) : m.withoutDynamic.methodCalls = m.methodCalls := by
  rw [methodCalls, methodCalls, calls, calls, withoutDynamic, List.filter_filterMap,
    List.filter_filterMap, List.filterMap_filter]
  congr 1
  funext i
  cases hoperand : i.operand with
  | call site =>
    cases hkind : site.kind <;> simp [Instruction.isDynamicCall, hoperand, hkind, Option.filter]
  | _ => simp [Instruction.isDynamicCall, hoperand]

theorem isRecursive_withoutDynamic (m : Method) :
    m.withoutDynamic.isRecursive = m.isRecursive := by
  rw [isRecursive, methodCalls_withoutDynamic]
  rfl

theorem callsSameName_withoutDynamic (m : Method) :
    m.withoutDynamic.callsSameName = m.callsSameName := by
  rw [callsSameName, methodCalls_withoutDynamic]
  rfl

theorem isLeaf_withoutDynamic (m : Method) : m.withoutDynamic.isLeaf = m.isLeaf := by
  rw [isLeaf, isLeaf, methodCalls_withoutDynamic]

end Method

/-- The class without the dynamic calls of its methods. -/
def Class.withoutDynamic (cls : Class) : Class :=
  { cls with methods := cls.methods.map Method.withoutDynamic }

/-! ## The patterns of calls -/

section

variable {m : Method}

theorem recursive_mem_iff :
    "Recursive" ∈ Catalog.builtin.matchSimple m ↔ m.isRecursive = true :=
  Catalog.name_mem_builtin_iff (.tail _ (.tail _ (.tail _ (.head _))))

theorem sameName_mem_iff :
    "SameName" ∈ Catalog.builtin.matchSimple m ↔ m.callsSameName = true :=
  Catalog.name_mem_builtin_iff (.tail _ (.tail _ (.tail _ (.tail _ (.head _)))))

theorem leaf_mem_iff : "Leaf" ∈ Catalog.builtin.matchSimple m ↔ m.isLeaf = true :=
  Catalog.name_mem_builtin_iff (.tail _ (.tail _ (.tail _ (.tail _ (.tail _ (.head _))))))

end

namespace Context

variable {c : Context} {slot : Slot} {m : Method} {key : String}

/-! ## Callers -/

theorem mem_callers_iff :
    (slot, m) ∈ c.callers key ↔
      c.methodAt? slot = some m ∧ ∃ site ∈ m.methodCalls, site.key = key := by
  rw [callers, List.mem_filter, mem_members_iff]
  simp

/-- Callers come in scan order, and none of them twice. -/
theorem pairwise_callers (c : Context) (key : String) :
    ((c.callers key).map (·.1)).Pairwise Slot.Precedes :=
  List.pairwise_map.mpr (c.pairwise_members.sublist List.filter_sublist)

theorem exists_mem_callers_iff (h : c.methodAt? slot = some m) :
    (∃ key, (slot, m) ∈ c.callers key) ↔ ∃ site, site ∈ m.methodCalls := by
  simp only [mem_callers_iff, h, true_and]
  exact ⟨fun ⟨_, site, hsite, _⟩ => ⟨site, hsite⟩, fun ⟨site, hsite⟩ => ⟨_, site, hsite, rfl⟩⟩

/-- A method that calls itself is a caller of its own key. -/
theorem mem_callers_of_isRecursive (h : c.methodAt? slot = some m) (hself : m.isRecursive = true) :
    (slot, m) ∈ c.callers m.key := by
  obtain ⟨site, hsite, howner, hname, hdescriptor⟩ := Method.isRecursive_iff.mp hself
  refine mem_callers_iff.mpr ⟨h, site, hsite, ?_⟩
  rw [CallSite.key, howner, hname, hdescriptor, Method.key]

/-- Where keys can be cut back into their parts, only a method that calls itself is a
caller of its own key. -/
theorem isRecursive_of_mem_callers (hkeys : m.HasSeparableKeys)
    (hself : (slot, m) ∈ c.callers m.key) : m.isRecursive = true := by
  obtain ⟨-, site, hsite, hkey⟩ := mem_callers_iff.mp hself
  exact Method.isRecursive_iff.mpr
    ⟨site, hsite, (key_eq_iff (hkeys.called site hsite) hkeys.own).mp hkey⟩

/-! ## Contexts without dynamic calls -/

/-- The context of the same classes without their dynamic calls. -/
def withoutDynamic (c : Context) : Context :=
  .make (c.classes.map Class.withoutDynamic) c.catalog

theorem members_withoutDynamic (c : Context) :
    c.withoutDynamic.members = c.members.map fun p => (p.1, p.2.withoutDynamic) := by
  rw [members, members, ClassLens.members, ClassLens.members, withoutDynamic, make, List.zipIdx_map,
    List.flatMap_map, List.map_flatMap]
  refine List.flatMap_congr fun p _ => ?_
  obtain ⟨cls, i⟩ := p
  have hmethods : cls.withoutDynamic.methods.zipIdx =
      cls.methods.zipIdx.map (Prod.map Method.withoutDynamic id) := List.zipIdx_map
  simp only [Prod.map, id_eq, hmethods, List.map_map]
  rfl

theorem methodAt?_withoutDynamic (c : Context) (slot : Slot) :
    c.withoutDynamic.methodAt? slot = (c.methodAt? slot).map Method.withoutDynamic := by
  rw [methodAt?, methodAt?, withoutDynamic, make, List.getElem?_map]
  cases c.classes[slot.classIndex]? with
  | none => rfl
  | some cls => exact List.getElem?_map

theorem callers_withoutDynamic (c : Context) (key : String) :
    c.withoutDynamic.callers key =
      (c.callers key).map fun p => (p.1, p.2.withoutDynamic) := by
  rw [callers, members_withoutDynamic, callers, List.filter_map]
  simp only [Function.comp_def, Method.methodCalls_withoutDynamic]

/-! ## Reports -/

/-- The method patterns that a context has for a subject after it was asked some
questions. -/
def reportAfter (c : Context) (before : List (Question c)) (s : Subject c) : List String :=
  ((c.findSimple s true).run ((c.askAll before).run MatchCache.empty).2).1

theorem reportAfter_eq (c : Context) (before : List (Question c)) (s : Subject c) :
    c.reportAfter before s = c.catalog.matchSimple s.method := by
  have hcache : ((c.askAll before).run MatchCache.empty).2.Faithful c :=
    (gives_askAll before _ (MatchCache.faithful_empty c)).2
  exact (gives_findSimple s true _ hcache).1

/-- A context finds a method among callers as the patterns say that it calls. -/
structure AgreesOnCalls (c : Context) : Prop where
  /-- The callers of a key are the methods with a call that names it. -/
  mem : ∀ key slot m, (slot, m) ∈ c.callers key ↔
    c.methodAt? slot = some m ∧
      m.HasCall fun site => site.owner ++ "." ++ site.name ++ site.descriptor = key
  /-- They come in scan order, none of them twice. -/
  ascending : ∀ key, ((c.callers key).map (·.1)).Pairwise Slot.Precedes
  /-- A method is a caller of something iff it is not reported to call nothing. -/
  leaf : ∀ before slot m (h : c.methodAt? slot = some m),
    (∃ key, (slot, m) ∈ c.callers key) ↔ "Leaf" ∉ c.reportAfter before (.inside slot m h)
  /-- A call of the method's own name is reported one way or the other. -/
  named : ∀ before slot m (h : c.methodAt? slot = some m),
    "Recursive" ∈ c.reportAfter before (.inside slot m h) ∨
        "SameName" ∈ c.reportAfter before (.inside slot m h) ↔
      m.HasCall fun site => site.name = m.name
  /-- A method that is reported to call itself is a caller of its key. -/
  recursive : ∀ before slot m (h : c.methodAt? slot = some m),
    "Recursive" ∈ c.reportAfter before (.inside slot m h) → (slot, m) ∈ c.callers m.key
  /-- Where keys can be cut back into their parts, the converse holds. -/
  separable : ∀ before slot m (h : c.methodAt? slot = some m), m.HasSeparableKeys →
    (slot, m) ∈ c.callers m.key → "Recursive" ∈ c.reportAfter before (.inside slot m h)
  /-- Without any dynamic calls there would be the same methods in the same slots, the
  same callers, and the same reports of these three patterns. -/
  dynamic : (∀ slot, c.withoutDynamic.methodAt? slot =
        (c.methodAt? slot).map Method.withoutDynamic) ∧
    (∀ key, (c.withoutDynamic.callers key).map (·.1) = (c.callers key).map (·.1)) ∧
    ∀ before before' slot m (h : c.methodAt? slot = some m)
      (h' : c.withoutDynamic.methodAt? slot = some m.withoutDynamic),
      ∀ name ∈ ["Leaf", "Recursive", "SameName"],
        name ∈ c.withoutDynamic.reportAfter before' (.inside slot m.withoutDynamic h') ↔
          name ∈ c.reportAfter before (.inside slot m h)

/-- In a context with the built-in catalogue the callers of keys and the patterns of
calls say the same of every method. -/
theorem agreesOnCalls (hbuiltin : c.catalog = .builtin) : c.AgreesOnCalls := by
  have hreport : ∀ before slot m (h : c.methodAt? slot = some m),
      c.reportAfter before (.inside slot m h) = Catalog.builtin.matchSimple m := by
    intro before slot m h
    rw [reportAfter_eq, hbuiltin]
    rfl
  constructor
  case mem =>
    intro key slot m
    rw [mem_callers_iff, Method.hasCall_iff]
    rfl
  case ascending => exact c.pairwise_callers
  case leaf =>
    intro before slot m h
    rw [hreport, leaf_mem_iff, Method.isLeaf_iff, not_not, exists_mem_callers_iff h]
  case named =>
    intro before slot m h
    rw [hreport, recursive_mem_iff, sameName_mem_iff, Method.isRecursive_or_callsSameName_iff,
      Method.hasCall_iff]
  case recursive =>
    intro before slot m h hself
    rw [hreport, recursive_mem_iff] at hself
    exact mem_callers_of_isRecursive h hself
  case separable =>
    intro before slot m h hkeys hself
    rw [hreport, recursive_mem_iff]
    exact isRecursive_of_mem_callers hkeys hself
  case dynamic =>
    refine ⟨c.methodAt?_withoutDynamic, fun key => ?_, ?_⟩
    · rw [callers_withoutDynamic, List.map_map]
      rfl
    · intro before before' slot m h h' name hname
      have hcatalog : c.withoutDynamic.catalog = .builtin := hbuiltin
      rw [hreport, reportAfter_eq, hcatalog]
      simp only [List.mem_cons, List.not_mem_nil, or_false] at hname
      rcases hname with rfl | rfl | rfl
      · rw [leaf_mem_iff, leaf_mem_iff]
        exact Eq.congr_left m.isLeaf_withoutDynamic
      · rw [recursive_mem_iff, recursive_mem_iff]
        exact Eq.congr_left m.isRecursive_withoutDynamic
      · rw [sameName_mem_iff, sameName_mem_iff]
        exact Eq.congr_left m.callsSameName_withoutDynamic

/-- A method that calls itself, and has a dynamic call of its own name. -/
def selfCaller : Method where
  owner := "a/B"
  name := "spin"
  descriptor := "()V"
  access := { isPublic := true, isStatic := true, isAbstract := false }
  instructions :=
    [⟨0, 0, 0xba, .call ⟨"", "spin", "()V", .dynamic, 0⟩⟩,
      ⟨1, 5, 0xb8, .call ⟨"a/B", "spin", "()V", .static, 5⟩⟩, ⟨2, 8, 0xb1, .plain⟩]
  handlers := []

/-- A method that calls another one with the same key. The dot in the key stands in
the owner of the one and in the name of the other. -/
def strayCaller : Method where
  owner := "a.B"
  name := "m"
  descriptor := "()V"
  access := { isPublic := true, isStatic := true, isAbstract := false }
  instructions := [⟨0, 0, 0xb8, .call ⟨"a", "B.m", "()V", .static, 0⟩⟩, ⟨1, 3, 0xb1, .plain⟩]
  handlers := []

/-- A context of both methods. -/
def callingContext : Context :=
  .make [⟨"a/B", none, [selfCaller]⟩, ⟨"a.B", none, [strayCaller]⟩] .builtin

/-- Both methods are callers of their own keys, and the one whose keys can be cut back
into their parts is reported to call itself. -/
theorem agreesOnCalls_callingContext :
    callingContext.catalog = .builtin ∧
    selfCaller.HasSeparableKeys ∧
    (⟨0, 0⟩, selfCaller) ∈ callingContext.callers selfCaller.key ∧
    "Recursive" ∈ callingContext.reportAfter [.analyze] (.inside ⟨0, 0⟩ selfCaller rfl) ∧
    (⟨1, 0⟩, strayCaller) ∈ callingContext.callers strayCaller.key ∧
    "Recursive" ∉ callingContext.reportAfter [.analyze] (.inside ⟨1, 0⟩ strayCaller rfl) := by
  have h := agreesOnCalls (c := callingContext) rfl
  have hkeys : selfCaller.HasSeparableKeys := by
    refine ⟨⟨by decide, by decide, ⟨_, rfl⟩⟩, fun site hsite => ?_⟩
    rw [show selfCaller.methodCalls = [⟨"a/B", "spin", "()V", .static, 5⟩] from rfl] at hsite
    obtain rfl := List.mem_singleton.mp hsite
    exact ⟨by decide, by decide, ⟨_, rfl⟩⟩
  have hself : (⟨0, 0⟩, selfCaller) ∈ callingContext.callers selfCaller.key := by
    refine (h.mem _ _ _).mpr ⟨rfl, Method.hasCall_iff.mpr ⟨_, List.mem_singleton_self _, ?_⟩⟩
    decide
  have hstray : (⟨1, 0⟩, strayCaller) ∈ callingContext.callers strayCaller.key := by
    refine (h.mem _ _ _).mpr ⟨rfl, Method.hasCall_iff.mpr ⟨_, List.mem_singleton_self _, ?_⟩⟩
    decide
  refine ⟨rfl, hkeys, hself, h.separable _ _ _ rfl hkeys hself, hstray, fun hreport => ?_⟩
  -- No call has the name of the method.
  have hnamed := (h.named _ _ _ rfl).mp (.inl hreport)
  obtain ⟨site, hsite, hname⟩ := Method.hasCall_iff.mp hnamed
  obtain rfl := List.mem_singleton.mp
    (show site ∈ [⟨"a", "B.m", "()V", .static, 0⟩] from hsite)
  exact absurd hname (by decide)

end Context

end ClassLens
