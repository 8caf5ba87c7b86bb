/-
Methods: what the entries of a method table give, each for itself.

An entry is sound if its name and its descriptor are texts of the pool and all its
code can be decoded. A sound entry gives a method and no warning, any other entry one
warning and no method, and which warning it is can be told from the entry: the first
thing that is wrong with it. `Yields` says this of entries in a row.

The body of a method is built up while its attributes are gone over, and each code
attribute replaces the body that was there. So code that fails behind code that was
good must not leave the good body behind, and a good body must be that of the last
code attribute, its handlers included. `bodyFrom_eq_ok_iff` and
`bodyFrom_eq_error_iff` say so.
-/
import ClassLens.ClassFile.Load
import Mathlib.Data.List.Forall2

set_option autoImplicit false

namespace ClassLens.ClassFile

/-! ## Code attributes -/

/-- The code attributes among some attributes, in order: their bytes, and the rows of
their exception tables. -/
def codesOf : List Attribute → List (ByteArray × List ExceptionRow)
  | [] => []
  | .code bytes rows :: rest => (bytes, rows) :: codesOf rest
  | .other _ :: rest => codesOf rest

/-- The instructions in the bytes of a code attribute. -/
def instructionsIn (entries : Entries) (bytes : ByteArray) :
    Except Code.DecodeError (List Instruction) :=
  Code.decode entries.codePool bytes.data.toList

variable {entries : Entries} {owner : String} {info : MemberInfo} {m : Method}
  {attributes : List Attribute} {start body : Body}

theorem utf8?_eq_some_iff {index : UInt16} {text : String} :
    entries.utf8? index = some text ↔ entries[index.toNat]? = some (.utf8 text) := by
  rw [Entries.utf8?]
  split
  case h_1 value h => simp [h]
  case h_2 h => exact ⟨nofun, fun heq => (h text heq).elim⟩

theorem utf8?_eq_none_iff {index : UInt16} :
    entries.utf8? index = none ↔ ∀ text, entries[index.toNat]? ≠ some (.utf8 text) := by
  rw [Option.eq_none_iff_forall_ne_some]
  exact forall_congr' fun text => not_congr utf8?_eq_some_iff

/-- An index of the pool leads to a class entry with the given name. -/
def NamesClass (entries : Entries) (index : UInt16) (name : String) : Prop :=
  ∃ nameIndex, entries[index.toNat]? = some (.classRef nameIndex) ∧
    entries[nameIndex.toNat]? = some (.utf8 name)

theorem className?_eq_some_iff {index : UInt16} {name : String} :
    entries.className? index = some name ↔ NamesClass entries index name := by
  rw [Entries.className?, NamesClass]
  split
  case h_1 nameIndex h => simp [h, utf8?_eq_some_iff]
  case h_2 h =>
    constructor
    · simp
    · rintro ⟨nameIndex, hclass, -⟩
      exact (h nameIndex hclass).elim

/-! ## Handlers -/

/-- A handler is the one that a row of an exception table stands for. -/
structure IsHandlerOf (entries : Entries) (row : ExceptionRow) (h : ExceptionHandler) : Prop where
  startPc : h.startPc.toNat = row.startPc.toNat
  endPc : h.endPc.toNat = row.endPc.toNat
  handlerPc : h.handlerPc.toNat = row.handlerPc.toNat
  /-- The index 0 stands for every exception. -/
  catchAll : row.catchIndex = 0 → h.catchType = none
  catchType : row.catchIndex ≠ 0 →
    ∀ name, h.catchType = some name ↔ NamesClass entries row.catchIndex name

theorem isHandlerOf_handler (entries : Entries) (row : ExceptionRow) :
    IsHandlerOf entries row (handler entries row) where
  startPc := UInt16.toNat_toUInt32 _
  endPc := UInt16.toNat_toUInt32 _
  handlerPc := UInt16.toNat_toUInt32 _
  catchAll hzero := if_pos hzero
  catchType hne name := by rw [handler, if_neg hne, className?_eq_some_iff]

/-- A row stands for one handler only. -/
theorem IsHandlerOf.eq {row : ExceptionRow} {h h' : ExceptionHandler}
    (hh : IsHandlerOf entries row h) (hh' : IsHandlerOf entries row h') : h = h' := by
  have hstart := UInt32.toNat_inj.mp (hh.startPc.trans hh'.startPc.symm)
  have hend := UInt32.toNat_inj.mp (hh.endPc.trans hh'.endPc.symm)
  have hplace := UInt32.toNat_inj.mp (hh.handlerPc.trans hh'.handlerPc.symm)
  have hcatch : h.catchType = h'.catchType := by
    by_cases hzero : row.catchIndex = 0
    · rw [hh.catchAll hzero, hh'.catchAll hzero]
    · exact Option.ext fun name => (hh.catchType hzero name).trans (hh'.catchType hzero name).symm
  obtain ⟨start, stop, place, catchType⟩ := h
  obtain ⟨start', stop', place', catchType'⟩ := h'
  simp only at hstart hend hplace hcatch
  rw [hstart, hend, hplace, hcatch]

/-- The handlers that the rows of a table stand for, one for each, in their order. -/
theorem forall₂_isHandlerOf_iff {rows : List ExceptionRow} {handlers : List ExceptionHandler} :
    List.Forall₂ (IsHandlerOf entries) rows handlers ↔ handlers = rows.map (handler entries) := by
  constructor
  · intro h
    induction h with
    | nil => rfl
    | cons hrow _ ih => rw [List.map_cons, ← ih, hrow.eq (isHandlerOf_handler entries _)]
  · rintro rfl
    rw [List.forall₂_map_right_iff, List.forall₂_same]
    exact fun row _ => isHandlerOf_handler entries row

/-! ## Bodies -/

/-- The body that is left after some code attributes: that of the last of them, and
the one before them all if there is none. -/
def IsLastBody (entries : Entries) (start : Body) (codes : List (ByteArray × List ExceptionRow))
    (body : Body) : Prop :=
  match codes.getLast? with
  | none => body = start
  | some (bytes, rows) =>
    instructionsIn entries bytes = .ok body.instructions ∧
      body.handlers = rows.map (handler entries)

/-- What the first code attribute gives is where the others start from. -/
theorem isLastBody_cons {bytes : ByteArray} {is : List Instruction}
    (h : instructionsIn entries bytes = .ok is) (rows : List ExceptionRow)
    (codes : List (ByteArray × List ExceptionRow)) :
    IsLastBody entries start ((bytes, rows) :: codes) body ↔
      IsLastBody entries ⟨is, rows.map (handler entries)⟩ codes body := by
  obtain ⟨instructions, handlers⟩ := body
  rw [IsLastBody, IsLastBody, List.getLast?_cons]
  cases codes.getLast? with
  | none => simp [h, eq_comm]
  | some last => rfl

theorem bodyFrom_eq_ok_iff :
    bodyFrom entries start attributes = .ok body ↔
      (∀ code ∈ codesOf attributes, ∃ is, instructionsIn entries code.1 = .ok is) ∧
        IsLastBody entries start (codesOf attributes) body := by
  induction attributes generalizing start with
  | nil => simp [bodyFrom, codesOf, IsLastBody, eq_comm]
  | cons first rest ih =>
    cases first with
    | other name => rw [bodyFrom, ih, codesOf]
    | code bytes rows =>
      rw [bodyFrom, codesOf, List.forall_mem_cons, ← instructionsIn]
      cases hbytes : instructionsIn entries bytes with
      | error cause => simp
      | ok is => simp [ih, isLastBody_cons hbytes]

/-- The first element of its kind in a list is the head, or else the first one behind
it. -/
theorem exists_first_cons_iff {α : Type} {good bad : α → Prop} {a : α} {l : List α} :
    (∃ before b after, a :: l = before ++ b :: after ∧ (∀ x ∈ before, good x) ∧ bad b) ↔
      bad a ∨ good a ∧
        ∃ before b after, l = before ++ b :: after ∧ (∀ x ∈ before, good x) ∧ bad b := by
  constructor
  · rintro ⟨before, b, after, hcut, hgood, hbad⟩
    cases before with
    | nil =>
      obtain ⟨rfl, -⟩ := List.cons.inj hcut
      exact .inl hbad
    | cons x before =>
      obtain ⟨rfl, hrest⟩ := List.cons.inj hcut
      rw [List.forall_mem_cons] at hgood
      exact .inr ⟨hgood.1, before, b, after, hrest, hgood.2, hbad⟩
  · rintro (hbad | ⟨hgood, before, b, after, rfl, hbefore, hbad⟩)
    · exact ⟨[], a, l, rfl, by simp, hbad⟩
    · exact ⟨a :: before, b, after, rfl, List.forall_mem_cons.mpr ⟨hgood, hbefore⟩, hbad⟩

/-- Going over the attributes fails with the first code that cannot be decoded. -/
theorem bodyFrom_eq_error_iff {cause : Code.DecodeError} :
    bodyFrom entries start attributes = .error cause ↔
      ∃ before code after, codesOf attributes = before ++ code :: after ∧
        (∀ good ∈ before, ∃ is, instructionsIn entries good.1 = .ok is) ∧
        instructionsIn entries code.1 = .error cause := by
  induction attributes generalizing start with
  | nil => simp [bodyFrom, codesOf]
  | cons first rest ih =>
    cases first with
    | other name => rw [bodyFrom, ih, codesOf]
    | code bytes rows =>
      rw [bodyFrom, codesOf, exists_first_cons_iff, ← instructionsIn]
      cases hbytes : instructionsIn entries bytes with
      | error other => simp
      | ok is => simp [ih]

/-! ## Entries -/

/-- The entry has what a method needs: a name and a descriptor in the pool, and code
that can be decoded, be there one code attribute, several or none. -/
structure IsSound (entries : Entries) (info : MemberInfo) : Prop where
  name : ∃ text, entries[info.nameIndex.toNat]? = some (.utf8 text)
  descriptor : ∃ text, entries[info.descriptorIndex.toNat]? = some (.utf8 text)
  codes : ∀ code ∈ codesOf info.attributes, ∃ is, instructionsIn entries code.1 = .ok is

/-- The method is the one that the entry stands for. Instructions and handlers both
come from the last code attribute: there is a handler for each row of its exception
table. -/
structure IsMethodOf (entries : Entries) (owner : String) (info : MemberInfo) (m : Method) :
    Prop where
  owner : m.owner = owner
  name : entries[info.nameIndex.toNat]? = some (.utf8 m.name)
  descriptor : entries[info.descriptorIndex.toNat]? = some (.utf8 m.descriptor)
  access : m.access = access info.flags
  last_code : ∀ bytes rows, (codesOf info.attributes).getLast? = some (bytes, rows) →
    instructionsIn entries bytes = .ok m.instructions ∧
      List.Forall₂ (IsHandlerOf entries) rows m.handlers
  no_code : codesOf info.attributes = [] → m.instructions = [] ∧ m.handlers = []

/-- The first thing that is wrong with an entry: its name, then its descriptor, then
the first of its code that cannot be decoded. -/
inductive IsFaultOf (entries : Entries) (owner : String) (info : MemberInfo) :
    MethodFault → Prop where
  | noName (hname : ∀ text, entries[info.nameIndex.toNat]? ≠ some (.utf8 text)) :
      IsFaultOf entries owner info .noName
  | noDescriptor {name : String}
      (hname : entries[info.nameIndex.toNat]? = some (.utf8 name))
      (hdescriptor : ∀ text, entries[info.descriptorIndex.toNat]? ≠ some (.utf8 text)) :
      IsFaultOf entries owner info .noDescriptor
  | undecodable {name descriptor : String} {before after : List (ByteArray × List ExceptionRow)}
      {code : ByteArray × List ExceptionRow} {cause : Code.DecodeError}
      (hname : entries[info.nameIndex.toNat]? = some (.utf8 name))
      (hdescriptor : entries[info.descriptorIndex.toNat]? = some (.utf8 descriptor))
      (hcodes : codesOf info.attributes = before ++ code :: after)
      (hbefore : ∀ good ∈ before, ∃ is, instructionsIn entries good.1 = .ok is)
      (hcode : instructionsIn entries code.1 = .error cause) :
      IsFaultOf entries owner info (.undecodable owner name descriptor cause)

theorem method_eq_ok_iff :
    method entries owner info = .ok m ↔ IsSound entries info ∧ IsMethodOf entries owner info m := by
  constructor
  · intro h
    rw [method] at h
    split at h
    case h_1 => cases h
    case h_2 name hname =>
      split at h
      case h_1 => cases h
      case h_2 descriptor hdescriptor =>
        split at h
        case h_1 => cases h
        case h_2 body hbody =>
          obtain rfl := Except.ok.inj h
          obtain ⟨hcodes, hlast⟩ := bodyFrom_eq_ok_iff.mp hbody
          rw [utf8?_eq_some_iff] at hname hdescriptor
          refine ⟨⟨⟨_, hname⟩, ⟨_, hdescriptor⟩, hcodes⟩, rfl, hname, hdescriptor, rfl, ?_, ?_⟩
          · intro bytes rows hget
            rw [IsLastBody, hget] at hlast
            exact ⟨hlast.1, forall₂_isHandlerOf_iff.mpr hlast.2⟩
          · intro hnone
            rw [IsLastBody, hnone] at hlast
            rw [hlast]
            exact ⟨rfl, rfl⟩
  · rintro ⟨hsound, hm⟩
    have hname := utf8?_eq_some_iff.mpr hm.name
    have hdescriptor := utf8?_eq_some_iff.mpr hm.descriptor
    have hlast : IsLastBody entries ⟨[], []⟩ (codesOf info.attributes)
        ⟨m.instructions, m.handlers⟩ := by
      rw [IsLastBody]
      split
      case h_1 hnone =>
        obtain ⟨hinstructions, hhandlers⟩ := hm.no_code (List.getLast?_eq_none_iff.mp hnone)
        rw [hinstructions, hhandlers]
      case h_2 bytes rows hget =>
        obtain ⟨hinstructions, hhandlers⟩ := hm.last_code bytes rows hget
        exact ⟨hinstructions, forall₂_isHandlerOf_iff.mp hhandlers⟩
    have hbody := bodyFrom_eq_ok_iff.mpr ⟨hsound.codes, hlast⟩
    rw [method]
    simp only [hname, hdescriptor, hbody, ← hm.owner, ← hm.access]

theorem method_eq_error_iff {fault : MethodFault} :
    method entries owner info = .error fault ↔ IsFaultOf entries owner info fault := by
  constructor
  · intro h
    rw [method] at h
    split at h
    case h_1 hname =>
      obtain rfl := Except.error.inj h
      exact .noName (utf8?_eq_none_iff.mp hname)
    case h_2 name hname =>
      rw [utf8?_eq_some_iff] at hname
      split at h
      case h_1 hdescriptor =>
        obtain rfl := Except.error.inj h
        exact .noDescriptor hname (utf8?_eq_none_iff.mp hdescriptor)
      case h_2 descriptor hdescriptor =>
        rw [utf8?_eq_some_iff] at hdescriptor
        split at h
        case h_1 cause hbody =>
          obtain rfl := Except.error.inj h
          obtain ⟨before, code, after, hcodes, hbefore, hcode⟩ := bodyFrom_eq_error_iff.mp hbody
          exact .undecodable hname hdescriptor hcodes hbefore hcode
        case h_2 => cases h
  · intro h
    rw [method]
    cases h with
    | noName hname => simp only [utf8?_eq_none_iff.mpr hname]
    | noDescriptor hname hdescriptor =>
      simp only [utf8?_eq_some_iff.mpr hname, utf8?_eq_none_iff.mpr hdescriptor]
    | undecodable hname hdescriptor hcodes hbefore hcode =>
      have hbody : bodyFrom entries ⟨[], []⟩ info.attributes = .error _ :=
        bodyFrom_eq_error_iff.mpr ⟨_, _, _, hcodes, hbefore, hcode⟩
      simp only [utf8?_eq_some_iff.mpr hname, utf8?_eq_some_iff.mpr hdescriptor, hbody]

/-- A sound entry has no fault. -/
theorem IsFaultOf.not_isSound {fault : MethodFault} (h : IsFaultOf entries owner info fault) :
    ¬ IsSound entries info := by
  intro hsound
  cases h with
  | noName hname =>
    obtain ⟨text, htext⟩ := hsound.name
    exact hname text htext
  | noDescriptor _ hdescriptor =>
    obtain ⟨text, htext⟩ := hsound.descriptor
    exact hdescriptor text htext
  | undecodable _ _ hcodes _ hcode =>
    have hmem := hcodes ▸ List.mem_append_right _ List.mem_cons_self
    obtain ⟨is, his⟩ := hsound.codes _ hmem
    rw [hcode] at his
    cases his

/-! ## Tables -/

/-- The methods and the warnings that the entries of a method table give, one after
the other. -/
inductive Yields (entries : Entries) (owner : String) :
    List MemberInfo → List Method → List String → Prop where
  | nil : Yields entries owner [] [] []
  | method {info : MemberInfo} {m : Method} {rest : List MemberInfo} {ms : List Method}
      {warnings : List String} (hsound : IsSound entries info)
      (h : IsMethodOf entries owner info m) (hrest : Yields entries owner rest ms warnings) :
      Yields entries owner (info :: rest) (m :: ms) warnings
  | warning {info : MemberInfo} {fault : MethodFault} {rest : List MemberInfo} {ms : List Method}
      {warnings : List String} (hunsound : ¬ IsSound entries info)
      (h : IsFaultOf entries owner info fault) (hrest : Yields entries owner rest ms warnings) :
      Yields entries owner (info :: rest) ms (skipWarning owner fault :: warnings)

/-- The methods of the entries that give one. -/
def methodsOf (entries : Entries) (owner : String) (table : List MemberInfo) : List Method :=
  table.filterMap fun info => (method entries owner info).toOption

/-- The warnings of the entries that give none. -/
def warningsOf (entries : Entries) (owner : String) (table : List MemberInfo) : List String :=
  table.filterMap fun info =>
    match method entries owner info with
    | .ok _ => none
    | .error fault => some (skipWarning owner fault)

theorem yields_methodsOf (entries : Entries) (owner : String) (table : List MemberInfo) :
    Yields entries owner table (methodsOf entries owner table)
      (warningsOf entries owner table) := by
  induction table with
  | nil => exact .nil
  | cons info rest ih =>
    rw [methodsOf, warningsOf, List.filterMap_cons, List.filterMap_cons]
    cases hmethod : method entries owner info with
    | ok m =>
      obtain ⟨hsound, hm⟩ := method_eq_ok_iff.mp hmethod
      exact .method hsound hm ih
    | error fault =>
      have hfault := method_eq_error_iff.mp hmethod
      exact .warning hfault.not_isSound hfault ih

theorem toClass_eq {f : ClassFile} {name : String}
    (hname : f.entries.className? f.thisClass = some name) :
    toClass f = .ok ⟨⟨name, f.entries.className? f.superClass,
      methodsOf f.entries name f.methods⟩, warningsOf f.entries name f.methods⟩ := by
  rw [toClass, hname]
  simp only [methodsOf, warningsOf, List.filterMap_map]
  -- The warnings are chosen in the same words, the methods by `toOption`.
  congr 4
  funext info
  rw [Function.comp_apply]
  cases method f.entries name info <;> rfl

/-- A class file whose class has a name is loaded, whatever its methods are. Each
entry of the method table gives a method or a warning, in order; and the other
entries give what they give whatever stands in the place of one of them. -/
theorem load_yields {data : ByteArray} {f : ClassFile} {name : String}
    (hparse : parse data = .ok f)
    (hname : f.entries.className? f.thisClass = some name) :
    (∃ ms warnings, Yields f.entries name f.methods ms warnings ∧
      load data = .ok ⟨⟨name, f.entries.className? f.superClass, ms⟩, warnings⟩) ∧
    ∀ before info after, f.methods = before ++ info :: after →
      ∃ ms₁ ms₂ warnings₁ warnings₂,
        Yields f.entries name before ms₁ warnings₁ ∧ Yields f.entries name after ms₂ warnings₂ ∧
        ∀ other, ∃ ms warnings, Yields f.entries name [other] ms warnings ∧
          toClass { f with methods := before ++ other :: after } =
            .ok ⟨⟨name, f.entries.className? f.superClass, ms₁ ++ ms ++ ms₂⟩,
              warnings₁ ++ warnings ++ warnings₂⟩ := by
  constructor
  · refine ⟨_, _, yields_methodsOf f.entries name f.methods, ?_⟩
    rw [load, hparse]
    exact toClass_eq hname
  · intro before info after _
    refine ⟨_, _, _, _, yields_methodsOf f.entries name before,
      yields_methodsOf f.entries name after,
      fun other => ⟨_, _, yields_methodsOf f.entries name [other], ?_⟩⟩
    have hclass := toClass_eq (f := { f with methods := before ++ other :: after }) hname
    rw [hclass, ← List.singleton_append]
    simp only [methodsOf, warningsOf, List.filterMap_append, List.append_assoc]

/-- A code attribute without handlers, as it is stored. -/
def storedCode (code : List UInt8) : List UInt8 :=
  [0, 5, 0, 0, 0, .ofNat (12 + code.length), 0, 0, 0, 0, 0, 0, 0, .ofNat code.length] ++ code ++
    [0, 0, 0, 0]

/-- The stored methods of a class: one with two code attributes, one whose name is a
class, one whose code breaks off behind its opcode, and one without code. -/
def storedMethods : List UInt8 :=
  [0, 9, 0, 3, 0, 4, 0, 2] ++ storedCode [0x00, 0xb1] ++ storedCode [0xb1] ++
    [0, 9, 0, 1, 0, 4, 0, 0] ++ [0, 9, 0, 3, 0, 4, 0, 1] ++ storedCode [0x10] ++
    [4, 1, 0, 3, 0, 4, 0, 0]

/-- A class file with these methods. Its pool has the class and its name, and the
texts `m`, `()V` and `Code`. -/
def unevenClass : List UInt8 :=
  [0xca, 0xfe, 0xba, 0xbe, 0, 0, 0, 0x34, 0, 6, 7, 0, 2, 1, 0, 1, 0x41, 1, 0, 1, 0x6d, 1, 0, 3,
    0x28, 0x29, 0x56, 1, 0, 4, 0x43, 0x6f, 0x64, 0x65, 0, 1, 0, 1, 0, 0, 0, 0, 0, 0, 0, 4] ++
    storedMethods ++ [0, 0]

theorem load_yields_unevenClass : ∃ f ms warnings,
    parse ⟨unevenClass.toArray⟩ = .ok f ∧ f.entries.className? f.thisClass = some "A" ∧
    Yields f.entries "A" f.methods ms warnings ∧
    load ⟨unevenClass.toArray⟩ =
      .ok ⟨⟨"A", f.entries.className? f.superClass, ms⟩, warnings⟩ ∧
    ms.map (·.instructions.map (·.opcode)) = [[0xb1], []] ∧
    warnings = ["skipping method in A: method name is not a UTF-8 constant",
      "skipping method in A: failed to decode A.m()V: malformed bytecode at offset 0: " ++
        "instruction bipush runs past end of code"] := by
  have hname : (parse ⟨unevenClass.toArray⟩).toOption.map
      (fun f => f.entries.className? f.thisClass) = some (some "A") := by decide +kernel
  have hloaded : ((load ⟨unevenClass.toArray⟩).toOption.map fun l =>
      (l.loadedClass.methods.map (·.instructions.map (·.opcode)), l.warnings)) =
        some ([[0xb1], []], ["skipping method in A: method name is not a UTF-8 constant",
          "skipping method in A: failed to decode A.m()V: malformed bytecode at offset 0: " ++
            "instruction bipush runs past end of code"]) := by decide +kernel
  cases hparse : parse ⟨unevenClass.toArray⟩ with
  | error cause => simp [hparse, Except.toOption] at hname
  | ok f =>
    rw [hparse] at hname
    have hthis : f.entries.className? f.thisClass = some "A" := Option.some.inj hname
    obtain ⟨⟨ms, warnings, hyields, hload⟩, -⟩ := load_yields hparse hthis
    rw [hload] at hloaded
    obtain ⟨hms, hwarnings⟩ := Prod.mk.inj (Option.some.inj hloaded)
    exact ⟨f, ms, warnings, rfl, hthis, hyields, hload, hms, hwarnings⟩

end ClassLens.ClassFile
