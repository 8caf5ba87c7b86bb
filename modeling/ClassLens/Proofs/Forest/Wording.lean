/-
What is written about a method takes one line, if the names in it do.

Names come from outside and can hold anything, a line feed included. All other
text is the library's own or a number, and the value of a string literal is
written in quotes. So the names that an instruction is written with
(`Operand.names`) are the only way for a line feed to get into a description or
into a rendered tree, and an assembly error shows no name but in quotes.
-/
import ClassLens.Forest.Source
import ClassLens.Proofs.Forest.Outline
import ClassLens.Proofs.Text.Line

set_option autoImplicit false

namespace ClassLens

open Text (IsLine isLine_append)

/-! ## Names -/

/-- The names of a field. -/
def FieldRef.names (ref : FieldRef) : List String :=
  [ref.owner, ref.name, ref.descriptor]

/-- The names of a call. -/
def CallSite.names (site : CallSite) : List String :=
  [site.owner, site.name, site.descriptor]

/-- The names that a literal is written with. -/
def Constant.names : Constant → List String
  | .classLiteral name => [name]
  | .other descriptor => [descriptor]
  | _ => []

/-- The names that an operand is written with: owners, names and descriptors of
members, and classes. -/
def Operand.names : Operand → List String
  | .field ref => ref.names
  | .call site => site.names
  | .constant value => value.names
  | .classRef name => [name]
  | .multiArray name _ => [name]
  | _ => []

/-- The names of a kind of node. -/
def NodeKind.names : NodeKind → List String
  | .field access => access.field.names
  | .call site => site.names
  | .constant value => value.names
  | _ => []

/-- The names of a method: its own and those in its code. -/
def Method.names (m : Method) : List String :=
  m.owner :: m.name :: m.descriptor :: m.instructions.flatMap (·.operand.names)

/-- A node has its names from the operand. -/
theorem Instruction.names_nodeKind_subset (i : Instruction) :
    i.nodeKind.names ⊆ i.operand.names := by
  fun_cases nodeKind i
  -- Field accesses, a call and a literal; no other kind has names.
  case case1 h _ | case2 h _ | case3 h _ | case4 h _ | case5 h _ | case6 h _ =>
    rw [h]
    exact List.Subset.refl _
  all_goals exact List.nil_subset _

/-! ## Mnemonics -/

theorem Opcode.mnemonic_mem (op : Opcode) :
    op.mnemonic ∈ "<undefined>" :: mnemonics.toList := by
  rw [mnemonic]
  cases h : mnemonics[op.toNat]? with
  | none => exact List.mem_cons_self
  | some s => exact List.mem_cons_of_mem _ (Array.mem_of_getElem? h).val

/-- A mnemonic is one line and does not begin with a space. -/
theorem Opcode.mnemonic_wording (op : Opcode) :
    IsLine op.mnemonic ∧ ∃ c cs, op.mnemonic.toList = c :: cs ∧ c ≠ ' ' := by
  have hall : ∀ s ∈ "<undefined>" :: mnemonics.toList,
      IsLine s ∧ s.toList.head?.any (· != ' ') = true := by decide +kernel
  obtain ⟨hline, hhead⟩ := hall _ op.mnemonic_mem
  refine ⟨hline, ?_⟩
  cases hcs : op.mnemonic.toList with
  | nil => simp [hcs] at hhead
  | cons c cs => exact ⟨c, cs, rfl, by simpa [hcs] using hhead⟩

theorem Opcode.isLine_mnemonic (op : Opcode) : IsLine op.mnemonic :=
  op.mnemonic_wording.1

/-! ## Literals and names -/

theorem Constant.isLine_literal {value : Constant} {text : String}
    (hnames : ∀ name ∈ value.names, IsLine name) (h : value.literal? = some text) :
    IsLine text := by
  cases value with
  | other descriptor => simp [literal?] at h
  | classLiteral name =>
    have hname : IsLine name := hnames name List.mem_cons_self
    have hdots : '\n' ∉ name.toList.map fun c => if c = '/' then '.' else c := by
      intro hmem
      obtain ⟨c, hc, heq⟩ := List.mem_map.mp hmem
      split at heq
      · exact absurd heq (by decide)
      · exact hname (heq ▸ hc)
    rw [literal?, Option.some.injEq] at h
    rw [← h, isLine_append, Text.isLine_ofList]
    exact ⟨hdots, by decide⟩
  | null => rw [← Option.some.inj h]; decide
  | int value => rw [← Option.some.inj h]; exact Text.isLine_intRepr _
  | long value =>
    rw [← Option.some.inj h]
    exact isLine_append.mpr ⟨Text.isLine_intRepr _, by decide⟩
  | float bits =>
    rw [← Option.some.inj h]
    exact isLine_append.mpr ⟨Decimal.isLine_text _ _, by decide⟩
  | double bits => rw [← Option.some.inj h]; exact Decimal.isLine_text _ _
  | string value => rw [← Option.some.inj h]; exact Text.isLine_quoted value

theorem Constant.isLine_typeDescriptor {value : Constant}
    (hnames : ∀ name ∈ value.names, IsLine name) : IsLine value.typeDescriptor := by
  cases value with
  | other descriptor => exact hnames descriptor List.mem_cons_self
  | _ => simp +decide [typeDescriptor]

theorem isLine_simpleName {name : String} (h : IsLine name) : IsLine (simpleName name) := by
  rw [simpleName, Text.isLine_ofList, List.mem_reverse]
  exact fun hmem => h (List.mem_reverse.mp ((List.takeWhile_prefix _).mem hmem))

/-! ## Descriptions -/

variable {i : Instruction}

theorem Instruction.isLine_describe (h : ∀ name ∈ i.operand.names, IsLine name) :
    IsLine i.describe := by
  have hmnemonic := i.opcode.isLine_mnemonic
  cases hoperand : i.operand with
  | field _ | classRef _ | multiArray _ _ =>
    simp only [hoperand, Operand.names, FieldRef.names] at h
    simp +decide [describe, hoperand, hmnemonic, h]
  | call site =>
    simp only [hoperand, Operand.names, CallSite.names] at h
    rw [describe, hoperand]
    simp only
    split <;> simp +decide [CallSite.key, hmnemonic, h]
  | constant value =>
    rw [hoperand] at h
    rw [describe, hoperand]
    simp only
    split
    case h_1 text htext => simp +decide [hmnemonic, Constant.isLine_literal h htext]
    case h_2 => simp +decide [hmnemonic, Constant.isLine_typeDescriptor h]
  | switch fallback targets =>
    have htargets : IsLine (", ".intercalate (targets.map fun t => toString t.toNat)) := by
      refine Text.isLine_intercalate (by decide) fun t ht => ?_
      obtain ⟨target, -, rfl⟩ := List.mem_map.mp ht
      exact Text.isLine_natRepr _
    have hfallback : IsLine (toString fallback.toNat) := Text.isLine_natRepr _
    simp +decide only [describe, hoperand, isLine_append, hmnemonic, htargets, hfallback,
      and_self]
  | _ => simp +decide [describe, hoperand, hmnemonic]

theorem ArityClass.isLine_label (a : ArityClass) : IsLine a.label := by
  cases a <;> decide

theorem Instruction.isLine_headline (h : ∀ name ∈ i.operand.names, IsLine name) :
    IsLine i.headline := by
  simp +decide [headline, isLine_describe h, ArityClass.isLine_label]

/-- A description begins with the mnemonic. -/
theorem Instruction.mnemonic_prefix_describe (i : Instruction) :
    i.opcode.mnemonic.toList <+: i.describe.toList := by
  cases hoperand : i.operand with
  | call site =>
    unfold describe
    rw [hoperand]
    simp only
    split <;> simp
  | constant value =>
    unfold describe
    rw [hoperand]
    simp only
    split <;> simp
  | _ => simp [describe, hoperand]

/-- What a line says does not begin with a space, so indentation ends where it
begins. -/
theorem Instruction.head?_headline_ne (i : Instruction) : i.headline.toList.head? ≠ some ' ' := by
  obtain ⟨rest, hrest⟩ := i.mnemonic_prefix_describe
  obtain ⟨-, c, cs, hcs, hc⟩ := i.opcode.mnemonic_wording
  rw [headline, String.toList_append, String.toList_append, String.toList_append, ← hrest, hcs]
  simpa using hc

theorem Forest.head?_headline_ne (f : Forest) {id : Nat} (hid : id < f.size) :
    (f.headline id).toList.head? ≠ some ' ' := by
  obtain ⟨n, -, hheadline⟩ := f.exists_headline_eq hid
  rw [hheadline]
  exact n.instruction.head?_headline_ne

theorem Instruction.getLast?_headline (i : Instruction) :
    i.headline.toList.getLast? = some ')' := by
  rw [headline, String.toList_append, List.getLast?_append]
  rfl

/-! ## Errors -/

theorem DescriptorFault.isLine_message (e : DescriptorFault) : IsLine e.message := by
  have hreason : IsLine e.reason.message := by
    cases e.reason <;> decide
  -- Unfolded, not rewritten: making the equation of a long text evaluates it.
  unfold message
  simp only [isLine_append, Text.isLine_quoted, Nat.toString_eq_repr, Text.isLine_natRepr,
    e.opcode.isLine_mnemonic, hreason, and_true]
  decide

/-- An assembly error is one line, whatever the names. -/
theorem AssemblyError.isLine_message (e : AssemblyError) : IsLine e.message := by
  cases e with
  | underflow i required available =>
    unfold message
    simp only [isLine_append, Nat.toString_eq_repr, Text.isLine_natRepr,
      i.opcode.isLine_mnemonic, and_true]
    decide
  | descriptor fault => exact fault.isLine_message

/-! ## Rendered trees -/

section

variable {m : Method} {operands : List String} {text : String}

theorem Method.isLine_localName (m : Method) (slot : UInt16) : IsLine (m.localName slot) := by
  rw [localName]
  split <;> simp +decide

theorem CallSite.isLine_render {site : CallSite} (hnames : ∀ name ∈ site.names, IsLine name)
    (hoperands : ∀ t ∈ operands, IsLine t) (h : site.render? operands = some text) :
    IsLine text := by
  have howner : IsLine (simpleName site.owner) := isLine_simpleName (hnames _ (by simp [names]))
  have hname : IsLine site.name := hnames _ (by simp [names])
  have hargs {args : List String} (hsub : ∀ t ∈ args, IsLine t) :
      IsLine ("(" ++ ", ".intercalate args ++ ")") := by
    simp +decide [Text.isLine_intercalate (show IsLine ", " by decide) hsub]
  unfold render? at h
  split at h
  case h_1 =>
    rw [← Option.some.inj h]
    exact isLine_append.mpr ⟨hname, hargs hoperands⟩
  case h_2 =>
    rw [← Option.some.inj h]
    simp +decide [howner, hname, hargs hoperands]
  case h_3 receiver args _ _ =>
    rw [List.forall_mem_cons] at hoperands
    rw [← Option.some.inj h]
    simp +decide [hoperands.1, hname, hargs hoperands.2]
  case h_4 => simp at h

theorem FieldAccess.isLine_render {access : FieldAccess}
    (hnames : ∀ name ∈ access.field.names, IsLine name)
    (hoperands : ∀ t ∈ operands, IsLine t) (h : access.render? operands = some text) :
    IsLine text := by
  have howner : IsLine (simpleName access.field.owner) :=
    isLine_simpleName (hnames _ (by simp [FieldRef.names]))
  have hname : IsLine access.field.name := hnames _ (by simp [FieldRef.names])
  unfold render? at h
  split at h
  case h_5 => simp at h
  all_goals
    rw [← Option.some.inj h]
    clear h
    simp_all +decide

theorem NodeKind.isLine_render {kind : NodeKind} (hnames : ∀ name ∈ kind.names, IsLine name)
    (hoperands : ∀ t ∈ operands, IsLine t) (h : kind.render? m operands = some text) :
    IsLine text := by
  unfold render? at h
  split at h
  case h_1 => exact Constant.isLine_literal hnames h
  case h_2 slot => exact Option.some.inj h ▸ m.isLine_localName slot
  case h_3 slot value =>
    rw [← Option.some.inj h]
    simp +decide [m.isLine_localName slot, hoperands value List.mem_cons_self]
  case h_4 => exact FieldAccess.isLine_render hnames hoperands h
  case h_5 op left right =>
    have hsymbol : IsLine op.symbol := by
      cases op <;> decide
    have hleft : IsLine left := hoperands left (by simp)
    have hright : IsLine right := hoperands right (by simp)
    rw [← Option.some.inj h]
    simp +decide [hsymbol, hleft, hright]
  case h_6 => exact CallSite.isLine_render hnames hoperands h
  case h_7 => simp at h

end

namespace Forest

variable {f : Forest}
  (hnames : ∀ id n, f.node? id = some n → ∀ name ∈ n.instruction.operand.names, IsLine name)

include hnames

theorem isLine_render {id : Nat} {operands : List String} {text : String}
    (hoperands : ∀ t ∈ operands, IsLine t) (h : f.render id operands = .ok text) :
    IsLine text := by
  unfold render at h
  split at h
  case h_1 => exact Except.ok.inj h ▸ List.not_mem_nil
  case h_2 n hn =>
    have hkind : ∀ name ∈ n.instruction.nodeKind.names, IsLine name :=
      fun name hname => hnames id n hn name (n.instruction.names_nodeKind_subset hname)
    split at h
    case h_1 source hsource =>
      rw [← Except.ok.inj h]
      exact NodeKind.isLine_render hkind hoperands hsource
    case h_2 => simp at h

/-- Rendering keeps to lines: if the texts on the stack are, then so is the text
that each node leaves there. -/
theorem isLine_renderAll {ids : List Nat} {texts rendered : List String}
    (htexts : ∀ t ∈ texts, IsLine t) (h : f.renderAll ids texts = .ok rendered) :
    ∀ t ∈ rendered, IsLine t := by
  induction ids generalizing texts with
  | nil =>
    rw [renderAll, Except.ok.injEq] at h
    exact h ▸ htexts
  | cons id ids ih =>
    rw [renderAll] at h
    cases hrender : f.render id (texts.take (f.children id).length).reverse with
    | error e => simp [hrender] at h
    | ok text =>
      have htext : IsLine text := isLine_render hnames
        (fun t ht => htexts t (List.mem_of_mem_take (List.mem_reverse.mp ht))) hrender
      simp only [hrender] at h
      refine ih (fun t ht => ?_) h
      rcases List.mem_cons.mp ht with rfl | hbelow
      · exact htext
      · exact htexts t (List.mem_of_mem_drop hbelow)

theorem isLine_decompile {id : Nat} {source : String} (h : f.decompile id = .ok source) :
    IsLine source := by
  rw [decompile] at h
  cases hrender : f.renderAll (f.postorder id) [] with
  | error e => simp [hrender] at h
  | ok texts =>
    simp only [hrender, Except.ok.injEq] at h
    have htexts := isLine_renderAll hnames (by simp) hrender
    cases texts with
    | nil => exact h ▸ List.not_mem_nil
    | cons text rest => exact h ▸ htexts text List.mem_cons_self

end Forest

/-! ## Methods -/

section

variable {m : Method}

theorem Method.isLine_key (hnames : ∀ name ∈ m.names, IsLine name) : IsLine m.key := by
  have howner : IsLine m.owner := hnames _ (by simp [names])
  have hname : IsLine m.name := hnames _ (by simp [names])
  have hdescriptor : IsLine m.descriptor := hnames _ (by simp [names])
  simp +decide [key, howner, hname, hdescriptor]

/-- The names in the nodes of a method's forest are names of the method. -/
theorem Forest.mem_names_assemble {f : Forest} (h : Forest.assemble m = .ok f) {id : Nat} {n : Node}
    (hn : f.node? id = some n) {name : String} (hname : name ∈ n.instruction.operand.names) :
    name ∈ m.names := by
  have hget : m.instructions[id]? = some n.instruction := by
    rw [← instruction_assemble h, hn, Option.map_some]
  have hcode : name ∈ m.instructions.flatMap (·.operand.names) :=
    List.mem_flatMap.mpr ⟨n.instruction, List.mem_of_getElem? hget, hname⟩
  simp [Method.names, hcode]

/-- A line of an outline is one line. -/
theorem Forest.isLine_lineAt (hnames : ∀ name ∈ m.names, IsLine name) {f : Forest}
    (h : Forest.assemble m = .ok f) {p : Nat × Nat} (hp : p.1 < f.size) :
    IsLine (f.lineAt p) := by
  obtain ⟨n, hn, hheadline⟩ := f.exists_headline_eq hp
  have hline : IsLine n.instruction.headline := Instruction.isLine_headline fun name hname =>
    hnames name (mem_names_assemble h hn hname)
  rw [lineAt, hheadline, isLine_append, Text.isLine_ofList]
  exact ⟨by simp, hline⟩

end

end ClassLens
