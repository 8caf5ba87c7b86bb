/-
Rendering: the expression under a node, by a stack of texts and by recursion on
the tree.

The stack is the one that every evaluation in consumption order has: a tree
leaves its text on it, whatever is below and whatever comes later
(`renderAll_postorderTree`). So the loop is the recursion, and no node finds
fewer texts than it has operands.

A node that is taken up with the texts of its operands can fail for two reasons:
its kind has no rendering, or the number of texts is not one that the kind is
rendered with. The second never happens in an assembled forest. The number of
operands of a node is the arity of its instruction, and both the arity and the
kind follow from the opcode and the operand (`fits_of_arity`).
-/
import ClassLens.Forest.Source
import ClassLens.Proofs.Code.Agreement
import ClassLens.Proofs.Forest.Consumption
import ClassLens.Proofs.Forest.Links
import ClassLens.Proofs.Forest.Wording

set_option autoImplicit false

namespace ClassLens

/-! ## Kinds that have a rendering -/

/-- Whether nodes of the kind can be written as an expression. -/
def NodeKind.isRenderable : NodeKind → Bool
  | .basic | .compareBranch _ _ | .branch _ _ _ | .jump _ | .ret _ => false
  | .constant (.other _) => false
  | _ => true

/-- The numbers of operands that nodes of the kind are rendered with. -/
def NodeKind.Fits : NodeKind → Nat → Prop
  | .constant _, count => count = 0
  | .load _, count => count = 0
  | .store _, count => count = 1
  | .field access, count =>
    count = (if access.isStatic then 0 else 1) + (if access.isGetter then 0 else 1)
  | .math _, count => count = 2
  | .call site, count => site.kind.hasReceiver = true → 0 < count
  | _, _ => True

theorem Constant.isSome_literal? (value : Constant) :
    value.literal?.isSome = (NodeKind.constant value).isRenderable := by
  cases value <;> rfl

theorem FieldAccess.isSome_render? {access : FieldAccess} {operands : List String}
    (h : (NodeKind.field access).Fits operands.length) :
    (access.render? operands).isSome = true := by
  obtain ⟨field, isGetter, isStatic⟩ := access
  simp only [NodeKind.Fits] at h
  match operands with
  | [] | [_] | [_, _] => cases isGetter <;> cases isStatic <;> first | rfl | simp at h
  | _ :: _ :: _ :: rest =>
    simp only [List.length_cons] at h
    split at h <;> split at h <;> omega

theorem CallSite.isSome_render? {site : CallSite} {operands : List String}
    (h : (NodeKind.call site).Fits operands.length) :
    (site.render? operands).isSome = true := by
  obtain ⟨owner, name, descriptor, kind, offset⟩ := site
  cases operands with
  | nil => cases kind <;> simp [NodeKind.Fits, CallKind.hasReceiver, render?] at h ⊢
  | cons receiver args => cases kind <;> rfl

theorem NodeKind.isSome_render? {kind : NodeKind} {m : Method} {operands : List String}
    (h : kind.Fits operands.length) :
    (kind.render? m operands).isSome = kind.isRenderable := by
  cases kind with
  | constant value =>
    obtain rfl := List.eq_nil_of_length_eq_zero h
    exact value.isSome_literal?
  | load slot =>
    obtain rfl := List.eq_nil_of_length_eq_zero h
    rfl
  | store slot =>
    obtain ⟨value, rfl⟩ := List.length_eq_one_iff.mp h
    rfl
  | math op =>
    match operands, h with
    | [_, _], _ => rfl
  | field access => exact FieldAccess.isSome_render? h
  | call site => exact CallSite.isSome_render? h
  | _ => cases operands <;> rfl

/-! ## Arity and kind -/

namespace Instruction

variable {i : Instruction} {m : Method} {c : Category}

/-- Most categories fix the number of operands. Increments are left out, whose
number goes by the method, and calls and arrays, whose number the operand says. -/
theorem eq_of_arity {count fixed : Nat} (hcategory : Category.of? i.opcode = some c)
    (hc : c ≠ .increment) (hfixed : (ArityClass.ofCategory c).count? = some fixed)
    (h : i.arity m = .ok count) : count = fixed := by
  have hne : i.opcode ≠ Opcode.iinc := by
    intro heq
    rw [category_eq_increment_iff.mpr heq, Option.some.injEq] at hcategory
    exact hc hcategory.symm
  rw [arity, ArityClass.of, hcategory] at h
  cases hclass : ArityClass.ofCategory c <;>
    simp only [hclass, if_neg hne, ArityClass.count?, Option.some.injEq, reduceCtorEq,
      Except.ok.injEq] at h hfixed <;>
    omega

theorem pos_of_arity_call {count : Nat} {site : CallSite} (hoperand : i.operand = .call site)
    (hcategory : Category.of? i.opcode = some .invoke) (h : i.arity m = .ok count)
    (hreceiver : site.kind.hasReceiver = true) : 0 < count := by
  have hclass : ArityClass.of i.opcode = .nary := by rw [ArityClass.of, hcategory]; rfl
  simp only [arity, hclass] at h
  rw [naryArity_call hoperand] at h
  cases hread : i.signature site.descriptor with
  | error fault => simp [hread, Except.map] at h
  | ok d =>
    rw [hread, Except.map, if_pos hreceiver, Except.ok.injEq] at h
    omega

/-- A node has a number of operands that its kind is rendered with. -/
theorem fits_of_arity {count : Nat} (h : i.arity m = .ok count) : i.nodeKind.Fits count := by
  fun_cases nodeKind i
  -- Fields and literals, arithmetic, and local variables.
  case case1 hc | case2 hc | case3 hc | case4 hc | case6 hc | case15 hc | case16 hc =>
    exact eq_of_arity hc (by simp) rfl h
  case case7 hc _ _ => exact eq_of_arity hc (by simp) rfl h
  case case5 hoperand hc => exact pos_of_arity_call hoperand hc h
  all_goals trivial

end Instruction

/-! ## The loop and the recursion -/

theorem length_of_mapM_eq_ok {ε α β : Type} {g : α → Except ε β} {l : List α} {values : List β}
    (h : l.mapM g = .ok values) : values.length = l.length := by
  induction l generalizing values with
  | nil =>
    rw [List.mapM_nil] at h
    rw [← Except.ok.inj h]
    rfl
  | cons a l ih =>
    rw [List.mapM_cons] at h
    obtain ⟨value, -, h⟩ := Code.bind_eq_ok_iff.mp h
    obtain ⟨rest, hrest, h⟩ := Code.bind_eq_ok_iff.mp h
    rw [← Except.ok.inj h, List.length_cons, List.length_cons, ih hrest]

namespace Forest

theorem sourceTree_eq (f : Forest) (id : Nat) :
    f.sourceTree id = (f.children id).mapM f.sourceTree >>= f.render id := by
  rw [sourceTree, List.mapM_subtype (g := f.sourceTree) (fun _ _ => rfl), List.unattach_attach]

/-- Trees in a row leave their texts on the stack, if one tree does. -/
theorem renderAll_flatMap {f : Forest} {ids : List Nat}
    (hone : ∀ id ∈ ids, ∀ rest texts, f.renderAll (f.postorderTree id ++ rest) texts =
      f.sourceTree id >>= fun text => f.renderAll rest (text :: texts))
    (rest : List Nat) (texts : List String) :
    f.renderAll (ids.flatMap f.postorderTree ++ rest) texts =
      ids.mapM f.sourceTree >>= fun operands => f.renderAll rest (operands.reverse ++ texts) := by
  induction ids generalizing texts with
  | nil => rfl
  | cons id ids ih =>
    have hids : ∀ id' ∈ ids, ∀ rest texts, f.renderAll (f.postorderTree id' ++ rest) texts =
        f.sourceTree id' >>= fun text => f.renderAll rest (text :: texts) :=
      fun id' hid' => hone id' (List.mem_cons_of_mem _ hid')
    rw [List.flatMap_cons, List.append_assoc, hone id List.mem_cons_self, List.mapM_cons,
      bind_assoc]
    congr 1
    funext text
    rw [ih hids, bind_assoc]
    congr 1
    funext operands
    rw [pure_bind, List.reverse_cons, List.append_assoc, List.singleton_append]

/-- A tree leaves its text on the stack, whatever is there and whatever comes
later. -/
theorem renderAll_postorderTree (f : Forest) (id : Nat) (rest : List Nat) (texts : List String) :
    f.renderAll (f.postorderTree id ++ rest) texts =
      f.sourceTree id >>= fun text => f.renderAll rest (text :: texts) := by
  induction id using Nat.strongRecOn generalizing rest texts with
  | ind id ih =>
    rw [postorderTree_eq, List.append_assoc, List.singleton_append,
      renderAll_flatMap fun c hc => ih c (f.children_lt hc), sourceTree_eq, bind_assoc]
    cases hoperands : (f.children id).mapM f.sourceTree with
    | error e => rfl
    | ok operands =>
      -- What the operands left on the stack is what the node takes.
      have hlength : (f.children id).length = operands.reverse.length := by
        rw [List.length_reverse, length_of_mapM_eq_ok hoperands]
      rw [Code.ok_bind, Code.ok_bind, renderAll, hlength, List.take_left, List.drop_left,
        List.reverse_reverse]
      cases f.render id operands <;> rfl

theorem decompile_eq_sourceTree (f : Forest) (id : Nat) : f.decompile id = f.sourceTree id := by
  have hwalk := f.renderAll_postorderTree id [] []
  rw [List.append_nil] at hwalk
  rw [decompile, postorder_eq_postorderTree, hwalk]
  cases f.sourceTree id <;> rfl

/-! ## The height of the stack -/

/-- Whether every node of a walk finds its operands on a stack that has some
height at first. -/
def IsFed (f : Forest) : List Nat → Nat → Prop
  | [], _ => True
  | id :: rest, height =>
    (f.children id).length ≤ height ∧ f.IsFed rest (height - (f.children id).length + 1)

theorem isFed_flatMap {f : Forest} {ids : List Nat}
    (hone : ∀ id ∈ ids, ∀ rest height, f.IsFed rest (height + 1) →
      f.IsFed (f.postorderTree id ++ rest) height)
    {rest : List Nat} {height : Nat} (h : f.IsFed rest (height + ids.length)) :
    f.IsFed (ids.flatMap f.postorderTree ++ rest) height := by
  induction ids generalizing height with
  | nil => exact h
  | cons id ids ih =>
    rw [List.flatMap_cons, List.append_assoc]
    apply hone id List.mem_cons_self
    apply ih fun id' hid' => hone id' (List.mem_cons_of_mem _ hid')
    have hheight : height + 1 + ids.length = height + (id :: ids).length := by
      rw [List.length_cons]
      omega
    rwa [hheight]

/-- A tree is fed by any stack, and makes it higher by one. -/
theorem isFed_postorderTree {f : Forest} {id height : Nat} {rest : List Nat}
    (h : f.IsFed rest (height + 1)) : f.IsFed (f.postorderTree id ++ rest) height := by
  induction id using Nat.strongRecOn generalizing rest height with
  | ind id ih =>
    rw [postorderTree_eq, List.append_assoc, List.singleton_append]
    apply isFed_flatMap fun c hc rest height hrest => ih c (f.children_lt hc) hrest
    refine ⟨Nat.le_add_left _ _, ?_⟩
    rwa [Nat.add_sub_cancel]

/-- A node of a walk that is fed finds its operands. -/
theorem IsFed.length_children_le {f : Forest} {before after : List Nat} {k : Nat}
    {texts left : List String} (h : f.IsFed (before ++ k :: after) texts.length)
    (hrun : f.renderAll before texts = .ok left) : (f.children k).length ≤ left.length := by
  induction before generalizing texts with
  | nil =>
    rw [renderAll, Except.ok.injEq] at hrun
    rw [← hrun]
    exact h.1
  | cons id before ih =>
    rw [renderAll] at hrun
    cases hrender : f.render id (texts.take (f.children id).length).reverse with
    | error e => simp [hrender] at hrun
    | ok text =>
      simp only [hrender] at hrun
      refine ih ?_ hrun
      rw [List.length_cons, List.length_drop]
      exact h.2

/-! ## Failures -/

/-- What a node is blamed for whose kind has no rendering. -/
def fault? (f : Forest) (id : Nat) : Option Unrepresentable :=
  match f.node? id with
  | some n =>
    if n.instruction.nodeKind.isRenderable then none
    else some ⟨n.instruction.index, n.instruction.opcode⟩
  | none => none

variable {m : Method} {f : Forest}

/-- With the texts of its operands, a node fails if its kind has no rendering,
and for no other reason. -/
theorem render_eq_error_iff (h : assemble m = .ok f) {id : Nat} {operands : List String}
    (hlength : operands.length = (f.children id).length) {e : Unrepresentable} :
    f.render id operands = .error e ↔ f.fault? id = some e := by
  obtain ⟨a, ha, rfl⟩ := assemble_eq_ok_iff.mp h
  rw [render, fault?]
  cases hn : (a.forest m).node? id with
  | none => simp
  | some n =>
    obtain ⟨hchildren, harity⟩ := (Assembly.linked_run ha).complete id n hn
    have hcount : operands.length = n.operandCount := by
      rw [hlength, children, hn, hchildren]
    have hsome : (n.instruction.nodeKind.render? (a.forest m).method operands).isSome =
        n.instruction.nodeKind.isRenderable :=
      NodeKind.isSome_render? (hcount ▸ Instruction.fits_of_arity harity)
    simp only
    rw [← hsome]
    cases n.instruction.nodeKind.render? (a.forest m).method operands <;> simp

/-- A walk fails at the first node that is to blame. -/
theorem renderAll_eq_error_iff (h : assemble m = .ok f) {ids : List Nat} {texts : List String}
    (hfed : f.IsFed ids texts.length) {e : Unrepresentable} :
    f.renderAll ids texts = .error e ↔ ids.findSome? f.fault? = some e := by
  induction ids generalizing texts with
  | nil => simp [renderAll]
  | cons id ids ih =>
    have hlength : (texts.take (f.children id).length).reverse.length =
        (f.children id).length := by
      rw [List.length_reverse, List.length_take, Nat.min_eq_left hfed.1]
    rw [renderAll, List.findSome?_cons]
    cases hrender : f.render id (texts.take (f.children id).length).reverse with
    | error e' => simp [(render_eq_error_iff h hlength).mp hrender]
    | ok text =>
      have hblameless : f.fault? id = none := by
        cases hfault : f.fault? id with
        | none => rfl
        | some e' =>
          rw [(render_eq_error_iff h hlength).mpr hfault] at hrender
          simp at hrender
      have hheight : (text :: texts.drop (f.children id).length).length =
          texts.length - (f.children id).length + 1 := by
        rw [List.length_cons, List.length_drop]
      simp only [hblameless]
      exact ih (hheight ▸ hfed.2)

/-- In an ascending list the first element with a value is the least one. -/
theorem findSome?_eq_some_iff_least {α : Type} {g : Nat → Option α} {l : List Nat}
    (hl : l.Pairwise (· < ·)) {a : α} :
    l.findSome? g = some a ↔ ∃ k ∈ l, g k = some a ∧ ∀ j ∈ l, g j ≠ none → k ≤ j := by
  induction l with
  | nil => simp
  | cons i l ih =>
    obtain ⟨hi, hl⟩ := List.pairwise_cons.mp hl
    rw [List.findSome?_cons]
    cases hvalue : g i with
    | none => simp [hvalue, ih hl]
    | some b =>
      constructor
      · intro hb
        refine ⟨i, List.mem_cons_self, hvalue.trans hb, fun j hj _ => ?_⟩
        rcases List.mem_cons.mp hj with rfl | hj
        · exact Nat.le_refl _
        · exact Nat.le_of_lt (hi j hj)
      · rintro ⟨k, hk, hka, hleast⟩
        have hle : k ≤ i := hleast i List.mem_cons_self (by simp [hvalue])
        rcases List.mem_cons.mp hk with rfl | hk
        · exact hvalue.symm.trans hka
        · exact absurd (hi k hk) (by omega)

/-! ## Expressions of an assembled forest -/

/-- The expression under a node of an assembled forest. The loop over a stack of
texts is the recursion on the tree, and each node finds its operands on the
stack. There is an expression if every node of the tree is of a kind that has a
rendering; if not, the error names the instruction of the least node that is
to blame. -/
theorem decompile_assemble (h : assemble m = .ok f) {id : Nat} (hid : id < f.size) :
    f.decompile id = f.sourceTree id ∧
    (∀ before k after texts, f.postorder id = before ++ k :: after →
      f.renderAll before [] = .ok texts → (f.children k).length ≤ texts.length) ∧
    ((∃ text, f.decompile id = .ok text) ↔ ∀ k ∈ f.postorder id, f.fault? k = none) ∧
    ∀ e, f.decompile id = .error e ↔
      ∃ k ∈ f.postorder id, f.fault? k = some e ∧
        ∀ j ∈ f.postorder id, f.fault? j ≠ none → k ≤ j := by
  have hfed : f.IsFed (f.postorder id) ([] : List String).length := by
    rw [postorder_eq_postorderTree, ← List.append_nil (f.postorderTree id)]
    exact isFed_postorderTree trivial
  have hascending : (f.postorder id).Pairwise (· < ·) := by
    obtain ⟨a, ha, rfl⟩ := assemble_eq_ok_iff.mp h
    rw [postorder_eq_postorderTree, ((Assembly.inOrder_run ha).run id hid).2]
    exact List.pairwise_lt_range'
  have herror : ∀ e, f.decompile id = .error e ↔
      (f.postorder id).findSome? f.fault? = some e := by
    intro e
    rw [← renderAll_eq_error_iff h hfed, decompile]
    cases f.renderAll (f.postorder id) [] <;> simp
  refine ⟨f.decompile_eq_sourceTree id, ?_, ?_, ?_⟩
  · intro before k after texts hsplit hrun
    rw [hsplit] at hfed
    exact hfed.length_children_le hrun
  · rw [← List.findSome?_eq_none_iff]
    cases hresult : f.decompile id with
    | ok text =>
      have hnone : (f.postorder id).findSome? f.fault? = none := by
        rw [Option.eq_none_iff_forall_ne_some]
        intro e he
        rw [(herror e).mpr he] at hresult
        simp at hresult
      simp [hnone]
    | error e => simp [(herror e).mp hresult]
  · intro e
    rw [herror, findSome?_eq_some_iff_least hascending]

/-- A static method that widens one number, negates another one, adds the two,
and returns the sum. The second of its instructions is numbered out of order. -/
def widenedSum : Method where
  owner := "Sample"
  name := "sum"
  descriptor := "(II)J"
  access := { isPublic := true, isStatic := true, isAbstract := false }
  instructions :=
    [⟨0, 0, 0x1a, .slot 0⟩, ⟨7, 1, 0x85, .plain⟩, ⟨2, 2, 0x1b, .slot 1⟩, ⟨3, 3, 0x74, .plain⟩,
      ⟨4, 4, 0x61, .plain⟩, ⟨5, 5, 0xad, .plain⟩]
  handlers := []

theorem decompile_widenedSum :
    ∃ f, assemble widenedSum = .ok f ∧ f.postorder 5 = [0, 1, 2, 3, 4, 5] ∧
      (∃ text, f.decompile 2 = .ok text) ∧ f.decompile 5 = .error ⟨7, 0x85⟩ := by
  obtain ⟨f, hf, hchildren, hfaults⟩ : ∃ f, assemble widenedSum = .ok f ∧
      [0, 1, 2, 3, 4, 5].map f.children = [[], [0], [], [2], [1, 3], [4]] ∧
      [0, 1, 2, 3, 4, 5].map f.fault? =
        [none, some ⟨7, 0x85⟩, none, some ⟨3, 0x74⟩, none, some ⟨5, 0xad⟩] :=
    ⟨_, rfl, by decide, by decide⟩
  simp only [List.map_cons, List.map_nil, List.cons.injEq, and_true] at hchildren hfaults
  obtain ⟨h0, h1, h2, h3, h4, h5⟩ := hchildren
  have hsize : f.size = 6 := size_assemble hf
  have hleaf : f.postorder 2 = [2] := by
    rw [postorder_eq_postorderTree, postorderTree_eq, h2]
    rfl
  have hall : f.postorder 5 = [0, 1, 2, 3, 4, 5] := by
    rw [postorder_eq_postorderTree]
    simp [postorderTree_eq, h0, h1, h2, h3, h4, h5]
  obtain ⟨-, -, htext, -⟩ := decompile_assemble hf (show 2 < f.size by omega)
  obtain ⟨-, -, -, herror⟩ := decompile_assemble hf (show 5 < f.size by omega)
  refine ⟨f, hf, hall, htext.mpr ?_, (herror _).mpr ⟨1, ?_⟩⟩
  · simp [hleaf, hfaults]
  · simp [hall, hfaults]

end Forest

end ClassLens
