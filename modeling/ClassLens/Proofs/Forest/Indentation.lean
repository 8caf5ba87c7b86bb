/-
Indentation: an outline is the tree it is written from.

The outline is written by a walk that keeps a list of nodes with their depths. It is
compared with the recursion on the tree first: a line for the node, and behind it the
outlines of the operands one level deeper (`outline_eq_outlineTree`). What stands
below a line is then the trees of its operands one after the other, and all of it is
indented further. So going back from a line, the first one with less indentation is
that of the node which consumes it (`exists_above`), and the depths alone say how the
tree hangs together.

Whether a line of the outline is also a line of the text depends on the names in it,
since a line feed in a name is written as it is.
-/
import Mathlib.Logic.Relation
import ClassLens.Proofs.Forest.Links
import ClassLens.Proofs.Forest.Wording

set_option autoImplicit false

namespace ClassLens.Forest

/-! ## The walk is the recursion -/

theorem outlineTree_eq (f : Forest) (id depth : Nat) :
    f.outlineTree id depth =
      f.outlineLine id depth ++
        String.join ((f.children id).map fun c => f.outlineTree c (depth + 1)) := by
  rw [outlineTree, List.attach_map_val (f := fun c => f.outlineTree c (depth + 1))]

theorem join_flatMap {α : Type} (g : α → List String) (l : List α) :
    String.join (l.flatMap g) = String.join (l.map fun a => String.join (g a)) := by
  apply String.toList_inj.mp
  simp [String.toList_join, List.flatMap_assoc, List.flatMap_map]

theorem outlineTree_eq_join (f : Forest) (id depth : Nat) :
    f.outlineTree id depth =
      String.join ((f.preorderTree id depth).map fun p => f.outlineLine p.1 p.2) := by
  induction id using Nat.strongRecOn generalizing depth with
  | ind id ih =>
    have hoperands : (f.children id).map (fun c => f.outlineTree c (depth + 1)) =
        (f.children id).map fun c =>
          String.join ((f.preorderTree c (depth + 1)).map fun p => f.outlineLine p.1 p.2) :=
      List.map_congr_left fun c hc => ih c (f.children_lt hc) (depth + 1)
    rw [outlineTree_eq, preorderTree_eq, hoperands, List.map_cons, String.join_cons,
      List.map_flatMap, join_flatMap]

theorem outline_eq_outlineTree (f : Forest) (id : Nat) : f.outline id = f.outlineTree id 0 := by
  rw [outline_eq, outlineTree_eq_join]

/-! ## The nodes of a tree -/

/-- One node is under another: it is that node, or an operand of one that is under
it. -/
def IsUnder (f : Forest) (id k : Nat) : Prop :=
  Relation.ReflTransGen (fun p c => c ∈ f.children p) id k

theorem mem_preorderTree_iff (f : Forest) {id depth k : Nat} :
    k ∈ (f.preorderTree id depth).map (·.1) ↔ f.IsUnder id k := by
  induction id using Nat.strongRecOn generalizing depth with
  | ind id ih =>
    rw [preorderTree_eq, List.map_cons, List.map_flatMap, List.mem_cons, List.mem_flatMap, IsUnder,
      Relation.ReflTransGen.cases_head_iff, eq_comm]
    refine or_congr_right (exists_congr fun c => and_congr_right fun hc => ?_)
    exact ih c (f.children_lt hc)

theorem nodup_preorderTree {m : Method} {f : Forest} (h : assemble m = .ok f) {id : Nat}
    (hid : id < f.size) (depth : Nat) : ((f.preorderTree id depth).map (·.1)).Nodup := by
  obtain ⟨a, ha, rfl⟩ := assemble_eq_ok_iff.mp h
  have hrun := ((Assembly.inOrder_run ha).run id hid).2
  rw [((a.forest m).preorderTree_perm_postorderTree id depth).nodup_iff, hrun]
  exact List.nodup_range'

/-! ## Depths -/

theorem le_depth_of_mem_preorderTree (f : Forest) {id depth : Nat} {p : Nat × Nat}
    (hp : p ∈ f.preorderTree id depth) : depth ≤ p.2 := by
  induction id using Nat.strongRecOn generalizing depth with
  | ind id ih =>
    rw [preorderTree_eq] at hp
    rcases List.mem_cons.mp hp with rfl | hp
    · exact Nat.le_refl _
    · obtain ⟨c, hc, hp⟩ := List.mem_flatMap.mp hp
      exact Nat.le_of_succ_le (ih c (f.children_lt hc) hp)

/-- An element of lists in a row is in one of them, behind what is in front of it
there and behind the lists before. -/
theorem exists_of_flatMap_eq_append_cons {α β : Type} {g : α → List β} {l : List α}
    {before after : List β} {b : β} (h : l.flatMap g = before ++ b :: after) :
    ∃ l₁ a l₂ front back, l = l₁ ++ a :: l₂ ∧ g a = front ++ b :: back ∧
      before = l₁.flatMap g ++ front := by
  induction l generalizing before with
  | nil => simp at h
  | cons a l ih =>
    -- In the first list, or else in those behind it.
    have hrest : ∀ before', before = g a ++ before' → l.flatMap g = before' ++ b :: after →
        ∃ l₁ a' l₂ front back, a :: l = l₁ ++ a' :: l₂ ∧ g a' = front ++ b :: back ∧
          before = l₁.flatMap g ++ front := by
      rintro before' rfl hl
      obtain ⟨l₁, a', l₂, front, back, rfl, hcut, rfl⟩ := ih hl
      exact ⟨a :: l₁, a', l₂, front, back, rfl, hcut, by rw [List.flatMap_cons, List.append_assoc]⟩
    rw [List.flatMap_cons, List.append_eq_append_iff] at h
    rcases h with ⟨before', hbefore, hl⟩ | ⟨back, hcut, hback⟩
    · exact hrest before' hbefore hl
    · cases back with
      | nil =>
        rw [List.append_nil] at hcut
        exact hrest [] (by rw [hcut, List.append_nil]) hback.symm
      | cons b' back =>
        obtain ⟨rfl, -⟩ := List.cons.inj hback
        exact ⟨[], a, l, before, back, rfl, hcut, rfl⟩

/-- Going back from a node that is not the first, the first one that is not as deep
consumes it, and is one level above. -/
theorem exists_above (f : Forest) {id depth : Nat} {before after : List (Nat × Nat)} {c d : Nat}
    (h : f.preorderTree id depth = before ++ (c, d) :: after) (hbefore : before ≠ []) :
    ∃ front p e back, before = front ++ (p, e) :: back ∧ d = e + 1 ∧ c ∈ f.children p ∧
      ∀ r ∈ back, e < r.2 := by
  induction id using Nat.strongRecOn generalizing depth before after with
  | ind id ih =>
    rw [preorderTree_eq] at h
    cases before with
    | nil => exact absurd rfl hbefore
    | cons first before =>
      obtain ⟨rfl, hrest⟩ := List.cons.inj h
      obtain ⟨l₁, a, l₂, front, back, hchildren, hcut, rfl⟩ :=
        exists_of_flatMap_eq_append_cons hrest
      have ha : a ∈ f.children id := by
        rw [hchildren]
        exact List.mem_append_right _ List.mem_cons_self
      cases front with
      | nil =>
        -- An operand itself: in front of it are the trees of other operands.
        rw [preorderTree_eq, List.nil_append] at hcut
        obtain ⟨hsame, -⟩ := List.cons.inj hcut
        obtain ⟨rfl, rfl⟩ := Prod.mk.inj hsame
        refine ⟨[], id, depth, _, rfl, rfl, ha, fun r hr => ?_⟩
        rw [List.append_nil] at hr
        obtain ⟨sibling, -, hr⟩ := List.mem_flatMap.mp hr
        exact f.le_depth_of_mem_preorderTree hr
      | cons r front =>
        -- Deeper in the tree of an operand.
        obtain ⟨front', p, e, back', hfront, hd, hc, hback⟩ :=
          ih a (f.children_lt ha) hcut (List.cons_ne_nil _ _)
        exact ⟨(id, depth) :: l₁.flatMap (fun c => f.preorderTree c (depth + 1)) ++ front', p, e,
          back', by rw [hfront]; simp, hd, hc, hback⟩

/-! ## Lines -/

variable {m : Method} {f : Forest} {id : Nat}

theorem indentation_lineAt (f : Forest) {p : Nat × Nat} (hp : p.1 < f.size) :
    Text.indentation (f.lineAt p) = 2 * p.2 :=
  Text.indentation_append _ (f.head?_headline_ne hp)

/-- The nodes of a tree in preorder, each with its line. -/
def outlineRows (f : Forest) (id : Nat) : List (Nat × String) :=
  (f.preorderTree id 0).map fun p => (p.1, f.lineAt p)

theorem map_fst_outlineRows (f : Forest) (id : Nat) :
    (f.outlineRows id).map (·.1) = (f.preorderTree id 0).map (·.1) := by
  rw [outlineRows, List.map_map]
  rfl

theorem outline_eq_join_outlineRows (f : Forest) (hid : id < f.size) :
    f.outline id = String.join ((f.outlineRows id).map (·.2 ++ "\n")) := by
  rw [f.outline_eq_join hid, outlineRows, List.map_map, List.map_map]
  rfl

/-- In front of the line of any node but the first stands that of its parent, and
what is between them is indented further than the parent. -/
theorem exists_row_above (h : assemble m = .ok f) (hid : id < f.size)
    {before after : List (Nat × String)} {c : Nat} {line : String}
    (hrows : f.outlineRows id = before ++ (c, line) :: after) (hbefore : before ≠ []) :
    ∃ front p above back, before = front ++ (p, above) :: back ∧ f.parent? c = some p ∧
      Text.indentation above + 2 = Text.indentation line ∧
      ∀ r ∈ back, Text.indentation above < Text.indentation r.2 := by
  have hindent : ∀ q ∈ f.preorderTree id 0, Text.indentation (f.lineAt q) = 2 * q.2 :=
    fun q hq => f.indentation_lineAt (f.lt_size_of_mem_preorderTree hid hq)
  -- The rows are cut where the nodes are.
  obtain ⟨before, rest, hcut, rfl, hrest⟩ := List.map_eq_append_iff.mp hrows
  obtain ⟨⟨c, d⟩, after, rfl, hrow, -⟩ := List.map_eq_cons_iff.mp hrest
  obtain ⟨rfl, rfl⟩ := Prod.mk.inj hrow
  obtain ⟨front, p, e, back, rfl, rfl, hc, hback⟩ :=
    f.exists_above hcut fun hnil => hbefore (by rw [hnil, List.map_nil])
  rw [hcut] at hindent
  have habove : Text.indentation (f.lineAt (p, e)) = 2 * e := hindent _ (by simp)
  refine ⟨front.map fun q => (q.1, f.lineAt q), p, f.lineAt (p, e),
    back.map fun q => (q.1, f.lineAt q), by rw [List.map_append, List.map_cons],
    (parent?_eq_some_iff h).mpr hc, ?_, fun r hr => ?_⟩
  · rw [habove, hindent (c, e + 1) (by simp), Nat.mul_succ]
  · obtain ⟨q, hq, rfl⟩ := List.mem_map.mp hr
    rw [habove, hindent q (by simp [hq])]
    exact Nat.mul_lt_mul_of_pos_left (hback q hq) Nat.two_pos

theorem splitOn_outline (h : assemble m = .ok f) (hid : id < f.size)
    (hnames : ∀ name ∈ m.names, Text.IsLine name) :
    (f.outline id).toList.splitOn '\n' = (f.outlineRows id).map (·.2.toList) ++ [[]] := by
  have hlines : ∀ l ∈ (f.outlineRows id).map (·.2), Text.IsLine l := by
    intro l hl
    obtain ⟨row, hrow, rfl⟩ := List.mem_map.mp hl
    obtain ⟨p, hp, rfl⟩ := List.mem_map.mp hrow
    exact isLine_lineAt hnames h (f.lt_size_of_mem_preorderTree hid hp)
  have htext : f.outline id = String.join (((f.outlineRows id).map (·.2)).map (· ++ "\n")) := by
    rw [f.outline_eq_join_outlineRows hid, List.map_map]
    rfl
  rw [htext, Text.toList_join_ended, Text.splitOn_flatMap_ended hlines, List.map_map]
  rfl

/-! ## The outline of a tree -/

/-- The lines of an outline, each with the node that it is about, are the tree under
the node that the outline is of. -/
structure IsOutline (m : Method) (f : Forest) (id : Nat) (rows : List (Nat × String)) : Prop where
  /-- The outline is the lines, with a line end behind each. -/
  text : f.outline id = String.join (rows.map (·.2 ++ "\n"))
  /-- The nodes come in preorder. -/
  preorder : rows.map (·.1) = (f.preorderTree id 0).map (·.1)
  /-- There is a line for each node of the tree. -/
  subtree : ∀ k, k ∈ rows.map (·.1) ↔ f.IsUnder id k
  /-- No node has two lines. -/
  once : (rows.map (·.1)).Nodup
  /-- Going back from a line that is not the first, the first one with less
  indentation has two spaces less, and is that of the parent. -/
  parent : ∀ before c line after, rows = before ++ (c, line) :: after → before ≠ [] →
    ∃ front p above back, before = front ++ (p, above) :: back ∧ f.parent? c = some p ∧
      Text.indentation above + 2 = Text.indentation line ∧
      ∀ r ∈ back, Text.indentation above < Text.indentation r.2
  /-- If no name has a line feed, these are the lines of the text. -/
  lines : (∀ name ∈ m.names, Text.IsLine name) →
    (f.outline id).toList.splitOn '\n' = rows.map (·.2.toList) ++ [[]]

theorem isOutline_outlineRows (h : assemble m = .ok f) (hid : id < f.size) :
    IsOutline m f id (f.outlineRows id) where
  text := f.outline_eq_join_outlineRows hid
  preorder := f.map_fst_outlineRows id
  subtree := by
    intro k
    rw [map_fst_outlineRows]
    exact f.mem_preorderTree_iff
  once := by
    rw [map_fst_outlineRows]
    exact nodup_preorderTree h hid 0
  parent := fun _ _ _ _ hrows hbefore => exists_row_above h hid hrows hbefore
  lines := splitOn_outline h hid

theorem outlineTree_eq_of_instruction (h : assemble m = .ok f) {i : Instruction}
    (hi : m.instructions[id]? = some i) (depth : Nat) :
    f.outlineTree id depth =
      String.ofList (List.replicate (2 * depth) ' ') ++ i.describe ++ " (" ++
        (ArityClass.of i.opcode).label ++ ")\n" ++
        String.join ((f.children id).map fun c => f.outlineTree c (depth + 1)) := by
  have hnode := instruction_assemble h id
  rw [hi, Option.map_eq_some_iff] at hnode
  obtain ⟨n, hn, rfl⟩ := hnode
  rw [outlineTree_eq, outlineLine, hn]
  rfl

/-- The outline of a node is the text that the recursion on its tree gives: the line
of the instruction with two spaces a level in front, and then the operands in their
order, one level deeper. Its lines are the nodes of the tree, and their indentation
says which node consumes which. -/
theorem outline_assemble (h : assemble m = .ok f) :
    (∀ id < f.size, ∃ i, m.instructions[id]? = some i ∧ ∀ depth,
      f.outlineTree id depth =
        String.ofList (List.replicate (2 * depth) ' ') ++ i.describe ++ " (" ++
          (ArityClass.of i.opcode).label ++ ")\n" ++
          String.join ((f.children id).map fun c => f.outlineTree c (depth + 1))) ∧
    ∀ id < f.size, f.outline id = f.outlineTree id 0 ∧ IsOutline m f id (f.outlineRows id) := by
  constructor
  · intro id hid
    rw [size_assemble h] at hid
    have hi : m.instructions[id]? = some m.instructions[id] := List.getElem?_eq_getElem hid
    exact ⟨m.instructions[id], hi, outlineTree_eq_of_instruction h hi⟩
  · exact fun id hid => ⟨f.outline_eq_outlineTree id, isOutline_outlineRows h hid⟩

theorem outline_assemble_product :
    ∃ f, assemble productMethod = .ok f ∧ IsOutline productMethod f 6 (f.outlineRows 6) ∧
      f.outline 6 = "ireturn (unary)\n  imul (binary)\n    iadd (binary)\n" ++
        "      iload_0 0 (nullary)\n      iload_1 1 (nullary)\n    iload_2 2 (nullary)\n" := by
  obtain ⟨f, hf, h6, h5, h4, h3, h2, h1⟩ : ∃ f, assemble productMethod = .ok f ∧
      f.children 6 = [5] ∧ f.children 5 = [3, 4] ∧ f.children 4 = [] ∧ f.children 3 = [1, 2] ∧
      f.children 2 = [] ∧ f.children 1 = [] := ⟨_, rfl, rfl, rfl, rfl, rfl, rfl, rfl⟩
  obtain ⟨hrecursion, houtline⟩ := outline_assemble hf
  have hsize : f.size = 7 := size_assemble hf
  have hline (id : Nat) (hid : id < 7) (depth : Nat) : f.outlineTree id depth =
      String.ofList (List.replicate (2 * depth) ' ') ++
        (productMethod.instructions[id]?.map (·.headline)).getD "" ++ "\n" ++
        String.join ((f.children id).map fun c => f.outlineTree c (depth + 1)) := by
    obtain ⟨i, hi, heq⟩ := hrecursion id (by rw [hsize]; exact hid)
    have hend : ")\n" = ")" ++ "\n" := by decide
    rw [heq depth, hi, hend]
    simp only [Instruction.headline, Option.map_some, Option.getD_some, String.append_assoc]
  obtain ⟨htree, hrows⟩ := houtline 6 (by rw [hsize]; decide)
  refine ⟨f, hf, hrows, ?_⟩
  rw [htree, hline 6 (by decide), h6]
  simp only [List.map_cons, List.map_nil, hline 5 (by decide), h5, hline 4 (by decide), h4,
    hline 3 (by decide), h3, hline 2 (by decide), h2, hline 1 (by decide), h1]
  decide +kernel

end ClassLens.Forest
