/-
Edges: the three reasons for an edge, and the order of the branches.

The graph finds the last instruction of a block through the number the block
lists, and the next block by the offset where it starts. Both are what they
should be: the number leads back to the last instruction of the body, and of the
block that is found only its start is used. So `IsEdge` can say what edges there
are without numbers and searches, and `mem_edges_iff` is the one place where the
loops over blocks and handlers are opened.

A branch is stated of any instruction of the body and not of the last one. That
is the same, since no other instruction of a block has targets, and it is what
makes the branches of a method, in order, those of its instructions in order
(`filter_branch_edges`).
-/
import ClassLens.Proofs.Flow.Blocks

set_option autoImplicit false

namespace ClassLens.Flow

variable {m : Method} {b c : Block} {i j : Instruction} {e : Edge}

/-! ## Edges out of a block -/

/-- Whether the graph lets control go on to what stands behind the instruction. -/
def continues (i : Instruction) : Bool :=
  if i.isBranching then !isUnconditional i.opcode else !isExit i.opcode

theorem continues_of_not_diverts (h : ¬ Diverts i) : continues i = true := by
  rw [Diverts, not_or, ← isExit_iff_leaves] at h
  obtain ⟨hexit, hcategory⟩ := h
  have hcond : ¬ isUnconditional i.opcode = true := by
    rw [isUnconditional_iff]
    intro hmem
    apply hcategory
    simp only [List.mem_cons, List.not_mem_nil, or_false] at hmem ⊢
    rcases hmem with hjump | hsubroutine
    · exact .inl hjump
    · exact .inr (.inl hsubroutine)
  rw [continues]
  split
  · simpa using hcond
  · simpa using hexit

/-- The number a block lists last is that of the last instruction of its body. -/
theorem getLast?_bind_eq (hm : LaidOut m.instructions) (hb : b ∈ blocks m) :
    b.instructions.getLast?.bind (m.instructions.toArray[·]?) = (b.body m).getLast? := by
  rw [(isBlock_of_mem hm hb).indices, List.getLast?_map]
  cases hlast : (b.body m).getLast? with
  | none => rfl
  | some i =>
    have hi := (mem_body_iff.mp (List.mem_of_getLast? hlast)).1
    rw [Option.map_some, Option.bind_some, List.getElem?_toArray, hm.getElem?_index hi]

/-- A jump or switch and any other instruction make their edges alike: to the
targets, of which the other has none, and then on to what follows. -/
theorem blockEdges_eq (hm : LaidOut m.instructions) (hb : b ∈ blocks m)
    (hlast : (b.body m).getLast? = some i) (bs : List Block) :
    blockEdges m.instructions.toArray bs b =
      i.targets.map (⟨b.start, ·, .branch⟩) ++ if continues i then fallThrough bs b else [] := by
  rw [blockEdges, getLast?_bind_eq hm hb, hlast, continues]
  simp only [i.branchTargets?_eq]
  by_cases hbranch : i.isBranching = true
  · rw [if_pos hbranch, if_pos hbranch]
    cases isUnconditional i.opcode <;> rfl
  · rw [if_neg hbranch, if_neg hbranch, i.targets_eq_nil (by simpa using hbranch), List.map_nil,
      List.nil_append]
    cases isExit i.opcode <;> rfl

theorem mem_fallThrough_iff {bs : List Block} :
    e ∈ fallThrough bs b ↔ ∃ c ∈ bs, c.start = b.stop ∧ e = ⟨b.start, c.start, .fallThrough⟩ := by
  rw [fallThrough]
  cases hfind : bs.find? (·.start == b.stop) with
  | none =>
    have hnone := List.find?_eq_none.mp hfind
    constructor
    · exact fun h => absurd h List.not_mem_nil
    · rintro ⟨c, hc, hstart, -⟩
      exact absurd (by simpa using hstart) (hnone c hc)
  | some next =>
    have hstart : next.start = b.stop := by simpa using List.find?_some hfind
    rw [List.mem_singleton]
    constructor
    · exact fun he => ⟨next, List.mem_of_find?_eq_some hfind, hstart, he⟩
    -- Another block that starts there makes the same edge.
    · rintro ⟨c, -, hc, rfl⟩
      rw [hc, hstart]

theorem mem_handlerEdges_iff {bs : List Block} {h : ExceptionHandler} :
    e ∈ handlerEdges bs h ↔ ∃ b ∈ bs, (h.startPc ≤ b.start ∧ b.start < h.endPc) ∧
      e = ⟨b.start, h.handlerPc, .exception⟩ := by
  rw [handlerEdges, List.mem_map]
  refine exists_congr fun b => ?_
  rw [List.mem_filter, Bool.and_eq_true, decide_eq_true_iff, decide_eq_true_iff, and_assoc]
  exact and_congr_right fun _ => and_congr_right fun _ => eq_comm

/-! ## Reasons for an edge -/

/-- The edges of a method: from a block to the targets of an instruction in it,
to the block that starts where it stops, unless its last instruction forbids
that, and to the handlers whose range its start lies in. -/
inductive IsEdge (m : Method) : Edge → Prop where
  | branch {b : Block} {i : Instruction} {t : UInt32} (hb : b ∈ blocks m) (hi : i ∈ b.body m)
      (ht : t ∈ i.targets) : IsEdge m ⟨b.start, t, .branch⟩
  | fallThrough {b c : Block} {i : Instruction} (hb : b ∈ blocks m) (hc : c ∈ blocks m)
      (hlast : (b.body m).getLast? = some i) (hi : continues i = true)
      (hstart : c.start = b.stop) : IsEdge m ⟨b.start, c.start, .fallThrough⟩
  | exception {b : Block} {h : ExceptionHandler} (hb : b ∈ blocks m) (hh : h ∈ m.handlers)
      (hstart : h.startPc ≤ b.start) (hstop : b.start < h.endPc) :
      IsEdge m ⟨b.start, h.handlerPc, .exception⟩

theorem getLast?_body_of_mem_targets (hm : LaidOut m.instructions) (hb : b ∈ blocks m)
    (hi : i ∈ b.body m) {t : UInt32} (ht : t ∈ i.targets) : (b.body m).getLast? = some i := by
  obtain ⟨front, behind, hbody⟩ := List.append_of_mem hi
  have hnil := eq_nil_of_endsBlock hm hb hbody (.inl (i.isBranching_of_mem_targets ht))
  rw [hbody, hnil, List.getLast?_concat]

theorem exists_getLast?_body (hm : LaidOut m.instructions) (hb : b ∈ blocks m) :
    ∃ i, (b.body m).getLast? = some i :=
  ⟨_, List.getLast?_eq_some_getLast (isBlock_of_mem hm hb).body_ne_nil⟩

theorem mem_edges_iff (hm : LaidOut m.instructions) : e ∈ (graph m).edges ↔ IsEdge m e := by
  rw [graph, List.mem_append, List.mem_flatMap, List.mem_flatMap]
  constructor
  · rintro (⟨b, hb, he⟩ | ⟨h, hh, he⟩)
    · obtain ⟨i, hlast⟩ := exists_getLast?_body hm hb
      rw [blockEdges_eq hm hb hlast, List.mem_append, List.mem_map] at he
      rcases he with ⟨t, ht, rfl⟩ | he
      · exact .branch hb (List.mem_of_getLast? hlast) ht
      · split at he
        · rename_i hi
          obtain ⟨c, hc, hstart, rfl⟩ := mem_fallThrough_iff.mp he
          exact .fallThrough hb hc hlast hi hstart
        · exact absurd he List.not_mem_nil
    · obtain ⟨b, hb, ⟨hstart, hstop⟩, rfl⟩ := mem_handlerEdges_iff.mp he
      exact .exception hb hh hstart hstop
  · rintro (⟨hb, hi, ht⟩ | ⟨hb, hc, hlast, hi, hstart⟩ | ⟨hb, hh, hstart, hstop⟩)
    · refine .inl ⟨_, hb, ?_⟩
      rw [blockEdges_eq hm hb (getLast?_body_of_mem_targets hm hb hi ht)]
      exact List.mem_append_left _ (List.mem_map_of_mem ht)
    · refine .inl ⟨_, hb, ?_⟩
      rw [blockEdges_eq hm hb hlast, if_pos hi]
      exact List.mem_append_right _ (mem_fallThrough_iff.mpr ⟨_, hc, hstart, rfl⟩)
    · exact .inr ⟨_, hh, mem_handlerEdges_iff.mpr ⟨_, hb, ⟨hstart, hstop⟩, rfl⟩⟩

/-! ## Branches in order -/

theorem filter_branch_blockEdges (hm : LaidOut m.instructions) (hb : b ∈ blocks m)
    (bs : List Block) :
    (blockEdges m.instructions.toArray bs b).filter (·.kind == .branch) =
      (b.body m).flatMap fun i => i.targets.map (⟨b.start, ·, .branch⟩) := by
  obtain ⟨i, hlast⟩ := exists_getLast?_body hm hb
  obtain ⟨front, hbody⟩ := List.getLast?_eq_some_iff.mp hlast
  -- In front of the last instruction there are no targets.
  have hfront : ∀ j ∈ front, j.targets.map (⟨b.start, ·, EdgeKind.branch⟩) = ([] : List Edge) := by
    intro j hj
    obtain ⟨before, after, rfl⟩ := List.append_of_mem hj
    have hsplit : b.body m = before ++ j :: (after ++ [i]) := by
      rw [hbody, List.append_assoc, List.cons_append]
    have hplain : j.isBranching = false := by
      rw [← Bool.not_eq_true]
      intro hbranch
      have hnil := eq_nil_of_endsBlock hm hb hsplit (.inl hbranch)
      simp at hnil
    rw [j.targets_eq_nil hplain, List.map_nil]
  have hthrough : ∀ e ∈ (if continues i then fallThrough bs b else []),
      ¬ (e.kind == .branch) = true := by
    intro e he
    split at he
    · obtain ⟨c, -, -, rfl⟩ := mem_fallThrough_iff.mp he
      show ¬ (EdgeKind.fallThrough == EdgeKind.branch) = true
      decide
    · exact absurd he List.not_mem_nil
  have hbranches : ∀ e ∈ i.targets.map (⟨b.start, ·, EdgeKind.branch⟩ : UInt32 → Edge),
      (e.kind == .branch) = true := by
    intro e he
    obtain ⟨t, -, rfl⟩ := List.mem_map.mp he
    rfl
  rw [blockEdges_eq hm hb hlast, List.filter_append, List.filter_eq_self.mpr hbranches,
    List.filter_eq_nil_iff.mpr hthrough, List.append_nil, hbody, List.flatMap_append,
    List.flatMap_eq_nil_iff.mpr hfront, List.nil_append, List.flatMap_singleton]

theorem filter_branch_handlerEdges (bs : List Block) (h : ExceptionHandler) :
    (handlerEdges bs h).filter (·.kind == .branch) = [] := by
  apply List.filter_eq_nil_iff.mpr
  intro e he
  obtain ⟨b, -, -, rfl⟩ := mem_handlerEdges_iff.mp he
  show ¬ (EdgeKind.exception == EdgeKind.branch) = true
  decide

/-- The branches of the graph, block by block and in each of them instruction by
instruction. -/
theorem filter_branch_edges (hm : LaidOut m.instructions) :
    (graph m).edges.filter (·.kind == .branch) =
      (blocks m).flatMap fun b =>
        (b.body m).flatMap fun i => i.targets.map (⟨b.start, ·, .branch⟩) := by
  rw [graph, List.filter_append, List.filter_flatMap, List.filter_flatMap,
    List.flatMap_eq_nil_iff.mpr fun h _ => filter_branch_handlerEdges _ h, List.append_nil]
  exact List.flatMap_congr fun b hb => filter_branch_blockEdges hm hb _

end ClassLens.Flow
