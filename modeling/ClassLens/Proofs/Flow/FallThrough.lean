/-
Fall-through: the edges that go on from a block to the one behind it.

An edge of this kind says that control may pass the end of a block. Whether it
may is up to the last instruction, and the graph asks that by opcode: jumps that
are always taken and exits do not let it pass. Opcodes and operands are looked at
apart, so the answer can only be trusted where the two belong together, and the
statements here are about decoded methods.

A switch goes to its fallback when no case fits, so it never passes control on
either. But it is on neither of the two lists of opcodes, and the graph lets
control fall through behind it: see `choose`. Apart from switches no edge of this
kind is too many, and if whatever is gone to is an instruction, each of them ends
where the next instruction starts.
-/
import ClassLens.Proofs.Code.Agreement
import ClassLens.Proofs.Flow.Transfer

set_option autoImplicit false

namespace ClassLens.Flow

variable {m : Method} {b c : Block} {i j : Instruction} {e : Edge}

/-! ## What the graph lets pass -/

/-- Of the instructions that never pass control on, the graph lets it pass behind
switches and behind no other. -/
theorem continues_iff {category : Category} (h : i.WellSorted category) :
    continues i = true ↔ (Diverts i → Category.of? i.opcode = some .switch) := by
  have hbranching : i.isBranching =
      decide (category ∈ [.branch, .compareBranch, .jump, .subroutine, .switch]) := by
    rw [Bool.eq_iff_iff, decide_eq_true_iff]
    exact h.isBranching_iff
  have hunconditional : isUnconditional i.opcode =
      decide (some category ∈ [some Category.jump, some .subroutine]) := by
    rw [Bool.eq_iff_iff, decide_eq_true_iff, ← h.category]
    exact isUnconditional_iff i
  have hexit : isExit i.opcode = decide (Leaves i) := by
    rw [Bool.eq_iff_iff, decide_eq_true_iff]
    exact isExit_iff_leaves i
  -- All that is asked of the instruction is its category.
  simp only [continues, Diverts, hbranching, hunconditional, hexit, Leaves, h.category]
  cases category <;> decide

/-! ## Neighbours -/

/-- An instruction that is not the last one has one behind it. -/
theorem LaidOut.exists_next {xs : List Instruction} (h : LaidOut xs) (hi : i ∈ xs) (hj : j ∈ xs)
    (hij : i.offset < j.offset) : ∃ k, [i, k] <:+: xs := by
  obtain ⟨front, behind, rfl⟩ := List.append_of_mem hi
  cases behind with
  | nil =>
    have hle : j.offset ≤ i.offset := h.le_last List.getLast?_concat hj
    exact absurd (UInt32.lt_of_lt_of_le hij hle) (UInt32.lt_irrefl _)
  | cons k behind => exact ⟨k, front, behind, by simp⟩

/-- The block that ends with `i` and the block that starts with `j`, where `j` is
the instruction behind `i`. -/
structure Meets (m : Method) (b c : Block) (i j : Instruction) : Prop where
  left : b ∈ blocks m
  right : c ∈ blocks m
  next : [i, j] <:+: m.instructions
  last : b.instructions.getLast? = some i.index
  first : c.instructions.head? = some j.index
  start : c.start = j.offset

theorem getLast?_instructions_iff (hm : LaidOut m.instructions) (hb : b ∈ blocks m)
    (hi : i ∈ m.instructions) :
    b.instructions.getLast? = some i.index ↔ (b.body m).getLast? = some i := by
  rw [(isBlock_of_mem hm hb).indices, List.getLast?_map, Option.map_eq_some_iff]
  constructor
  · rintro ⟨k, hk, hki⟩
    have hkm := (mem_body_iff.mp (List.mem_of_getLast? hk)).1
    rw [hk, hm.eq_of_index_eq hkm hi hki]
  · exact fun hlast => ⟨i, hlast, rfl⟩

/-- What stands behind the last instruction of a block stands behind its range. -/
theorem stop_le_of_next (hm : LaidOut m.instructions)
    (hlast : (b.body m).getLast? = some i) (hij : [i, j] <:+: m.instructions) :
    b.stop ≤ j.offset := by
  apply UInt32.not_lt.mp
  intro hstop
  have hi := mem_body_iff.mp (List.mem_of_getLast? hlast)
  have hlt : i.offset < j.offset := hm.lt_of_next hij
  have hstart : b.start ≤ j.offset := UInt32.le_of_lt (UInt32.lt_of_le_of_lt hi.2.1 hlt)
  have hj : j ∈ b.body m := mem_body_iff.mpr ⟨hij.subset (by simp), hstart, hstop⟩
  -- Nothing in the body is behind its last instruction.
  obtain ⟨front, hbody⟩ := List.getLast?_eq_some_iff.mp hlast
  have hascending : (b.body m).Pairwise (·.offset < ·.offset) := hm.ascending.filter _
  rw [hbody] at hascending hj
  rcases List.mem_append.mp hj with hfront | hsame
  · have hback := (List.pairwise_append.mp hascending).2.2 j hfront i List.mem_cons_self
    exact UInt32.lt_irrefl _ (UInt32.lt_trans hlt hback)
  · rw [List.mem_singleton.mp hsame] at hlt
    exact UInt32.lt_irrefl _ hlt

/-- Where one range stops and the next one starts, two neighbours meet, if
whatever is gone to is an instruction. -/
theorem Aligned.exists_meets (ha : Aligned m) (hm : LaidOut m.instructions) (hb : b ∈ blocks m)
    (hlast : (b.body m).getLast? = some i) (hc : c ∈ blocks m) (hstart : c.start = b.stop) :
    ∃ j, Meets m b c i j := by
  have hi := mem_body_iff.mp (List.mem_of_getLast? hlast)
  have histart : i.offset < c.start := by rw [hstart]; exact hi.2.2
  have hpos : c.start ≠ 0 := by
    intro hzero
    rw [hzero] at histart
    exact UInt32.not_lt_zero histart
  obtain ⟨k, hk, hoffset⟩ := ha.exists_offset_eq (isBlock_of_mem hm hc).leader hpos
  obtain ⟨j, hij⟩ := hm.exists_next hi.1 hk (by rwa [hoffset])
  have hjm : j ∈ m.instructions := hij.subset (by simp)
  have hle : j.offset ≤ k.offset := hm.le_of_next hij hk (by rwa [hoffset])
  have hjstart : c.start = j.offset := by
    rw [hoffset] at hle
    exact UInt32.le_antisymm (hstart ▸ stop_le_of_next hm hlast hij) hle
  have hjbody : j ∈ c.body m := by
    have hstop := (isBlock_of_mem hm hc).start_lt_stop
    rw [mem_body_iff, ← hjstart]
    exact ⟨hjm, UInt32.le_refl _, hstop⟩
  exact ⟨j, hb, hc, hij, (getLast?_instructions_iff hm hb hi.1).mpr hlast,
    head?_instructions hm hc hjbody hjstart, hjstart⟩

theorem Meets.start_eq_stop (h : Meets m b c i j) (ha : Aligned m) (hm : LaidOut m.instructions) :
    c.start = b.stop := by
  have hi : i ∈ m.instructions := h.next.subset (by simp)
  have hj : j ∈ m.instructions := h.next.subset (by simp)
  have hibody : i ∈ b.body m :=
    List.mem_of_getLast? ((getLast?_instructions_iff hm h.left hi).mp h.last)
  have hjbody : j ∈ c.body m :=
    (index_mem_iff hm h.right hj).mp (List.mem_of_mem_head? h.first)
  have hlt : b.start < c.start := by
    rw [h.start]
    exact UInt32.lt_of_le_of_lt (mem_body_iff.mp hibody).2.1 (hm.lt_of_next h.next)
  have hne : b ≠ c := by
    rintro rfl
    exact UInt32.lt_irrefl _ hlt
  exact ha.start_eq_stop hm h.next h.left hibody h.right hjbody hne

/-! ## Edges -/

/-- Where control falls through in a decoded method. Each edge leaves a block
whose last instruction passes control on, or is a switch. And if whatever is gone
to is an instruction, the edges are those from a block to the one that starts
with the next instruction, for each block that ends in this way. -/
theorem fallThrough_edge_iff {pool : Code.Pool} {code : List UInt8}
    (hdecode : Code.decode pool code = .ok m.instructions) (hlength : code.length < UInt32.size) :
    (∀ e ∈ (graph m).edges, e.kind = .fallThrough →
      ∃ b ∈ (graph m).blocks, ∃ i ∈ m.instructions, b.start = e.source ∧
        b.instructions.getLast? = some i.index ∧
        (Diverts i → Category.of? i.opcode = some .switch)) ∧
    (Aligned m → ∀ source target, ⟨source, target, .fallThrough⟩ ∈ (graph m).edges ↔
      ∃ b c i j, Meets m b c i j ∧ (Diverts i → Category.of? i.opcode = some .switch) ∧
        b.start = source ∧ c.start = target) := by
  have hm : LaidOut m.instructions := laidOut_of_decode hdecode hlength
  have hpass : ∀ i ∈ m.instructions,
      (continues i = true ↔ (Diverts i → Category.of? i.opcode = some .switch)) := by
    intro i hi
    obtain ⟨category, hcategory⟩ := Code.exists_wellSorted_of_decode hdecode hi
    exact continues_iff hcategory
  refine ⟨fun e he hkind => ?_, fun ha source target => ⟨fun he => ?_, ?_⟩⟩
  · cases (mem_edges_iff hm).mp he with
    | branch => exact absurd hkind (by simp)
    | exception => exact absurd hkind (by simp)
    | @fallThrough b c i hb hc hlast hi hstart =>
      have him := (mem_body_iff.mp (List.mem_of_getLast? hlast)).1
      exact ⟨b, hb, i, him, rfl, (getLast?_instructions_iff hm hb him).mpr hlast,
        (hpass i him).mp hi⟩
  · cases (mem_edges_iff hm).mp he with
    | @fallThrough b c i hb hc hlast hi hstart =>
      obtain ⟨j, hmeets⟩ := ha.exists_meets hm hb hlast hc hstart
      have him := (mem_body_iff.mp (List.mem_of_getLast? hlast)).1
      exact ⟨b, c, i, j, hmeets, (hpass i him).mp hi, rfl, rfl⟩
  · rintro ⟨b, c, i, j, hmeets, hi, rfl, rfl⟩
    have him : i ∈ m.instructions := hmeets.next.subset (by simp)
    exact (mem_edges_iff hm).mpr (.fallThrough hmeets.left hmeets.right
      ((getLast?_instructions_iff hm hmeets.left him).mp hmeets.last) ((hpass i him).mpr hi)
      (hmeets.start_eq_stop ha hm))

/-- The code of `switch (x) { case 0: return 1; default: return 2; }`. -/
def chooseCode : List UInt8 :=
  [0x1a, 0xab, 0, 0, 0, 0, 0, 0x15, 0, 0, 0, 1, 0, 0, 0, 0, 0, 0, 0, 0x13, 0x04, 0xac, 0x05, 0xac]

/-- The case stands right behind the switch, and the fallback behind the case. -/
def choose : Method :=
  ⟨"Example", "choose", "(I)I", ⟨false, true, false⟩,
    [⟨0, 0, 0x1a, .slot 0⟩, ⟨1, 1, 0xab, .switch 22 [20]⟩, ⟨2, 20, 0x04, .constant (.int 1)⟩,
      ⟨3, 21, 0xac, .plain⟩, ⟨4, 22, 0x05, .constant (.int 2)⟩, ⟨5, 23, 0xac, .plain⟩],
    []⟩

theorem decode_chooseCode :
    Code.decode Code.emptyPool chooseCode = .ok choose.instructions := by
  have hcut : Code.Decodes Code.emptyPool 0 0
      ([0x1a] ++ ([0xab, 0, 0, 0, 0, 0, 0x15, 0, 0, 0, 1, 0, 0, 0, 0, 0, 0, 0, 0x13] ++
        ([0x04] ++ ([0xac] ++ ([0x05] ++ ([0xac] ++ [])))))) choose.instructions :=
    .cons rfl rfl (.cons rfl rfl (.cons rfl rfl (.cons rfl rfl (.cons rfl rfl (.cons rfl rfl
      (.nil 24 6))))))
  exact Code.decode_eq_ok_iff.mpr hcut

theorem blocks_choose :
    blocks choose = [⟨0, 20, [0, 1]⟩, ⟨20, 22, [2, 3]⟩, ⟨22, 24, [4, 5]⟩] := by
  have hleaders : leaders choose 23 = [0, 20, 22] := by
    have hall : 0 :: choose.handlers.map (·.handlerPc) ++
        instructionLeaders choose.instructions = [0, 22, 20, 20, 22] := rfl
    rw [leaders, hall]
    simp [List.mergeSort, dropRepeats]
  rw [blocks_eq rfl]
  show blocksFrom choose.instructions 24 (leaders choose 23) = _
  rw [hleaders]
  rfl

theorem fallThrough_edge_choose :
    Code.decode Code.emptyPool chooseCode = .ok choose.instructions ∧
      chooseCode.length < UInt32.size ∧ Aligned choose ∧
      ⟨0, 20, .fallThrough⟩ ∈ (graph choose).edges ∧
      ⟨20, 22, .fallThrough⟩ ∉ (graph choose).edges := by
  have hlength : chooseCode.length < UInt32.size := by decide
  have haligned : Aligned choose := by
    rintro o (⟨i, hi, ho⟩ | ⟨h, hh, rfl⟩)
    · have htargets : ∀ i ∈ choose.instructions,
          i.targets.all (choose.instructions.map (·.offset)).contains = true := by decide
      exact List.mem_map.mp (List.contains_iff_mem.mp (List.all_eq_true.mp (htargets i hi) o ho))
    · exact absurd hh List.not_mem_nil
  obtain ⟨hsource, hmeet⟩ := fallThrough_edge_iff decode_chooseCode hlength
  have hmem (b : Block) : b ∈ (graph choose).blocks ↔
      b ∈ [⟨0, 20, [0, 1]⟩, ⟨20, 22, [2, 3]⟩, ⟨22, 24, [4, 5]⟩] := by
    rw [graph, blocks_choose]
  have hswitch : Meets choose ⟨0, 20, [0, 1]⟩ ⟨20, 22, [2, 3]⟩ ⟨1, 1, 0xab, .switch 22 [20]⟩
      ⟨2, 20, 0x04, .constant (.int 1)⟩ :=
    ⟨(hmem _).mpr (by decide), (hmem _).mpr (by decide), ⟨[⟨0, 0, 0x1a, .slot 0⟩], _, rfl⟩, rfl,
      rfl, rfl⟩
  refine ⟨decode_chooseCode, hlength, haligned,
    (hmeet haligned 0 20).mpr ⟨_, _, _, _, hswitch, fun _ => rfl, rfl, rfl⟩, fun hedge => ?_⟩
  -- The block at 20 ends with a return.
  obtain ⟨b, hb, i, hi, hstart, hlast, hreturn⟩ := hsource _ hedge rfl
  have hblocks : ∀ b ∈ [(⟨0, 20, [0, 1]⟩ : Block), ⟨20, 22, [2, 3]⟩, ⟨22, 24, [4, 5]⟩],
      b.start = 20 → b.instructions.getLast? = some 3 := by decide
  have hreturns : ∀ i ∈ choose.instructions, i.index = 3 →
      Diverts i ∧ Category.of? i.opcode ≠ some .switch := by decide
  rw [hblocks b ((hmem b).mp hb) hstart] at hlast
  obtain ⟨hdiverts, hne⟩ := hreturns i hi (Option.some.inj hlast).symm
  exact hne (hreturn hdiverts)

/-- Control does not always pass where an edge says that it falls through: behind
the switch of `choose` there is such an edge. -/
theorem fallThrough_edge_behind_switch :
    Code.decode Code.emptyPool chooseCode = .ok choose.instructions ∧
    ¬ ∀ e ∈ (graph choose).edges, e.kind = .fallThrough →
      ∀ b ∈ (graph choose).blocks, b.start = e.source →
      ∀ i ∈ choose.instructions, b.instructions.getLast? = some i.index → ¬ Diverts i := by
  refine ⟨decode_chooseCode, fun hpass => ?_⟩
  have hedge : ⟨0, 20, .fallThrough⟩ ∈ (graph choose).edges := by
    rw [graph, blocks_choose]
    decide
  have hblock : ⟨0, 20, [0, 1]⟩ ∈ (graph choose).blocks := by
    rw [graph, blocks_choose]
    decide
  exact hpass _ hedge rfl _ hblock rfl ⟨1, 1, 0xab, .switch 22 [20]⟩ (by decide) rfl (by decide)

end ClassLens.Flow
