/-
Transfer: what the edges of a flow graph say about where control goes.

Edges are between blocks, and a jump is an instruction. What a block tells about
an instruction in it rests on one fact: no leader lies between the start of a
block and any of its instructions, so a leader is behind the one if and only if
it is behind the other (`le_start_iff`). Hence a branch is a back edge if and
only if its target is not behind the jump itself, and a range of protected code
that starts at a leader covers the start of every block it touches.

A range that starts anywhere else need not. The start of a protected range is no
leader, and handlers are tied to blocks by the start of the block alone, so the
edge is missing where the range starts inside a block: see `guardedDivision`.
-/
import ClassLens.Pattern.Builtin
import ClassLens.Proofs.Flow.Edges

set_option autoImplicit false

namespace ClassLens.Flow

variable {m : Method} {b c : Block} {i j : Instruction} {e : Edge}

/-! ## Loops -/

theorem mem_backEdges_iff (hm : LaidOut m.instructions) :
    e ∈ (graph m).backEdges ↔ ∃ b ∈ blocks m, ∃ i ∈ b.body m, ∃ t ∈ i.targets,
      t ≤ i.offset ∧ e = ⟨b.start, t, .branch⟩ := by
  rw [Graph.backEdges, List.mem_filter, mem_edges_iff hm, Bool.and_eq_true, decide_eq_true_iff]
  constructor
  · rintro ⟨hedge, hkind, hle⟩
    cases hedge with
    | branch hb hi ht =>
      have hleader : IsLeader m _ := .target (mem_body_iff.mp hi).1 ht
      exact ⟨_, hb, _, hi, _, ht, (le_start_iff hm hb hi hleader).mp hle, rfl⟩
    | fallThrough => exact absurd hkind (by decide : ¬ (EdgeKind.fallThrough == .branch) = true)
    | exception => exact absurd hkind (by decide : ¬ (EdgeKind.exception == .branch) = true)
  · rintro ⟨b, hb, i, hi, t, ht, hle, rfl⟩
    have hleader : IsLeader m t := .target (mem_body_iff.mp hi).1 ht
    exact ⟨.branch hb hi ht, rfl, (le_start_iff hm hb hi hleader).mpr hle⟩

/-- A method loops if and only if one of its jumps and switches goes to its own
offset or to an earlier one, wherever the other targets and the handlers are. -/
theorem hasLoop_iff_exists_target_le (hm : LaidOut m.instructions) :
    m.hasLoop = true ↔ ∃ i ∈ m.instructions, ∃ t ∈ i.targets, t ≤ i.offset := by
  rw [Method.hasLoop, Bool.not_eq_true', List.isEmpty_eq_false_iff_exists_mem]
  constructor
  · rintro ⟨e, he⟩
    obtain ⟨b, -, i, hi, t, ht, hle, -⟩ := (mem_backEdges_iff hm).mp he
    exact ⟨i, (mem_body_iff.mp hi).1, t, ht, hle⟩
  · rintro ⟨i, hi, t, ht, hle⟩
    obtain ⟨b, hb, hbody⟩ := exists_mem_body hm hi
    exact ⟨_, (mem_backEdges_iff hm).mpr ⟨b, hb, i, hbody, t, ht, hle, rfl⟩⟩

/-- The jump at 6 goes back to 2; that the switch goes into the increment at 2
and out of the code does not matter. -/
theorem hasLoop_tangled : LaidOut tangled.instructions ∧ tangled.hasLoop = true := by
  have hlaid : LaidOut tangled.instructions := by decide
  have htarget : (2 : UInt32) ∈ (⟨4, 6, 0x9a, .jump 2⟩ : Instruction).targets := by decide
  refine ⟨hlaid, (hasLoop_iff_exists_target_le hlaid).mpr ?_⟩
  exact ⟨⟨4, 6, 0x9a, .jump 2⟩, by decide, 2, htarget, by decide⟩

/-! ## Branches and fall-through -/

/-- The block that lists the instruction. -/
def home (m : Method) (i : Instruction) : Block :=
  ((blocks m).find? (·.instructions.contains i.index)).getD ⟨0, 0, []⟩

/-- Each instruction is listed by one block, and that is its home. -/
theorem mem_blocks_iff_eq_home (hm : LaidOut m.instructions) (hi : i ∈ m.instructions) :
    b ∈ blocks m ∧ i.index ∈ b.instructions ↔ b = home m i := by
  obtain ⟨c, hc, hbody⟩ := exists_mem_body hm hi
  have hlisted : i.index ∈ c.instructions := (index_mem_iff hm hc hi).mpr hbody
  have honly {b : Block} (hb : b ∈ blocks m) (hib : i.index ∈ b.instructions) : b = c :=
    eq_of_mem_body hb hc ((index_mem_iff hm hb hi).mp hib) hbody
  have hhome : home m i = c := by
    rw [home]
    cases hfind : (blocks m).find? (·.instructions.contains i.index) with
    | none => exact absurd (by simpa using hlisted) (List.find?_eq_none.mp hfind c hc)
    | some d => exact honly (List.mem_of_find?_eq_some hfind) (by simpa using List.find?_some hfind)
  rw [hhome]
  constructor
  · exact fun ⟨hb, hib⟩ => honly hb hib
  · rintro rfl
    exact ⟨hc, hlisted⟩

/-- Jumps, switches and handlers go to instructions, and not between them or out
of the code. -/
def Aligned (m : Method) : Prop :=
  ∀ o, IsEntry m o → ∃ j ∈ m.instructions, j.offset = o

theorem Aligned.exists_offset_eq (ha : Aligned m) {o : UInt32} (ho : IsLeader m o) (hne : o ≠ 0) :
    ∃ j ∈ m.instructions, j.offset = o := by
  cases ho with
  | start => exact absurd rfl hne
  | handler hh => exact ha _ (.inr ⟨_, hh, rfl⟩)
  | target hi ht => exact ha _ (.inl ⟨_, hi, ht⟩)
  | next hij hi => exact ⟨_, hij.subset (by simp), rfl⟩

/-- A block starts at an instruction that control may come to. -/
theorem Aligned.exists_start_eq (ha : Aligned m) (hm : LaidOut m.instructions) {o : UInt32}
    (ho : IsEntry m o) : ∃ c ∈ blocks m, c.start = o := by
  obtain ⟨j, hj, rfl⟩ := ha o ho
  obtain ⟨c, hc, hbody⟩ := exists_mem_body hm hj
  exact ⟨c, hc, start_eq_of_isLeader hm hc hbody ho.isLeader⟩

theorem Aligned.exists_ends (ha : Aligned m) (hm : LaidOut m.instructions)
    (he : e ∈ (graph m).edges) :
    (∃ b ∈ blocks m, b.start = e.source) ∧ ∃ c ∈ blocks m, c.start = e.target := by
  cases (mem_edges_iff hm).mp he with
  | branch hb hi ht =>
    exact ⟨⟨_, hb, rfl⟩, ha.exists_start_eq hm (.inl ⟨_, (mem_body_iff.mp hi).1, ht⟩)⟩
  | fallThrough hb hc => exact ⟨⟨_, hb, rfl⟩, ⟨_, hc, rfl⟩⟩
  | exception hb hh => exact ⟨⟨_, hb, rfl⟩, ha.exists_start_eq hm (.inr ⟨_, hh, rfl⟩)⟩

/-- What stands behind an instruction in another block stands behind its range. -/
theorem stop_le_offset (hb : b ∈ blocks m) (hi : i ∈ b.body m) (hc : c ∈ blocks m)
    (hj : j ∈ c.body m) (hbc : b ≠ c) (hlt : i.offset < j.offset) : b.stop ≤ j.offset := by
  apply UInt32.not_lt.mp
  intro hstop
  have hstart : b.start ≤ j.offset :=
    UInt32.le_of_lt (UInt32.lt_of_le_of_lt (mem_body_iff.mp hi).2.1 hlt)
  have hjb : j ∈ b.body m := mem_body_iff.mpr ⟨(mem_body_iff.mp hj).1, hstart, hstop⟩
  exact hbc (eq_of_mem_body hb hc hjb hj)

/-- Between neighbours in different blocks one range stops and the other starts:
the leader that parts them is the second one's offset. -/
theorem Aligned.start_eq_stop (ha : Aligned m) (hm : LaidOut m.instructions)
    (hij : [i, j] <:+: m.instructions) (hb : b ∈ blocks m) (hi : i ∈ b.body m)
    (hc : c ∈ blocks m) (hj : j ∈ c.body m) (hbc : b ≠ c) : c.start = b.stop := by
  have histop : i.offset < b.stop := (mem_body_iff.mp hi).2.2
  have hbehind : b.stop ≤ j.offset := stop_le_offset hb hi hc hj hbc (hm.lt_of_next hij)
  have hleader : IsLeader m b.stop := by
    rcases (isBlock_of_mem hm hb).stop with hleader | hlast
    · exact hleader
    · exact absurd (UInt32.lt_of_lt_of_le (hlast j (mem_body_iff.mp hj).1) hbehind)
        (UInt32.lt_irrefl _)
  have hpos : b.stop ≠ 0 := by
    intro hzero
    rw [hzero] at histop
    exact UInt32.not_lt_zero histop
  obtain ⟨k, hk, hoffset⟩ := ha.exists_offset_eq hleader hpos
  have hstop : j.offset = b.stop := by
    have hle : j.offset ≤ k.offset := hm.le_of_next hij hk (by rwa [hoffset])
    rw [hoffset] at hle
    exact UInt32.le_antisymm hle hbehind
  rw [← hstop] at hleader ⊢
  exact start_eq_of_isLeader hm hc hj hleader

/-- The first of two neighbours in different blocks is the last of its own. -/
theorem getLast?_body_of_next (hm : LaidOut m.instructions) (hij : [i, j] <:+: m.instructions)
    (hb : b ∈ blocks m) (hi : i ∈ b.body m) (hc : c ∈ blocks m) (hj : j ∈ c.body m)
    (hbc : b ≠ c) : (b.body m).getLast? = some i := by
  obtain ⟨front, behind, hbody⟩ := List.append_of_mem hi
  cases behind with
  | nil => rw [hbody, List.getLast?_concat]
  | cons k behind =>
    -- Nothing stands between the neighbours, so the range would reach the second one.
    have hascending : (b.body m).Pairwise (·.offset < ·.offset) := hm.ascending.filter _
    rw [hbody] at hascending
    have hik : i.offset < k.offset :=
      List.rel_of_pairwise_cons (List.pairwise_append.mp hascending).2.1 List.mem_cons_self
    obtain ⟨hkm, -, hkstop⟩ := mem_body_iff.mp (show k ∈ b.body m by rw [hbody]; simp)
    have hbehind : b.stop ≤ j.offset := stop_le_offset hb hi hc hj hbc (hm.lt_of_next hij)
    have hjk : j.offset ≤ k.offset := hm.le_of_next hij hkm hik
    exact absurd (UInt32.lt_of_le_of_lt (UInt32.le_trans hbehind hjk) hkstop)
      (UInt32.lt_irrefl _)

/-- No transfer of control is lost. The branches of the graph are those of the
jumps and switches, in order, each out of the block its instruction is in. And if
whatever is gone to is an instruction, edges are between blocks, and there is one
from block to block wherever control goes on from an instruction to the next. -/
theorem transfers_kept (hm : LaidOut m.instructions) :
    (∃ home : Instruction → Block,
      (∀ i ∈ m.instructions, ∀ b,
        b ∈ (graph m).blocks ∧ i.index ∈ b.instructions ↔ b = home i) ∧
      (graph m).edges.filter (·.kind == .branch) =
        m.instructions.flatMap fun i => i.targets.map (⟨(home i).start, ·, .branch⟩)) ∧
    (Aligned m →
      (∀ e ∈ (graph m).edges, (∃ b ∈ (graph m).blocks, b.start = e.source) ∧
        ∃ c ∈ (graph m).blocks, c.start = e.target) ∧
      ∀ i j b c, [i, j] <:+: m.instructions → ¬ Diverts i →
        b ∈ (graph m).blocks → i.index ∈ b.instructions →
        c ∈ (graph m).blocks → j.index ∈ c.instructions → b ≠ c →
        ⟨b.start, c.start, .fallThrough⟩ ∈ (graph m).edges) := by
  refine ⟨⟨home m, fun i hi b => mem_blocks_iff_eq_home hm hi, ?_⟩, fun ha =>
    ⟨fun e he => ha.exists_ends hm he, ?_⟩⟩
  · have hhome : ∀ b ∈ blocks m, ∀ i ∈ b.body m, b = home m i := by
      intro b hb i hi
      have him := (mem_body_iff.mp hi).1
      exact (mem_blocks_iff_eq_home hm him).mp ⟨hb, (index_mem_iff hm hb him).mpr hi⟩
    calc (graph m).edges.filter (·.kind == .branch)
        = (blocks m).flatMap fun b =>
            (b.body m).flatMap fun i => i.targets.map (⟨b.start, ·, .branch⟩) :=
          filter_branch_edges hm
      _ = (blocks m).flatMap fun b =>
            (b.body m).flatMap fun i => i.targets.map (⟨(home m i).start, ·, .branch⟩) :=
          List.flatMap_congr fun b hb => List.flatMap_congr fun i hi => by
            rw [← hhome b hb i hi]
      _ = ((blocks m).flatMap (·.body m)).flatMap fun i =>
            i.targets.map (⟨(home m i).start, ·, .branch⟩) := List.flatMap_assoc.symm
      _ = _ := by rw [flatMap_body_blocks hm]
  · intro i j b c hij hi hb hib hc hjc hbc
    have hibody := (index_mem_iff hm hb (hij.subset (by simp))).mp hib
    have hjbody := (index_mem_iff hm hc (hij.subset (by simp))).mp hjc
    exact (mem_edges_iff hm).mpr (.fallThrough hb hc
      (getLast?_body_of_next hm hij hb hibody hc hjbody hbc) (continues_of_not_diverts hi)
      (ha.start_eq_stop hm hij hb hibody hc hjbody hbc))

/-- A loop under a handler: out of it at 1, back to its start at 7, and the
handler throws again what it is given. -/
def countdown : Method :=
  ⟨"Example", "countdown", "(I)V", ⟨false, false, false⟩,
    [⟨0, 0, 0x1b, .slot 1⟩, ⟨1, 1, 0x99, .jump 10⟩, ⟨2, 4, 0x84, .increment 1 (-1)⟩,
      ⟨3, 7, 0xa7, .jump 0⟩, ⟨4, 10, 0xb1, .plain⟩, ⟨5, 11, 0xbf, .plain⟩],
    [⟨0, 10, 11, none⟩]⟩

theorem blocks_countdown :
    blocks countdown = [⟨0, 4, [0, 1]⟩, ⟨4, 10, [2, 3]⟩, ⟨10, 11, [4]⟩, ⟨11, 12, [5]⟩] := by
  have hall : 0 :: countdown.handlers.map (·.handlerPc) ++
      instructionLeaders countdown.instructions = [0, 11, 10, 4, 0, 10, 11] := rfl
  have hleaders : leaders countdown 11 = [0, 4, 10, 11] := by
    rw [leaders, hall]
    simp [List.mergeSort, dropRepeats]
  rw [blocks_eq rfl]
  show blocksFrom countdown.instructions 12 (leaders countdown 11) = _
  rw [hleaders]
  rfl

theorem transfers_kept_countdown :
    LaidOut countdown.instructions ∧ Aligned countdown ∧
      (∃ home : Instruction → Block, home ⟨3, 7, 0xa7, .jump 0⟩ = ⟨4, 10, [2, 3]⟩ ∧
        (graph countdown).edges.filter (·.kind == .branch) =
          countdown.instructions.flatMap fun i => i.targets.map (⟨(home i).start, ·, .branch⟩)) ∧
      (∀ e ∈ (graph countdown).edges, ∃ c ∈ (graph countdown).blocks, c.start = e.target) ∧
      ⟨0, 4, .fallThrough⟩ ∈ (graph countdown).edges := by
  have hlaid : LaidOut countdown.instructions := by decide
  have haligned : Aligned countdown := by
    rintro o (⟨i, hi, ho⟩ | ⟨h, hh, rfl⟩)
    · have htargets : ∀ i ∈ countdown.instructions,
          i.targets.all (countdown.instructions.map (·.offset)).contains = true := by decide
      exact List.mem_map.mp (List.contains_iff_mem.mp (List.all_eq_true.mp (htargets i hi) o ho))
    · have hhandlers : ∀ h ∈ countdown.handlers,
          h.handlerPc ∈ countdown.instructions.map (·.offset) := by decide
      exact List.mem_map.mp (hhandlers h hh)
  obtain ⟨⟨home, hhome, hbranch⟩, hkept⟩ := transfers_kept hlaid
  obtain ⟨hends, hthrough⟩ := hkept haligned
  have hmem (b : Block) : b ∈ (graph countdown).blocks ↔
      b ∈ [⟨0, 4, [0, 1]⟩, ⟨4, 10, [2, 3]⟩, ⟨10, 11, [4]⟩, ⟨11, 12, [5]⟩] := by
    rw [graph, blocks_countdown]
  have htest : [⟨1, 1, 0x99, .jump 10⟩, ⟨2, 4, 0x84, .increment 1 (-1)⟩] <:+:
      countdown.instructions := ⟨[⟨0, 0, 0x1b, .slot 1⟩], _, rfl⟩
  refine ⟨hlaid, haligned, ⟨home, ?_, hbranch⟩, fun e he => (hends e he).2, ?_⟩
  · exact ((hhome _ (by decide) ⟨4, 10, [2, 3]⟩).mp ⟨(hmem _).mpr (by decide), by decide⟩).symm
  · exact hthrough _ _ ⟨0, 4, [0, 1]⟩ ⟨4, 10, [2, 3]⟩ htest (by decide)
      ((hmem _).mpr (by decide)) (by decide) ((hmem _).mpr (by decide)) (by decide) (by decide)

/-! ## Exceptions -/

/-- A handler that protects an instruction is a successor of its block if and
only if the start of the block is protected, by this range or by another one that
leads to the same place. A range that starts at a leader leaves out no block. -/
theorem exception_edge_iff (hm : LaidOut m.instructions) {h : ExceptionHandler}
    (hh : h ∈ m.handlers) (hi : i ∈ m.instructions) (hstart : h.startPc ≤ i.offset)
    (hstop : i.offset < h.endPc) (hb : b ∈ (graph m).blocks) (hib : i.index ∈ b.instructions) :
    (⟨b.start, h.handlerPc, .exception⟩ ∈ (graph m).edges ↔ ∃ g ∈ m.handlers,
      g.handlerPc = h.handlerPc ∧ g.startPc ≤ b.start ∧ b.start < g.endPc) ∧
    (h.startPc ≤ b.start ∨ IsLeader m h.startPc →
      ⟨b.start, h.handlerPc, .exception⟩ ∈ (graph m).edges) := by
  have hbody : i ∈ b.body m := (index_mem_iff hm hb hi).mp hib
  have hedge : ⟨b.start, h.handlerPc, .exception⟩ ∈ (graph m).edges ↔ ∃ g ∈ m.handlers,
      g.handlerPc = h.handlerPc ∧ g.startPc ≤ b.start ∧ b.start < g.endPc := by
    rw [mem_edges_iff hm]
    generalize hsource : b.start = o
    generalize htarget : h.handlerPc = t
    constructor
    · rintro (_ | _ | ⟨hc, hg, hfrom, hto⟩)
      exact ⟨_, hg, rfl, hfrom, hto⟩
    · rintro ⟨g, hg, rfl, hfrom, hto⟩
      subst hsource
      exact .exception hb hg hfrom hto
  refine ⟨hedge, fun hcovered => hedge.mpr ⟨h, hh, rfl, ?_, ?_⟩⟩
  · rcases hcovered with hle | hleader
    · exact hle
    · exact (le_start_iff hm hb hbody hleader).mpr hstart
  · exact UInt32.lt_of_le_of_lt (mem_body_iff.mp hbody).2.1 hstop

theorem exception_edge_countdown :
    LaidOut countdown.instructions ∧ ⟨4, 10, [2, 3]⟩ ∈ (graph countdown).blocks ∧
      ⟨4, 11, .exception⟩ ∈ (graph countdown).edges := by
  have hlaid : LaidOut countdown.instructions := by decide
  have hblock : ⟨4, 10, [2, 3]⟩ ∈ (graph countdown).blocks := by
    rw [graph, blocks_countdown]
    decide
  have hhandler : ⟨0, 10, 11, none⟩ ∈ countdown.handlers := by decide
  have hjump : ⟨3, 7, 0xa7, .jump 0⟩ ∈ countdown.instructions := by decide
  exact ⟨hlaid, hblock, (exception_edge_iff hlaid hhandler hjump (by decide) (by decide) hblock
    (by decide)).2 (.inr .start)⟩

/-- The code of `int x = 1; try { return x / x; } catch … { return 0; }`. -/
def guardedCode : List UInt8 :=
  [0x04, 0x3b, 0x1a, 0x1a, 0x6c, 0xac, 0x4c, 0x03, 0xac]

/-- The division is protected, and the assignment in front of it is not. Nothing
parts the two, so they are in one block, which starts outside the range. -/
def guardedDivision : Method :=
  ⟨"Example", "guardedDivision", "()I", ⟨false, true, false⟩,
    [⟨0, 0, 0x04, .constant (.int 1)⟩, ⟨1, 1, 0x3b, .slot 0⟩, ⟨2, 2, 0x1a, .slot 0⟩,
      ⟨3, 3, 0x1a, .slot 0⟩, ⟨4, 4, 0x6c, .plain⟩, ⟨5, 5, 0xac, .plain⟩, ⟨6, 6, 0x4c, .slot 1⟩,
      ⟨7, 7, 0x03, .constant (.int 0)⟩, ⟨8, 8, 0xac, .plain⟩],
    [⟨2, 5, 6, none⟩]⟩

/-- The handler of a protected instruction is not always a successor of its
block: nothing leads to the one of `guardedDivision`. -/
theorem exception_edge_missing :
    Code.decode Code.emptyPool guardedCode = .ok guardedDivision.instructions ∧
    ¬ ∀ h ∈ guardedDivision.handlers, ∀ i ∈ guardedDivision.instructions,
      h.startPc ≤ i.offset → i.offset < h.endPc → ∀ b ∈ (graph guardedDivision).blocks,
      i.index ∈ b.instructions →
      ⟨b.start, h.handlerPc, .exception⟩ ∈ (graph guardedDivision).edges := by
  have hcut : Code.Decodes Code.emptyPool 0 0
      ([0x04] ++ ([0x3b] ++ ([0x1a] ++ ([0x1a] ++ ([0x6c] ++ ([0xac] ++ ([0x4c] ++ ([0x03] ++
        ([0xac] ++ []))))))))) guardedDivision.instructions :=
    .cons rfl rfl (.cons rfl rfl (.cons rfl rfl (.cons rfl rfl (.cons rfl rfl (.cons rfl rfl
      (.cons rfl rfl (.cons rfl rfl (.cons rfl rfl (.nil 9 9)))))))))
  have hleaders : leaders guardedDivision 8 = [0, 6] := by
    have hall : 0 :: guardedDivision.handlers.map (·.handlerPc) ++
        instructionLeaders guardedDivision.instructions = [0, 6, 6] := rfl
    rw [leaders, hall]
    simp [List.mergeSort, dropRepeats]
  have hblocks : blocks guardedDivision = [⟨0, 6, [0, 1, 2, 3, 4, 5]⟩, ⟨6, 9, [6, 7, 8]⟩] := by
    rw [blocks_eq rfl]
    show blocksFrom guardedDivision.instructions 9 (leaders guardedDivision 8) = _
    rw [hleaders]
    rfl
  refine ⟨Code.decode_eq_ok_iff.mpr hcut, fun hcovered => ?_⟩
  have hedge := hcovered ⟨2, 5, 6, none⟩ (by decide) ⟨4, 4, 0x6c, .plain⟩ (by decide) (by decide)
    (by decide) ⟨0, 6, [0, 1, 2, 3, 4, 5]⟩ (by rw [graph, hblocks]; decide) (by decide)
  rw [graph, hblocks] at hedge
  revert hedge
  decide

end ClassLens.Flow
