/-
Blocks: the ranges between leaders cut the code into runs of instructions.

A block is looked at through its body, the instructions in its range. Ranges
follow one another without a gap, so bodies put one behind the other are all the
instructions (`flatMap_body_blocks`), whether ranges without instructions are
dropped or not. `IsBlock` says what is known of one block on its own: where it
may start, that no leader lies inside it, and what ends it. From these two every
fact about blocks and edges follows, and the recursion over the leaders is not
opened again.

Offsets need not start at 0 for any of this: the offset 0 is a leader whatever
the code, so no instruction stands in front of the first range.
-/
import Mathlib.Data.List.Basic
import ClassLens.Proofs.Flow.Layout
import ClassLens.Proofs.Flow.Leaders

set_option autoImplicit false

namespace ClassLens.Flow

/-! ## Cutting at the leaders -/

/-- The instructions of the method in the range of the block. -/
def Block.body (m : Method) (b : Block) : List Instruction :=
  span m.instructions b.start b.stop

theorem block?_eq_some_iff {xs : List Instruction} {start stop : UInt32} {b : Block} :
    block? xs start stop = some b ↔
      span xs start stop ≠ [] ∧ b = ⟨start, stop, (span xs start stop).map (·.index)⟩ := by
  rw [block?, ← span]
  cases span xs start stop <;> simp [eq_comm]

theorem mem_blocksFrom_iff {xs : List Instruction} {codeEnd : UInt32} {ls : List UInt32}
    {b : Block} :
    b ∈ blocksFrom xs codeEnd ls ↔ ∃ before after, ls = before ++ b.start :: after ∧
      b.stop = after.head?.getD codeEnd ∧ span xs b.start b.stop ≠ [] ∧
      b.instructions = (span xs b.start b.stop).map (·.index) := by
  induction ls with
  | nil => simp [blocksFrom]
  | cons start rest ih =>
    rw [blocksFrom, List.mem_append, Option.mem_toList, block?_eq_some_iff, ih]
    constructor
    · rintro (⟨hne, rfl⟩ | ⟨before, after, rfl, hb⟩)
      · exact ⟨[], rest, rfl, rfl, hne, rfl⟩
      · exact ⟨start :: before, after, rfl, hb⟩
    · rintro ⟨before, after, hls, hstop, hne, hindices⟩
      cases before with
      | nil =>
        obtain ⟨rfl, rfl⟩ := List.cons.inj hls
        rw [← hstop]
        exact .inl ⟨hne, by rw [← hindices]⟩
      | cons _ before =>
        obtain ⟨rfl, rfl⟩ := List.cons.inj hls
        exact .inr ⟨before, after, rfl, hstop, hne, hindices⟩

/-- The next leader is the least of those that follow; behind the last one the
code ends. -/
theorem head?_getD_le {codeEnd : UInt32} {ls : List UInt32} (hls : ls.Pairwise (· < ·)) {o : UInt32}
    (ho : o ∈ ls) : ls.head?.getD codeEnd ≤ o := by
  cases ls with
  | nil => simp at ho
  | cons a ls =>
    rcases List.mem_cons.mp ho with rfl | ho
    · exact UInt32.le_refl _
    · exact UInt32.le_of_lt (List.rel_of_pairwise_cons hls ho)

/-- A range without instructions adds nothing, so it may as well be dropped. -/
theorem flatMap_span_block? (xs : List Instruction) (start stop : UInt32) :
    (block? xs start stop).toList.flatMap (fun b => span xs b.start b.stop) =
      span xs start stop := by
  rw [block?, ← span]
  cases hspan : span xs start stop <;> simp [hspan]

/-- A range stops at a leader or at the end of the code. -/
theorem stop_mem_or_eq {xs : List Instruction} {codeEnd : UInt32} {ls : List UInt32} {b : Block}
    (hb : b ∈ blocksFrom xs codeEnd ls) : b.stop ∈ ls ∨ b.stop = codeEnd := by
  obtain ⟨before, after, rfl, hstop, -⟩ := mem_blocksFrom_iff.mp hb
  cases after with
  | nil => exact .inr hstop
  | cons next after =>
    rw [hstop]
    exact .inl (by simp)

/-- The leaders other than its own are in front of a range or behind it. -/
theorem le_start_or_stop_le {xs : List Instruction} {codeEnd : UInt32} {ls : List UInt32}
    {b : Block} (hls : ls.Pairwise (· < ·)) (hb : b ∈ blocksFrom xs codeEnd ls) {o : UInt32}
    (ho : o ∈ ls) : o ≤ b.start ∨ b.stop ≤ o := by
  obtain ⟨before, after, rfl, hstop, -⟩ := mem_blocksFrom_iff.mp hb
  obtain ⟨-, htail, hbefore⟩ := List.pairwise_append.mp hls
  rcases List.mem_append.mp ho with hfront | hbehind
  · exact .inl (UInt32.le_of_lt (hbefore o hfront b.start List.mem_cons_self))
  · rcases List.mem_cons.mp hbehind with rfl | hbehind
    · exact .inl (UInt32.le_refl _)
    · rw [hstop]
      exact .inr (head?_getD_le htail.of_cons hbehind)

theorem flatMap_span_blocksFrom {xs : List Instruction} (hxs : xs.Pairwise (·.offset < ·.offset))
    {codeEnd start : UInt32} {rest : List UInt32} (hls : (start :: rest).Pairwise (· < ·))
    (hend : ∀ o ∈ start :: rest, o ≤ codeEnd) :
    (blocksFrom xs codeEnd (start :: rest)).flatMap (fun b => span xs b.start b.stop) =
      span xs start codeEnd := by
  induction rest generalizing start with
  | nil =>
    rw [blocksFrom, blocksFrom, List.append_nil, flatMap_span_block?]
    rfl
  | cons next rest ih =>
    have hnext : ∀ o ∈ next :: rest, o ≤ codeEnd :=
      fun o ho => hend o (List.mem_cons_of_mem start ho)
    have hstart : start < next := List.rel_of_pairwise_cons hls List.mem_cons_self
    rw [blocksFrom, List.flatMap_append, flatMap_span_block?, ih hls.of_cons hnext]
    exact span_append_span hxs (UInt32.le_of_lt hstart) (hnext next List.mem_cons_self)

theorem pairwise_blocksFrom {xs : List Instruction} {codeEnd : UInt32} {ls : List UInt32}
    (hls : ls.Pairwise (· < ·)) :
    (blocksFrom xs codeEnd ls).Pairwise fun b c => b.stop ≤ c.start := by
  induction ls with
  | nil => exact .nil
  | cons start rest ih =>
    rw [blocksFrom]
    refine List.pairwise_append.mpr ⟨?_, ih hls.of_cons, fun b hb c hc => ?_⟩
    · cases block? xs start (rest.head?.getD codeEnd) with
      | none => exact .nil
      | some b => exact List.pairwise_singleton _ b
    · obtain ⟨-, rfl⟩ := block?_eq_some_iff.mp (Option.mem_toList.mp hb)
      obtain ⟨before, after, hrest, -⟩ := mem_blocksFrom_iff.mp hc
      exact head?_getD_le hls.of_cons (by rw [hrest]; exact List.mem_append_cons_self)

/-! ## One block -/

variable {m : Method} {b c : Block} {i j : Instruction}

theorem blocks_eq {last : Instruction} (hlast : m.instructions.getLast? = some last) :
    blocks m = blocksFrom m.instructions (last.offset + 1) (leaders m last.offset) := by
  rw [blocks, hlast]

theorem exists_getLast?_of_mem_blocks (hb : b ∈ blocks m) :
    ∃ last, m.instructions.getLast? = some last := by
  cases hlast : m.instructions.getLast? with
  | none => simp [blocks, hlast] at hb
  | some last => exact ⟨last, rfl⟩

/-- What is known of a block on its own: it starts at a leader and has none
inside, it ends at a leader or behind all instructions, and what it lists is its
body, which is not empty. -/
structure IsBlock (m : Method) (b : Block) : Prop where
  leader : IsLeader m b.start
  gap : ∀ o, IsLeader m o → o ≤ b.start ∨ b.stop ≤ o
  stop : IsLeader m b.stop ∨ ∀ i ∈ m.instructions, i.offset < b.stop
  indices : b.instructions = (b.body m).map (·.index)
  body_ne_nil : b.body m ≠ []

theorem isBlock_of_mem (hm : LaidOut m.instructions) (hb : b ∈ blocks m) : IsBlock m b := by
  obtain ⟨last, hlast⟩ := exists_getLast?_of_mem_blocks hb
  have hroom := hm.room last hlast
  rw [blocks_eq hlast] at hb
  have hstop := stop_mem_or_eq hb
  obtain ⟨before, after, hleaders, -, hne, hindices⟩ := mem_blocksFrom_iff.mp hb
  have hstart : b.start ∈ leaders m last.offset := by
    rw [hleaders]
    exact List.mem_append_cons_self
  refine ⟨(mem_leaders_iff.mp hstart).1, fun o ho => ?_, ?_, hindices, hne⟩
  · by_cases hle : o ≤ last.offset
    · exact le_start_or_stop_le (pairwise_leaders m last.offset) hb (mem_leaders_iff.mpr ⟨ho, hle⟩)
    -- A leader behind the last instruction is not in the list, and behind all ranges.
    · have hbehind : last.offset + 1 ≤ o :=
        UInt32.not_lt.mp fun h => hle ((lt_add_one_iff hroom).mp h)
      rcases hstop with hmem | hend
      · have hlt := (lt_add_one_iff hroom).mpr (mem_leaders_iff.mp hmem).2
        exact .inr (UInt32.le_trans (UInt32.le_of_lt hlt) hbehind)
      · exact .inr (by rwa [hend])
  · rcases hstop with hmem | hend
    · exact .inl (mem_leaders_iff.mp hmem).1
    · refine .inr fun i hi => ?_
      rw [hend]
      exact (lt_add_one_iff hroom).mpr (hm.le_last hlast hi)

theorem mem_body_iff : i ∈ b.body m ↔ i ∈ m.instructions ∧ b.start ≤ i.offset ∧ i.offset < b.stop :=
  mem_span_iff

theorem IsBlock.start_lt_stop (h : IsBlock m b) : b.start < b.stop := by
  obtain ⟨i, hi⟩ := List.exists_mem_of_ne_nil _ h.body_ne_nil
  obtain ⟨-, hstart, hstop⟩ := mem_body_iff.mp hi
  exact UInt32.lt_of_le_of_lt hstart hstop

/-! ## All blocks -/

/-- The first range starts at 0. -/
theorem exists_leaders_eq (m : Method) (last : UInt32) : ∃ rest, leaders m last = 0 :: rest := by
  have hzero : 0 ∈ leaders m last := mem_leaders_iff.mpr ⟨.start, UInt32.zero_le⟩
  have hascending := pairwise_leaders m last
  cases hleaders : leaders m last with
  | nil => simp [hleaders] at hzero
  | cons o rest =>
    rw [hleaders] at hzero hascending
    rcases List.mem_cons.mp hzero with rfl | hzero
    · exact ⟨rest, rfl⟩
    · exact absurd (List.rel_of_pairwise_cons hascending hzero) UInt32.not_lt_zero

/-- The bodies of the blocks, one behind the other, are the instructions. -/
theorem flatMap_body_blocks (hm : LaidOut m.instructions) :
    (blocks m).flatMap (·.body m) = m.instructions := by
  cases hlast : m.instructions.getLast? with
  | none =>
    rw [List.getLast?_eq_none_iff] at hlast
    simp [blocks, hlast]
  | some last =>
    have hroom := hm.room last hlast
    obtain ⟨rest, hleaders⟩ := exists_leaders_eq m last.offset
    have hascending := pairwise_leaders m last.offset
    rw [hleaders] at hascending
    have hend : ∀ o ∈ (0 : UInt32) :: rest, o ≤ last.offset + 1 := by
      intro o ho
      rw [← hleaders] at ho
      exact UInt32.le_of_lt ((lt_add_one_iff hroom).mpr (mem_leaders_iff.mp ho).2)
    rw [blocks_eq hlast, hleaders]
    refine (flatMap_span_blocksFrom hm.ascending hascending hend).trans ?_
    apply List.filter_eq_self.mpr
    intro i hi
    rw [Bool.and_eq_true, decide_eq_true_iff, decide_eq_true_iff]
    exact ⟨UInt32.zero_le, (lt_add_one_iff hroom).mpr (hm.le_last hlast hi)⟩

theorem pairwise_blocks (m : Method) : (blocks m).Pairwise fun b c => b.stop ≤ c.start := by
  cases hlast : m.instructions.getLast? with
  | none => simp [blocks, hlast]
  | some last =>
    rw [blocks_eq hlast]
    exact pairwise_blocksFrom (pairwise_leaders m last.offset)

/-- Each instruction stands in some block. -/
theorem exists_mem_body (hm : LaidOut m.instructions) (hi : i ∈ m.instructions) :
    ∃ b ∈ blocks m, i ∈ b.body m := by
  rw [← flatMap_body_blocks hm] at hi
  exact List.mem_flatMap.mp hi

/-- Blocks that share an instruction are the same block. -/
theorem eq_of_mem_body (hb : b ∈ blocks m) (hc : c ∈ blocks m) (hib : i ∈ b.body m)
    (hic : i ∈ c.body m) : b = c := by
  obtain ⟨-, hbstart, hbstop⟩ := mem_body_iff.mp hib
  obtain ⟨-, hcstart, hcstop⟩ := mem_body_iff.mp hic
  obtain ⟨p, hp, rfl⟩ := List.getElem_of_mem hb
  obtain ⟨q, hq, rfl⟩ := List.getElem_of_mem hc
  have hapart := List.pairwise_iff_getElem.mp (pairwise_blocks m)
  rcases Nat.lt_trichotomy p q with hpq | rfl | hpq
  · have hle := hapart p q hp hq hpq
    grind
  · rfl
  · have hle := hapart q p hq hp hpq
    grind

theorem index_mem_iff (hm : LaidOut m.instructions) (hb : b ∈ blocks m) (hi : i ∈ m.instructions) :
    i.index ∈ b.instructions ↔ i ∈ b.body m := by
  rw [(isBlock_of_mem hm hb).indices, List.mem_map]
  constructor
  · rintro ⟨j, hj, hji⟩
    rwa [← hm.eq_of_index_eq (mem_body_iff.mp hj).1 hi hji]
  · exact fun hbody => ⟨i, hbody, rfl⟩

/-! ## Inside a block -/

/-- Leaders do not tell the start of a block from the instructions in it. -/
theorem le_start_iff (hm : LaidOut m.instructions) (hb : b ∈ blocks m) (hi : i ∈ b.body m)
    {o : UInt32} (ho : IsLeader m o) : o ≤ b.start ↔ o ≤ i.offset := by
  obtain ⟨-, hstart, hstop⟩ := mem_body_iff.mp hi
  constructor
  · exact fun hle => UInt32.le_trans hle hstart
  · intro hle
    rcases (isBlock_of_mem hm hb).gap o ho with hgap | hgap
    · exact hgap
    · exact absurd (UInt32.lt_of_le_of_lt (UInt32.le_trans hgap hle) hstop) (UInt32.lt_irrefl _)

/-- An instruction at a leader is where its block starts. -/
theorem start_eq_of_isLeader (hm : LaidOut m.instructions) (hb : b ∈ blocks m)
    (hi : i ∈ b.body m) (hleader : IsLeader m i.offset) : b.start = i.offset := by
  have hle : i.offset ≤ b.start := (le_start_iff hm hb hi hleader).mpr (UInt32.le_refl _)
  exact UInt32.le_antisymm (mem_body_iff.mp hi).2.1 hle

/-- Behind an instruction that ends its block there is nothing left of it: what
would follow is at a leader. -/
theorem eq_nil_of_endsBlock (hm : LaidOut m.instructions) (hb : b ∈ blocks m)
    {front behind : List Instruction} (hbody : b.body m = front ++ i :: behind)
    (hi : EndsBlock i) : behind = [] := by
  cases behind with
  | nil => rfl
  | cons j behind =>
    have hpair : [i, j] <:+: m.instructions := by
      have hinfix := List.infix_of_mem_flatten (List.mem_map_of_mem (f := (·.body m)) hb)
      rw [← List.flatMap_def, flatMap_body_blocks hm] at hinfix
      refine .trans ⟨front, behind, ?_⟩ hinfix
      rw [hbody, List.append_assoc]
      rfl
    have hiBody : i ∈ b.body m := by rw [hbody]; exact List.mem_append_cons_self
    have hjBody : j ∈ b.body m := by rw [hbody]; simp
    have hstart := start_eq_of_isLeader hm hb hjBody (.next hpair hi)
    have hle := (mem_body_iff.mp hiBody).2.1
    rw [hstart] at hle
    exact absurd (UInt32.lt_of_lt_of_le (hm.lt_of_next hpair) hle) (UInt32.lt_irrefl _)

/-! ## The partition -/

/-- Control may come to the offset from elsewhere: a jump or a switch goes to it,
or a handler starts there. -/
def IsEntry (m : Method) (o : UInt32) : Prop :=
  (∃ i ∈ m.instructions, o ∈ i.targets) ∨ ∃ h ∈ m.handlers, h.handlerPc = o

theorem IsEntry.isLeader {o : UInt32} (h : IsEntry m o) : IsLeader m o := by
  rcases h with ⟨i, hi, ht⟩ | ⟨h, hh, rfl⟩
  · exact .target hi ht
  · exact .handler hh

/-- The blocks cut the method into runs that control enters at the top and leaves
at the end, and no two neighbours could be one run: each instruction is in one
block, and they are in order; ranges do not overlap, and each holds what its
block lists; what ends a block is last in it, and what control may come to is
first; and but for the first block, each starts where one has to. -/
structure Partitions (m : Method) (bs : List Block) : Prop where
  covers : bs.flatMap (·.instructions) = List.range m.instructions.length
  nonempty : ∀ b ∈ bs, b.instructions ≠ []
  ascending : bs.Pairwise fun b c => b.start < c.start ∧ b.stop ≤ c.start
  inside : ∀ b ∈ bs, ∀ i ∈ m.instructions, i.index ∈ b.instructions →
    b.start ≤ i.offset ∧ i.offset < b.stop
  straight : ∀ b ∈ bs, ∀ i ∈ m.instructions, i.index ∈ b.instructions → EndsBlock i →
    b.instructions.getLast? = some i.index
  entered : ∀ b ∈ bs, ∀ i ∈ m.instructions, i.index ∈ b.instructions → IsEntry m i.offset →
    b.instructions.head? = some i.index ∧ b.start = i.offset
  maximal : ∀ b ∈ bs.tail, IsEntry m b.start ∨
    ∃ i j, [i, j] <:+: m.instructions ∧ EndsBlock i ∧ j.offset = b.start

/-- A block has its instructions by number where its body has them. -/
theorem IsBlock.instructions_eq_append (h : IsBlock m b) (hi : i ∈ b.body m) :
    ∃ front behind, b.body m = front ++ i :: behind ∧
      b.instructions = front.map (·.index) ++ i.index :: behind.map (·.index) := by
  obtain ⟨front, behind, hbody⟩ := List.append_of_mem hi
  refine ⟨front, behind, hbody, ?_⟩
  rw [h.indices, hbody, List.map_append, List.map_cons]

/-- The first of a block's instructions is the one at its start. -/
theorem head?_instructions (hm : LaidOut m.instructions) (hb : b ∈ blocks m)
    (hi : i ∈ b.body m) (hstart : b.start = i.offset) :
    b.instructions.head? = some i.index := by
  obtain ⟨front, behind, hbody, hindices⟩ := (isBlock_of_mem hm hb).instructions_eq_append hi
  cases front with
  | nil => rw [hindices]; rfl
  | cons j front =>
    -- Anything in front of it would stand before the block starts.
    have hascending : (b.body m).Pairwise (·.offset < ·.offset) := hm.ascending.filter _
    rw [hbody] at hascending
    have hlt : j.offset < i.offset := List.rel_of_pairwise_cons hascending (by simp)
    have hle := (mem_body_iff.mp (show j ∈ b.body m by rw [hbody]; exact List.mem_cons_self)).2.1
    rw [hstart] at hle
    exact absurd (UInt32.lt_of_lt_of_le hlt hle) (UInt32.lt_irrefl _)

/-- Only the first block may start where nothing makes one start. -/
theorem start_of_mem_tail (hm : LaidOut m.instructions) (hb : b ∈ (blocks m).tail) :
    IsEntry m b.start ∨ ∃ i j, [i, j] <:+: m.instructions ∧ EndsBlock i ∧ j.offset = b.start := by
  have hpos : b.start ≠ 0 := by
    cases hblocks : blocks m with
    | nil => simp [hblocks] at hb
    | cons first rest =>
      have hapart := pairwise_blocks m
      rw [hblocks] at hb hapart
      have hfirst : first ∈ blocks m := by rw [hblocks]; exact List.mem_cons_self
      have hlt : first.start < b.start := UInt32.lt_of_lt_of_le
        (isBlock_of_mem hm hfirst).start_lt_stop (List.rel_of_pairwise_cons hapart hb)
      intro hzero
      rw [hzero] at hlt
      exact UInt32.not_lt_zero hlt
  have hleader := (isBlock_of_mem hm (List.mem_of_mem_tail hb)).leader
  generalize b.start = o at hpos hleader
  cases hleader with
  | start => exact absurd rfl hpos
  | handler hh => exact .inl (.inr ⟨_, hh, rfl⟩)
  | target hi ht => exact .inl (.inl ⟨_, hi, ht⟩)
  | next hij hi => exact .inr ⟨_, _, hij, hi, rfl⟩

/-- The blocks of laid out instructions partition them. -/
theorem partitions_blocks (hm : LaidOut m.instructions) : Partitions m (graph m).blocks where
  covers := by
    have hindices : ∀ b ∈ blocks m, b.instructions = (b.body m).map (·.index) :=
      fun b hb => (isBlock_of_mem hm hb).indices
    calc (blocks m).flatMap (·.instructions)
        = (blocks m).flatMap fun b => (b.body m).map (·.index) := List.flatMap_congr hindices
      _ = ((blocks m).flatMap (·.body m)).map (·.index) := List.map_flatMap.symm
      _ = List.range m.instructions.length := by rw [flatMap_body_blocks hm, hm.map_index]
  nonempty b hb := by
    have hblock := isBlock_of_mem hm hb
    rw [hblock.indices]
    exact fun hnil => hblock.body_ne_nil (List.map_eq_nil_iff.mp hnil)
  ascending := by
    refine (pairwise_blocks m).imp_of_mem fun {b c} hb _ hapart => ⟨?_, hapart⟩
    exact UInt32.lt_of_lt_of_le (isBlock_of_mem hm hb).start_lt_stop hapart
  inside b hb i hi hib := (mem_body_iff.mp ((index_mem_iff hm hb hi).mp hib)).2
  straight b hb i hi hib hends := by
    have hbody := (index_mem_iff hm hb hi).mp hib
    obtain ⟨front, behind, hsplit, hindices⟩ :=
      (isBlock_of_mem hm hb).instructions_eq_append hbody
    rw [hindices, eq_nil_of_endsBlock hm hb hsplit hends, List.map_nil, List.getLast?_concat]
  entered b hb i hi hib hentry := by
    have hbody := (index_mem_iff hm hb hi).mp hib
    have hstart := start_eq_of_isLeader hm hb hbody hentry.isLeader
    exact ⟨head?_instructions hm hb hbody hstart, hstart⟩
  maximal _ hb := start_of_mem_tail hm hb

/-- A loop and a switch that goes everywhere it should not: into the increment
at 2, and past the end of the code. The handler starts at the last instruction. -/
def tangled : Method :=
  ⟨"Example", "tangled", "()V", ⟨false, true, false⟩,
    [⟨0, 0, 0x03, .constant (.int 0)⟩, ⟨1, 1, 0x3c, .slot 1⟩, ⟨2, 2, 0x84, .increment 1 1⟩,
      ⟨3, 5, 0x1b, .slot 1⟩, ⟨4, 6, 0x9a, .jump 2⟩, ⟨5, 9, 0xab, .switch 3 [40]⟩,
      ⟨6, 28, 0xb1, .plain⟩],
    [⟨2, 9, 28, none⟩]⟩

theorem leaders_tangled : leaders tangled 28 = [0, 2, 3, 9, 28] := by
  have hall : 0 :: tangled.handlers.map (·.handlerPc) ++ instructionLeaders tangled.instructions =
      [0, 28, 2, 9, 3, 40, 28] := rfl
  rw [leaders, hall]
  simp [List.mergeSort, dropRepeats]

theorem partitions_blocks_tangled :
    LaidOut tangled.instructions ∧ Partitions tangled (graph tangled).blocks ∧
      (graph tangled).blocks = [⟨0, 2, [0, 1]⟩, ⟨2, 3, [2]⟩, ⟨3, 9, [3, 4]⟩, ⟨9, 28, [5]⟩,
        ⟨28, 29, [6]⟩] := by
  have hlaid : LaidOut tangled.instructions := by decide
  refine ⟨hlaid, partitions_blocks hlaid, ?_⟩
  rw [graph, blocks_eq rfl]
  show blocksFrom tangled.instructions 29 (leaders tangled 28) = _
  rw [leaders_tangled]
  rfl

end ClassLens.Flow
