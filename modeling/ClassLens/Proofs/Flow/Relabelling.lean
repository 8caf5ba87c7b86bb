/-
Relabelling: a flow graph looks at the order of offsets and at nothing else.

Leaders are sorted, ranges are told from one another by comparing, and a target is
only ever compared. So if the places of a method are given other labels in the same
order, the graph is the same one with other labels. There is one number in it that
is no place, the end of the code, which is one more than the last offset: there is
nothing between the two, before and after, so it separates the same instructions.

Each stage of the graph is one lemma: it commutes with the labels as long as these
keep the comparisons that it makes. Nothing is asked of the instructions, which may
be in any order and have any numbers.
-/
import ClassLens.Pattern.Builtin
import ClassLens.Proofs.Flow.Edges

set_option autoImplicit false

namespace ClassLens

/-! ## Other labels -/

/-- The instruction with each place in it replaced by its image. -/
def Instruction.relabel (f : UInt32 → UInt32) (i : Instruction) : Instruction :=
  { i with offset := f i.offset, operand := i.operand.mapTargets f }

def ExceptionHandler.relabel (f : UInt32 → UInt32) (h : ExceptionHandler) : ExceptionHandler :=
  { h with startPc := f h.startPc, endPc := f h.endPc, handlerPc := f h.handlerPc }

def Method.relabel (f : UInt32 → UInt32) (m : Method) : Method :=
  { m with
    instructions := m.instructions.map (·.relabel f)
    handlers := m.handlers.map (·.relabel f) }

/-- The places that a method names: where its code starts, where its instructions
stand and where they go, and the ends and the entries of its handlers. -/
def Method.places (m : Method) : List UInt32 :=
  0 :: m.instructions.flatMap (fun i => i.offset :: i.targets) ++
    m.handlers.flatMap fun h => [h.startPc, h.endPc, h.handlerPc]

theorem Method.mem_places_iff {m : Method} {o : UInt32} :
    o ∈ m.places ↔ o = 0 ∨ (∃ i ∈ m.instructions, o = i.offset ∨ o ∈ i.targets) ∨
      ∃ h ∈ m.handlers, o = h.startPc ∨ o = h.endPc ∨ o = h.handlerPc := by
  simp [places]

namespace Flow

variable {f : UInt32 → UInt32} {m : Method}

def Edge.relabel (f : UInt32 → UInt32) (e : Edge) : Edge :=
  { e with source := f e.source, target := f e.target }

/-- The labels keep the start of the code and the order of the places, and leave room
behind the last instruction. -/
structure KeepsOrder (f : UInt32 → UInt32) (m : Method) : Prop where
  zero : f 0 = 0
  lt : ∀ a ∈ m.places, ∀ b ∈ m.places, a < b → f a < f b
  room : ∀ last ∈ m.instructions.getLast?,
    last.offset < 0xffffffff ∧ f last.offset < 0xffffffff

namespace KeepsOrder

variable {a b : UInt32} (h : KeepsOrder f m) (ha : a ∈ m.places) (hb : b ∈ m.places)

include h ha hb

theorem lt_iff : f a < f b ↔ a < b := by
  refine ⟨fun hlt => ?_, h.lt a ha b hb⟩
  rcases UInt32.lt_or_le a b with hab | hba
  · exact hab
  · rcases UInt32.lt_or_eq_of_le hba with hba | rfl
    · exact absurd (UInt32.lt_trans hlt (h.lt b hb a ha hba)) (UInt32.lt_irrefl _)
    · exact absurd hlt (UInt32.lt_irrefl _)

theorem le_iff : f a ≤ f b ↔ a ≤ b := by
  rw [← UInt32.not_lt, ← UInt32.not_lt, h.lt_iff hb ha]

theorem eq_iff : f a = f b ↔ a = b := by
  refine ⟨fun heq => ?_, congrArg f⟩
  apply UInt32.le_antisymm
  · exact (h.le_iff ha hb).mp (UInt32.le_of_eq heq)
  · exact (h.le_iff hb ha).mp (UInt32.le_of_eq heq.symm)

end KeepsOrder

/-! ## Places of the graph -/

theorem offset_mem_places {i : Instruction} (hi : i ∈ m.instructions) : i.offset ∈ m.places :=
  Method.mem_places_iff.mpr (.inr (.inl ⟨i, hi, .inl rfl⟩))

theorem IsLeader.mem_places {o : UInt32} (h : IsLeader m o) : o ∈ m.places := by
  cases h with
  | start => exact Method.mem_places_iff.mpr (.inl rfl)
  | handler hh => exact Method.mem_places_iff.mpr (.inr (.inr ⟨_, hh, .inr (.inr rfl)⟩))
  | target hi ht => exact Method.mem_places_iff.mpr (.inr (.inl ⟨_, hi, .inr ht⟩))
  | next hij _ => exact offset_mem_places (hij.subset (by simp))

/-! ## Leaders -/

theorem branchTargets?_relabel (i : Instruction) :
    (i.relabel f).branchTargets? = i.branchTargets?.map (·.map f) := by
  rw [Instruction.branchTargets?, Instruction.branchTargets?, Instruction.relabel]
  cases i.operand <;> rfl

theorem instructionLeaders_relabel (xs : List Instruction) :
    instructionLeaders (xs.map (·.relabel f)) = (instructionLeaders xs).map f := by
  induction xs with
  | nil => rfl
  | cons x rest ih =>
    have hnext : (((rest.map (·.relabel f)).head?.map (·.offset)).toList) =
        ((rest.head?.map (·.offset)).toList).map f := by
      cases rest <;> rfl
    have hopcode : (x.relabel f).opcode = x.opcode := rfl
    rw [List.map_cons, instructionLeaders, instructionLeaders, ih, branchTargets?_relabel, hnext,
      hopcode]
    cases x.branchTargets? <;> cases isExit x.opcode <;> simp

theorem dropRepeats_map {l : List UInt32} (h : ∀ a ∈ l, ∀ b ∈ l, f a = f b → a = b) :
    dropRepeats (l.map f) = (dropRepeats l).map f := by
  fun_induction dropRepeats l with
  | case1 b rest ih =>
    rw [List.map_cons, List.map_cons, dropRepeats, if_pos rfl]
    exact ih fun a ha c hc => h a (List.mem_cons_of_mem b ha) c (List.mem_cons_of_mem b hc)
  | case2 a b rest hne ih =>
    have hne' : f a ≠ f b := fun heq => hne (h a (by simp) b (by simp) heq)
    rw [List.map_cons, List.map_cons, dropRepeats, if_neg hne', ← List.map_cons, List.map_cons]
    congr 1
    exact ih fun c hc d hd => h c (List.mem_cons_of_mem a hc) d (List.mem_cons_of_mem a hd)
  | case3 l hshort =>
    cases l with
    | nil => rfl
    | cons a rest =>
      cases rest with
      | nil => rfl
      | cons b rest => exact absurd rfl (hshort a b rest)

theorem leaders_relabel (h : KeepsOrder f m) {last : UInt32} (hlast : last ∈ m.places) :
    leaders (m.relabel f) (f last) = (leaders m last).map f := by
  have hall : ∀ o ∈ 0 :: m.handlers.map (·.handlerPc) ++ instructionLeaders m.instructions,
      o ∈ m.places := by
    intro o ho
    have hleader : o ∈ leaders m o := by
      rw [leaders, List.mem_filter, mem_dropRepeats, List.mem_mergeSort]
      exact ⟨ho, decide_eq_true (UInt32.le_refl o)⟩
    exact (mem_leaders_iff.mp hleader).1.mem_places
  have hlabels : 0 :: (m.relabel f).handlers.map (·.handlerPc) ++
      instructionLeaders (m.relabel f).instructions =
        (0 :: m.handlers.map (·.handlerPc) ++ instructionLeaders m.instructions).map f := by
    rw [Method.relabel, instructionLeaders_relabel, List.map_append, List.map_cons, h.zero,
      List.map_map, List.map_map]
    rfl
  rw [leaders, leaders, hlabels]
  generalize 0 :: m.handlers.map (·.handlerPc) ++ instructionLeaders m.instructions = all at hall
  have hsort : (all.map f).mergeSort (· ≤ ·) = (all.mergeSort (· ≤ ·)).map f :=
    (List.map_mergeSort fun a ha b hb => by
      rw [decide_eq_decide, h.le_iff (hall a ha) (hall b hb)]).symm
  have hdrop : dropRepeats ((all.mergeSort (· ≤ ·)).map f) =
      (dropRepeats (all.mergeSort (· ≤ ·))).map f :=
    dropRepeats_map fun a ha b hb heq =>
      (h.eq_iff (hall a (List.mem_mergeSort.mp ha)) (hall b (List.mem_mergeSort.mp hb))).mp heq
  -- What is left is to cut off the leaders behind the last instruction.
  rw [hsort, hdrop, List.filter_map]
  congr 1
  apply List.filter_congr
  intro o ho
  rw [mem_dropRepeats, List.mem_mergeSort] at ho
  rw [Function.comp_apply, decide_eq_decide, h.le_iff (hall o ho) hlast]

/-! ## Blocks -/

/-- The block with its start and its stop replaced by their images. -/
def Block.relabel (f g : UInt32 → UInt32) (b : Block) : Block :=
  { b with start := f b.start, stop := g b.stop }

theorem block?_relabel {g : UInt32 → UInt32} {xs : List Instruction} {start stop : UInt32}
    (hstart : ∀ i ∈ xs, f start ≤ f i.offset ↔ start ≤ i.offset)
    (hstop : ∀ i ∈ xs, f i.offset < g stop ↔ i.offset < stop) :
    block? (xs.map (·.relabel f)) (f start) (g stop) =
      (block? xs start stop).map (·.relabel f g) := by
  have hspan : span (xs.map (·.relabel f)) (f start) (g stop) =
      (span xs start stop).map (·.relabel f) := by
    rw [span, span, List.filter_map]
    congr 1
    apply List.filter_congr
    intro i hi
    have hoffset : (i.relabel f).offset = f i.offset := rfl
    rw [Function.comp_apply, hoffset, decide_eq_decide.mpr (hstart i hi),
      decide_eq_decide.mpr (hstop i hi)]
  rw [block?, block?, ← span, ← span, hspan]
  cases span xs start stop with
  | nil => rfl
  | cons i rest => simp [Block.relabel, Instruction.relabel]

/-- The ranges between leaders hold the same instructions as long as the labels keep
where each instruction stands to the starts and to the stops. -/
theorem blocksFrom_relabel {g : UInt32 → UInt32} {xs : List Instruction} {codeEnd : UInt32}
    {ls : List UInt32} (hstart : ∀ o ∈ ls, ∀ i ∈ xs, f o ≤ f i.offset ↔ o ≤ i.offset)
    (hstop : ∀ o, o ∈ ls ∨ o = codeEnd → ∀ i ∈ xs, f i.offset < g o ↔ i.offset < o)
    (hls : ∀ o ∈ ls, g o = f o) :
    blocksFrom (xs.map (·.relabel f)) (g codeEnd) (ls.map f) =
      (blocksFrom xs codeEnd ls).map (·.relabel f g) := by
  induction ls with
  | nil => rfl
  | cons start rest ih =>
    have hnext : (rest.map f).head?.getD (g codeEnd) = g (rest.head?.getD codeEnd) := by
      cases rest with
      | nil => rfl
      | cons next rest => exact (hls next (by simp)).symm
    have hrange : ∀ i ∈ xs, f i.offset < g (rest.head?.getD codeEnd) ↔
        i.offset < rest.head?.getD codeEnd := by
      cases rest with
      | nil => exact hstop codeEnd (.inr rfl)
      | cons next rest => exact hstop next (.inl (by simp))
    rw [List.map_cons, blocksFrom, blocksFrom, hnext, List.map_append,
      block?_relabel (hstart start List.mem_cons_self) hrange,
      ih (fun o ho => hstart o (List.mem_cons_of_mem start ho))
        (fun o ho => hstop o (ho.imp_left (List.mem_cons_of_mem start)))
        (fun o ho => hls o (List.mem_cons_of_mem start ho))]
    cases block? xs start (rest.head?.getD codeEnd) <;> rfl

section Stops

variable {last : Instruction} {b c : Block} {o : UInt32}

theorem start_mem_leaders (hlast : m.instructions.getLast? = some last) (hb : b ∈ blocks m) :
    b.start ∈ leaders m last.offset := by
  rw [blocks_eq hlast] at hb
  obtain ⟨before, after, hleaders, -⟩ := mem_blocksFrom_iff.mp hb
  rw [hleaders]
  exact List.mem_append_cons_self

theorem start_mem_places (hb : b ∈ blocks m) : b.start ∈ m.places := by
  obtain ⟨last, hlast⟩ := exists_getLast?_of_mem_blocks hb
  exact (mem_leaders_iff.mp (start_mem_leaders hlast hb)).1.mem_places

/-- Where the ranges stop after relabelling: at the labels of the leaders, and the last
of them just behind the label of the last instruction. -/
def stopLabel (f : UInt32 → UInt32) (last o : UInt32) : UInt32 :=
  if o = last + 1 then f last + 1 else f o

theorem stopLabel_of_mem (h : KeepsOrder f m) (hlast : m.instructions.getLast? = some last)
    (ho : o ∈ leaders m last.offset) : stopLabel f last.offset o = f o := by
  refine if_neg fun heq => ?_
  -- No leader is behind the last instruction.
  have hlt := (lt_add_one_iff (h.room last hlast).1).mpr (mem_leaders_iff.mp ho).2
  rw [heq] at hlt
  exact UInt32.lt_irrefl _ hlt

/-- A stop separates the same places, be it a leader or the end of the code. -/
theorem lt_stopLabel_iff (h : KeepsOrder f m) (hlast : m.instructions.getLast? = some last)
    (ho : o ∈ leaders m last.offset ∨ o = last.offset + 1) {a : UInt32} (ha : a ∈ m.places) :
    f a < stopLabel f last.offset o ↔ a < o := by
  rcases ho with ho | rfl
  · rw [stopLabel_of_mem h hlast ho]
    exact h.lt_iff ha (mem_leaders_iff.mp ho).1.mem_places
  · obtain ⟨hroom, hroom'⟩ := h.room last hlast
    rw [stopLabel, if_pos rfl, lt_add_one_iff hroom, lt_add_one_iff hroom']
    exact h.le_iff ha (offset_mem_places (List.mem_of_getLast? hlast))

theorem blocks_relabel (h : KeepsOrder f m) (hlast : m.instructions.getLast? = some last) :
    blocks (m.relabel f) = (blocks m).map (·.relabel f (stopLabel f last.offset)) := by
  have hlast' : (m.relabel f).instructions.getLast? = some (last.relabel f) := by
    rw [Method.relabel, List.getLast?_map, hlast, Option.map_some]
  have hcodeEnd : stopLabel f last.offset (last.offset + 1) = f last.offset + 1 := if_pos rfl
  have hplace := offset_mem_places (List.mem_of_getLast? hlast)
  rw [blocks_eq hlast, blocks_eq hlast']
  show blocksFrom (m.instructions.map (·.relabel f)) (f last.offset + 1)
    (leaders (m.relabel f) (f last.offset)) = _
  rw [leaders_relabel h hplace, ← hcodeEnd]
  apply blocksFrom_relabel
  · intro o ho i hi
    exact h.le_iff (mem_leaders_iff.mp ho).1.mem_places (offset_mem_places hi)
  · intro o ho i hi
    exact lt_stopLabel_iff h hlast ho (offset_mem_places hi)
  · intro o ho
    exact stopLabel_of_mem h hlast ho

/-- A block starts where another one stops if it did so before. -/
theorem start_eq_stop_iff (h : KeepsOrder f m) (hlast : m.instructions.getLast? = some last)
    (hb : b ∈ blocks m) (hc : c ∈ blocks m) :
    f c.start = stopLabel f last.offset b.stop ↔ c.start = b.stop := by
  have hstart := start_mem_leaders hlast hc
  have hplace := start_mem_places hc
  rw [blocks_eq hlast] at hb
  have hstop := stop_mem_or_eq hb
  rcases hstop with hstop | hstop
  · rw [stopLabel_of_mem h hlast hstop]
    exact h.eq_iff hplace (mem_leaders_iff.mp hstop).1.mem_places
  -- No block starts at the end of the code.
  · have hlt : c.start < b.stop := by
      rw [hstop]
      exact (lt_add_one_iff (h.room last hlast).1).mpr (mem_leaders_iff.mp hstart).2
    have hlt' := (lt_stopLabel_iff h hlast (.inr hstop) hplace).mpr hlt
    exact iff_of_false (UInt32.ne_of_lt hlt') (UInt32.ne_of_lt hlt)

/-- The blocks have new starts and stops, and a block starts where another one stops if
it did so before. -/
theorem exists_blocks_relabel (h : KeepsOrder f m) :
    ∃ g, blocks (m.relabel f) = (blocks m).map (·.relabel f g) ∧
      ∀ b ∈ blocks m, ∀ c ∈ blocks m, f c.start = g b.stop ↔ c.start = b.stop := by
  cases hlast : m.instructions.getLast? with
  | none =>
    have hnone : (m.relabel f).instructions.getLast? = none := by
      rw [Method.relabel, List.getLast?_map, hlast, Option.map_none]
    refine ⟨f, ?_, ?_⟩
    · rw [blocks, blocks, hnone, hlast]
      rfl
    · intro b hb
      obtain ⟨last, hsome⟩ := exists_getLast?_of_mem_blocks hb
      rw [hlast] at hsome
      cases hsome
  | some last =>
    exact ⟨stopLabel f last.offset, blocks_relabel h hlast,
      fun b hb c hc => start_eq_stop_iff h hlast hb hc⟩

end Stops

/-! ## Edges -/

section Edges

variable {g : UInt32 → UInt32} {b : Block}

theorem fallThrough_relabel
    (hg : ∀ c ∈ blocks m, f c.start = g b.stop ↔ c.start = b.stop) :
    fallThrough ((blocks m).map (·.relabel f g)) (b.relabel f g) =
      (fallThrough (blocks m) b).map (·.relabel f) := by
  have hfind : ((blocks m).map (·.relabel f g)).find? (·.start == (b.relabel f g).stop) =
      ((blocks m).find? (·.start == b.stop)).map (·.relabel f g) := by
    -- The first block that is found is the first of all that could be.
    rw [List.find?_map, ← List.head?_filter, ← List.head?_filter]
    congr 2
    apply List.filter_congr
    intro c hc
    show (f c.start == g b.stop) = (c.start == b.stop)
    rw [Bool.eq_iff_iff, beq_iff_eq, beq_iff_eq]
    exact hg c hc
  rw [fallThrough, fallThrough, hfind]
  cases (blocks m).find? (·.start == b.stop) <;> rfl

theorem blockEdges_relabel
    (hg : ∀ c ∈ blocks m, f c.start = g b.stop ↔ c.start = b.stop) :
    blockEdges (m.relabel f).instructions.toArray ((blocks m).map (·.relabel f g))
        (b.relabel f g) =
      (blockEdges m.instructions.toArray (blocks m) b).map (·.relabel f) := by
  have hfound : b.instructions.getLast?.bind ((m.relabel f).instructions.toArray[·]?) =
      (b.instructions.getLast?.bind (m.instructions.toArray[·]?)).map (·.relabel f) := by
    cases b.instructions.getLast? with
    | none => rfl
    | some p =>
      rw [Option.bind_some, Option.bind_some, List.getElem?_toArray, List.getElem?_toArray,
        Method.relabel, List.getElem?_map]
  have hsame : (b.relabel f g).instructions = b.instructions := rfl
  rw [blockEdges, blockEdges, hsame, hfound, fallThrough_relabel hg]
  cases b.instructions.getLast?.bind (m.instructions.toArray[·]?) with
  | none => rfl
  | some i =>
    have hopcode : (i.relabel f).opcode = i.opcode := rfl
    rw [Option.map_some]
    dsimp only
    rw [branchTargets?_relabel, hopcode]
    cases i.branchTargets? with
    | none => cases isExit i.opcode <;> rfl
    | some targets => cases isUnconditional i.opcode <;> simp [Edge.relabel, Block.relabel]

theorem handlerEdges_relabel (h : KeepsOrder f m) {handler : ExceptionHandler}
    (hhandler : handler ∈ m.handlers) (g : UInt32 → UInt32) :
    handlerEdges ((blocks m).map (·.relabel f g)) (handler.relabel f) =
      (handlerEdges (blocks m) handler).map (·.relabel f) := by
  rw [handlerEdges, handlerEdges, List.filter_map, List.map_map, List.map_map]
  congr 1
  apply List.filter_congr
  intro b hb
  have hplace := start_mem_places hb
  show (decide (f handler.startPc ≤ f b.start) && decide (f b.start < f handler.endPc)) = _
  rw [decide_eq_decide.mpr (h.le_iff ?_ hplace), decide_eq_decide.mpr (h.lt_iff hplace ?_)]
  · exact Method.mem_places_iff.mpr (.inr (.inr ⟨handler, hhandler, .inr (.inl rfl)⟩))
  · exact Method.mem_places_iff.mpr (.inr (.inr ⟨handler, hhandler, .inl rfl⟩))

theorem edges_relabel (h : KeepsOrder f m) :
    (graph (m.relabel f)).edges = (graph m).edges.map (·.relabel f) := by
  obtain ⟨g, hblocks, hg⟩ := exists_blocks_relabel h
  rw [graph, graph]
  dsimp only
  rw [hblocks, List.map_append, List.map_flatMap, List.map_flatMap, List.flatMap_map,
    Method.relabel, List.flatMap_map]
  congr 1
  · exact List.flatMap_congr fun b hb => blockEdges_relabel (hg b hb)
  · exact List.flatMap_congr fun handler hhandler => handlerEdges_relabel h hhandler g

theorem target_mem_places {i : Instruction} {targets : List UInt32} {t : UInt32}
    (hi : i ∈ m.instructions) (htargets : i.branchTargets? = some targets) (ht : t ∈ targets) :
    t ∈ m.places := by
  rw [i.branchTargets?_eq] at htargets
  split at htargets
  · obtain rfl := Option.some.inj htargets
    exact Method.mem_places_iff.mpr (.inr (.inl ⟨i, hi, .inr ht⟩))
  · nomatch htargets

theorem mem_places_of_mem_fallThrough {e : Edge} (hb : b ∈ blocks m)
    (he : e ∈ fallThrough (blocks m) b) : e.source ∈ m.places ∧ e.target ∈ m.places := by
  rw [fallThrough] at he
  split at he
  · rename_i c hfind
    obtain rfl := List.mem_singleton.mp he
    exact ⟨start_mem_places hb, start_mem_places (List.mem_of_find?_eq_some hfind)⟩
  · exact absurd he List.not_mem_nil

theorem mem_places_of_mem_blockEdges {e : Edge} (hb : b ∈ blocks m)
    (he : e ∈ blockEdges m.instructions.toArray (blocks m) b) :
    e.source ∈ m.places ∧ e.target ∈ m.places := by
  rw [blockEdges] at he
  split at he
  · exact absurd he List.not_mem_nil
  · rename_i i hfound
    obtain ⟨p, -, hi⟩ := Option.bind_eq_some_iff.mp hfound
    have hmem : i ∈ m.instructions := List.mem_of_getElem? (by simpa using hi)
    split at he
    · rename_i targets htargets
      rcases List.mem_append.mp he with he | he
      · obtain ⟨t, ht, rfl⟩ := List.mem_map.mp he
        exact ⟨start_mem_places hb, target_mem_places hmem htargets ht⟩
      · split at he
        · exact absurd he List.not_mem_nil
        · exact mem_places_of_mem_fallThrough hb he
    · split at he
      · exact absurd he List.not_mem_nil
      · exact mem_places_of_mem_fallThrough hb he

/-- Both ends of an edge are places. -/
theorem mem_places_of_mem_edges {e : Edge} (he : e ∈ (graph m).edges) :
    e.source ∈ m.places ∧ e.target ∈ m.places := by
  rcases List.mem_append.mp he with he | he
  · obtain ⟨b, hb, he⟩ := List.mem_flatMap.mp he
    exact mem_places_of_mem_blockEdges hb he
  · obtain ⟨handler, hhandler, he⟩ := List.mem_flatMap.mp he
    obtain ⟨b, hb, -, rfl⟩ := mem_handlerEdges_iff.mp he
    exact ⟨start_mem_places hb,
      Method.mem_places_iff.mpr (.inr (.inr ⟨handler, hhandler, .inr (.inr rfl)⟩))⟩

theorem backEdges_relabel (h : KeepsOrder f m) :
    (graph (m.relabel f)).backEdges = (graph m).backEdges.map (·.relabel f) := by
  rw [Graph.backEdges, Graph.backEdges, edges_relabel h, List.filter_map]
  congr 1
  apply List.filter_congr
  intro e he
  obtain ⟨hsource, htarget⟩ := mem_places_of_mem_edges he
  show (e.kind == .branch && decide (f e.target ≤ f e.source)) = _
  rw [decide_eq_decide.mpr (h.le_iff htarget hsource)]

end Edges

/-! ## Graphs -/

/-- If the places of a method are replaced by others in the same order, the start of the
code staying where it is, then the graph has the same blocks at the new starts, and the
same edges between the new starts and targets. So the back edges are the same ones, and
the method loops if it did before. -/
theorem graph_relabel (h : KeepsOrder f m) :
    (graph (m.relabel f)).blocks.map (·.instructions) = (graph m).blocks.map (·.instructions) ∧
    (graph (m.relabel f)).blocks.map (·.start) = (graph m).blocks.map (fun b => f b.start) ∧
    (graph (m.relabel f)).edges = (graph m).edges.map (·.relabel f) ∧
    (graph (m.relabel f)).backEdges = (graph m).backEdges.map (·.relabel f) ∧
    (m.relabel f).hasLoop = m.hasLoop := by
  obtain ⟨g, hg, -⟩ := exists_blocks_relabel h
  have hblocks : (graph (m.relabel f)).blocks = (graph m).blocks.map (·.relabel f g) := hg
  have hback := backEdges_relabel h
  refine ⟨?_, ?_, edges_relabel h, hback, ?_⟩
  · rw [hblocks, List.map_map]
    rfl
  · rw [hblocks, List.map_map]
    rfl
  · rw [Method.hasLoop, Method.hasLoop, hback, List.isEmpty_map]

/-- Labels that leave a gap behind the start of the code. -/
def gapped (o : UInt32) : UInt32 :=
  if o = 0 then 0 else o + 100

theorem graph_relabel_tangled :
    KeepsOrder gapped tangled ∧
    (graph (tangled.relabel gapped)).blocks.map (·.instructions) =
      [[0, 1], [2], [3, 4], [5], [6]] ∧
    (graph (tangled.relabel gapped)).blocks.map (·.start) = [0, 102, 103, 109, 128] ∧
    (tangled.relabel gapped).hasLoop = tangled.hasLoop := by
  have horder : tangled.places.all (fun a => tangled.places.all fun b =>
      !decide (a < b) || decide (gapped a < gapped b)) = true := by decide
  have hkeeps : KeepsOrder gapped tangled := by
    refine ⟨rfl, fun a ha b hb hab => ?_, fun last hlast => ?_⟩
    · have hpair := List.all_eq_true.mp (List.all_eq_true.mp horder a ha) b hb
      simpa [hab] using hpair
    · obtain rfl := Option.some.inj hlast
      decide
  have hblocks : (graph tangled).blocks =
      [⟨0, 2, [0, 1]⟩, ⟨2, 3, [2]⟩, ⟨3, 9, [3, 4]⟩, ⟨9, 28, [5]⟩, ⟨28, 29, [6]⟩] := by
    rw [graph, blocks_eq rfl]
    show blocksFrom tangled.instructions 29 (leaders tangled 28) = _
    rw [leaders_tangled]
    rfl
  obtain ⟨hinstructions, hstarts, -, -, hloop⟩ := graph_relabel hkeeps
  rw [hblocks] at hinstructions hstarts
  exact ⟨hkeeps, hinstructions, hstarts, hloop⟩

end Flow

end ClassLens
