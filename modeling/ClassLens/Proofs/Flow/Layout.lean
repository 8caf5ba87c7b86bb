/-
Layout: instructions at ascending offsets, and ranges of them.

`LaidOut` is what the flow graph needs to know of a method's instructions, and
all that it needs: their numbers are their positions, their offsets ascend, and
there is an offset left behind the last one, so that the end of the code can be
written down. Decoded instructions are laid out; so is a list put together by
hand that keeps to the three rules, wherever its first offset is and whatever its
jumps go to.

The decoder's tiling says more, namely where each instruction ends. The graph
never looks at lengths, so nothing here does.
-/
import ClassLens.Method
import ClassLens.Proofs.Code.Boundaries

set_option autoImplicit false

namespace ClassLens.Flow

/-! ## Instructions as they are laid out -/

/-- Instructions as they come out of decoding: numbered by position, at ascending
offsets, and with room for one more offset behind the last of them. -/
structure LaidOut (xs : List Instruction) : Prop where
  index : ∀ (p : Nat) (h : p < xs.length), xs[p].index = p
  ascending : xs.Pairwise (·.offset < ·.offset)
  room : ∀ last ∈ xs.getLast?, last.offset < 0xffffffff

instance (xs : List Instruction) : Decidable (LaidOut xs) :=
  decidable_of_iff
    ((∀ (p : Nat) (h : p < xs.length), xs[p].index = p) ∧ xs.Pairwise (·.offset < ·.offset) ∧
      ∀ last ∈ xs.getLast?, last.offset < 0xffffffff)
    ⟨fun ⟨hindex, hascending, hroom⟩ => ⟨hindex, hascending, hroom⟩,
      fun h => ⟨h.index, h.ascending, h.room⟩⟩

theorem laidOut_of_decode {pool : Code.Pool} {code : List UInt8} {xs : List Instruction}
    (h : Code.decode pool code = .ok xs) (hlength : code.length < UInt32.size) : LaidOut xs := by
  have hdecodes := Code.decode_eq_ok_iff.mp h
  have hroom : 0 + code.length < UInt32.size := by omega
  refine ⟨(hdecodes.tiles hlength).index, hdecodes.pairwise_offset hroom, fun last hlast => ?_⟩
  have hoffset := (hdecodes.offset_mem hroom last (List.mem_of_getLast? hlast)).2
  rw [UInt32.size] at hlength
  rw [UInt32.lt_iff_toNat_lt]
  show last.offset.toNat < 4294967295
  omega

/-- What is at most `b` is less than the offset after `b`, if there is one. -/
theorem lt_add_one_iff {a b : UInt32} (hb : b < 0xffffffff) : a < b + 1 ↔ a ≤ b := by
  have hroom : b.toNat < 4294967295 := UInt32.lt_iff_toNat_lt.mp hb
  have hsum : (b + 1).toNat = b.toNat + 1 := by
    rw [UInt32.toNat_add, UInt32.toNat_one, Nat.mod_eq_of_lt (by omega)]
  rw [UInt32.lt_iff_toNat_lt, UInt32.le_iff_toNat_le, hsum, Nat.lt_succ_iff]

namespace LaidOut

variable {xs : List Instruction}

theorem le_last (h : LaidOut xs) {last : Instruction} (hlast : xs.getLast? = some last)
    {i : Instruction} (hi : i ∈ xs) : i.offset ≤ last.offset := by
  obtain ⟨front, rfl⟩ := List.getLast?_eq_some_iff.mp hlast
  rcases List.mem_append.mp hi with hi | hi
  · exact UInt32.le_of_lt
      ((List.pairwise_append.mp h.ascending).2.2 i hi last List.mem_cons_self)
  · rw [List.mem_singleton.mp hi]
    exact UInt32.le_refl _

theorem getElem?_index (h : LaidOut xs) {i : Instruction} (hi : i ∈ xs) :
    xs[i.index]? = some i := by
  obtain ⟨p, hp, rfl⟩ := List.getElem_of_mem hi
  rw [h.index p hp, List.getElem?_eq_getElem hp]

/-- Instructions are told apart by their numbers. -/
theorem eq_of_index_eq (h : LaidOut xs) {i j : Instruction} (hi : i ∈ xs) (hj : j ∈ xs)
    (hij : i.index = j.index) : i = j := by
  have hat := h.getElem?_index hi
  rw [hij, h.getElem?_index hj] at hat
  exact (Option.some.inj hat).symm

theorem map_index (h : LaidOut xs) : xs.map (·.index) = List.range xs.length := by
  apply List.ext_getElem
  · rw [List.length_map, List.length_range]
  · intro p hp _
    rw [List.getElem_map, List.getElem_range]
    exact h.index p (by rwa [List.length_map] at hp)

theorem lt_of_next (h : LaidOut xs) {i j : Instruction} (hij : [i, j] <:+: xs) :
    i.offset < j.offset :=
  List.rel_of_pairwise_cons (h.ascending.sublist hij.sublist) List.mem_cons_self

/-- Between neighbours there is no instruction. -/
theorem le_of_next (h : LaidOut xs) {i j k : Instruction} (hij : [i, j] <:+: xs) (hk : k ∈ xs)
    (hik : i.offset < k.offset) : j.offset ≤ k.offset := by
  obtain ⟨front, behind, rfl⟩ := hij
  rw [List.append_assoc, List.cons_append, List.singleton_append] at hk
  have hascending := h.ascending
  rw [List.append_assoc, List.cons_append, List.singleton_append] at hascending
  obtain ⟨-, htail, hfront⟩ := List.pairwise_append.mp hascending
  rcases List.mem_append.mp hk with hk | hk
  · exact absurd (UInt32.lt_trans hik (hfront k hk i List.mem_cons_self)) (UInt32.lt_irrefl _)
  · rcases List.mem_cons.mp hk with rfl | hk
    · exact absurd hik (UInt32.lt_irrefl _)
    · rcases List.mem_cons.mp hk with rfl | hk
      · exact UInt32.le_refl _
      · exact UInt32.le_of_lt (List.rel_of_pairwise_cons htail.of_cons hk)

end LaidOut

/-! ## Ranges -/

/-- The instructions from one offset up to another. -/
def span (xs : List Instruction) (start stop : UInt32) : List Instruction :=
  xs.filter fun i => start ≤ i.offset && i.offset < stop

theorem mem_span_iff {xs : List Instruction} {start stop : UInt32} {i : Instruction} :
    i ∈ span xs start stop ↔ i ∈ xs ∧ start ≤ i.offset ∧ i.offset < stop := by
  rw [span, List.mem_filter, Bool.and_eq_true, decide_eq_true_iff, decide_eq_true_iff]

/-- Ascending instructions are those in front of an offset, and then the rest. -/
theorem filter_lt_append_filter_le {xs : List Instruction}
    (h : xs.Pairwise (·.offset < ·.offset)) (o : UInt32) :
    xs.filter (fun i => i.offset < o) ++ xs.filter (fun i => o ≤ i.offset) = xs := by
  induction xs with
  | nil => rfl
  | cons x xs ih =>
    by_cases hx : x.offset < o
    · have hnot : ¬ o ≤ x.offset := UInt32.not_le.mpr hx
      rw [List.filter_cons_of_pos (by simpa using hx),
        List.filter_cons_of_neg (by simpa using hnot), List.cons_append, ih h.of_cons]
    -- The first one is not in front of the offset, so none of them is.
    · have hle : ∀ i ∈ x :: xs, o ≤ i.offset := by
        intro i hi
        rcases List.mem_cons.mp hi with rfl | hi
        · exact UInt32.not_lt.mp hx
        · exact UInt32.le_of_lt
            (UInt32.lt_of_le_of_lt (UInt32.not_lt.mp hx) (List.rel_of_pairwise_cons h hi))
      rw [List.filter_eq_nil_iff.mpr fun i hi => by simpa using hle i hi,
        List.filter_eq_self.mpr fun i hi => by simpa using hle i hi, List.nil_append]

theorem span_append_span {xs : List Instruction} (h : xs.Pairwise (·.offset < ·.offset))
    {a b c : UInt32} (hab : a ≤ b) (hbc : b ≤ c) : span xs a b ++ span xs b c = span xs a c := by
  have hascending : (span xs a c).Pairwise (·.offset < ·.offset) := h.filter _
  rw [← filter_lt_append_filter_le hascending b]
  simp only [span, List.filter_filter]
  congr 1
  · apply List.filter_congr
    intro i _
    have hlt (hi : i.offset < b) : i.offset < c := UInt32.lt_of_lt_of_le hi hbc
    grind
  · apply List.filter_congr
    intro i _
    have hle (hi : b ≤ i.offset) : a ≤ i.offset := UInt32.le_trans hab hi
    grind

end ClassLens.Flow
