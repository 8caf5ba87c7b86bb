/-
Field accesses: searching a forest for one key, and the index of all keys.

The search looks through all nodes for those of a key. The index is made in one
pass that puts each node under its own key and never looks for another. Both see
a node through its key alone, so they are compared for any assignment of keys to
numbers: the index has the keys that occur, in ascending order, each with what
the search for it finds (`exists_indexed_eq`). This one equation is the invariant
of the pass, and all that is said of the entries follows from it.

Which nodes have a key is a matter of the opcode and the operand together
(`accessKey?_eq_some_iff`): neither of the two makes an access by itself. A key is
a text, so accesses of two fields may have the same one.
-/
import Mathlib.Data.List.Induction
import Mathlib.Data.List.Nodup
import ClassLens.Proofs.Code.Length
import ClassLens.Proofs.Forest.Assembly

set_option autoImplicit false

namespace ClassLens

/-! ## Accesses -/

namespace FieldAccess

/-- The opcode that makes an access. -/
def opcode (a : FieldAccess) : Opcode :=
  match a.isGetter, a.isStatic with
  | true, true => 0xb2
  | false, true => 0xb3
  | true, false => 0xb4
  | false, false => 0xb5

/-- The category of an access. -/
def category (a : FieldAccess) : Category :=
  match a.isGetter, a.isStatic with
  | true, true => .staticRead
  | false, true => .staticWrite
  | true, false => .instanceRead
  | false, false => .instanceWrite

/-- Each category of accesses has one opcode. -/
theorem category_eq_iff (a : FieldAccess) (op : Opcode) :
    Category.of? op = some a.category ↔ op = a.opcode := by
  obtain ⟨ref, isGetter, isStatic⟩ := a
  simp only [category, opcode]
  revert op isGetter isStatic
  apply Code.forall_opcode
  decide +kernel

/-- Every access opcode makes an access of any given field. -/
theorem exists_opcode_iff (ref : FieldRef) {op : Opcode} :
    (∃ a : FieldAccess, a.field = ref ∧ op = a.opcode) ↔ op ∈ [0xb2, 0xb3, 0xb4, 0xb5] := by
  constructor
  · rintro ⟨⟨ref, isGetter, isStatic⟩, -, rfl⟩
    cases isGetter <;> cases isStatic <;> simp [opcode]
  · intro h
    simp only [List.mem_cons, List.not_mem_nil, or_false] at h
    obtain rfl | rfl | rfl | rfl := h
    · exact ⟨⟨ref, true, true⟩, rfl, rfl⟩
    · exact ⟨⟨ref, false, true⟩, rfl, rfl⟩
    · exact ⟨⟨ref, true, false⟩, rfl, rfl⟩
    · exact ⟨⟨ref, false, false⟩, rfl, rfl⟩

end FieldAccess

namespace Instruction

variable {i : Instruction} {a : FieldAccess}

/-- An instruction reads or writes a field: it has an opcode for that, and the
field as its operand. -/
structure Accesses (i : Instruction) (ref : FieldRef) : Prop where
  opcode : i.opcode ∈ [0xb2, 0xb3, 0xb4, 0xb5]
  operand : i.operand = .field ref

/-- The key of the field that an instruction accesses, if it accesses one. -/
def accessKey? (i : Instruction) : Option String :=
  i.fieldAccess?.map FieldAccess.key

theorem nodeKind_eq_field_iff :
    i.nodeKind = .field a ↔
      Category.of? i.opcode = some a.category ∧ i.operand = .field a.field := by
  constructor
  · intro h
    rw [nodeKind] at h
    split at h
    case h_1 | h_2 | h_3 | h_4 =>
      rename_i hcategory hoperand
      cases h
      exact ⟨hcategory, hoperand⟩
    -- The kinds that also depend on the operator or the relation of the opcode.
    case h_7 | h_8 | h_9 => split at h <;> simp at h
    all_goals simp at h
  · rintro ⟨hcategory, hoperand⟩
    rw [nodeKind, hcategory, hoperand]
    obtain ⟨ref, isGetter, isStatic⟩ := a
    cases isGetter <;> cases isStatic <;> rfl

/-- An instruction makes the access that its opcode is for, of the field that its
operand names. -/
theorem fieldAccess?_eq_some_iff :
    i.fieldAccess? = some a ↔ i.opcode = a.opcode ∧ i.operand = .field a.field := by
  rw [← a.category_eq_iff, ← nodeKind_eq_field_iff, fieldAccess?]
  cases i.nodeKind <;> simp

theorem accessKey?_eq_some_iff {key : String} :
    i.accessKey? = some key ↔ ∃ ref, i.Accesses ref ∧ ref.owner ++ "." ++ ref.name = key := by
  rw [accessKey?, Option.map_eq_some_iff]
  constructor
  · rintro ⟨a, ha, hkey⟩
    obtain ⟨hopcode, hoperand⟩ := fieldAccess?_eq_some_iff.mp ha
    exact ⟨a.field, ⟨(FieldAccess.exists_opcode_iff _).mp ⟨a, rfl, hopcode⟩, hoperand⟩, hkey⟩
  · rintro ⟨ref, ⟨hopcode, hoperand⟩, hkey⟩
    obtain ⟨a, rfl, ha⟩ := (FieldAccess.exists_opcode_iff ref).mpr hopcode
    exact ⟨a, fieldAccess?_eq_some_iff.mpr ⟨ha, hoperand⟩, hkey⟩

end Instruction

namespace Forest

/-! ## Indexing by any key -/

variable {keyOf : Nat → Option String} {ids : List Nat} {key : String} {id : Nat}

/-- The numbers that have a key. -/
def idsUnder (keyOf : Nat → Option String) (ids : List Nat) (key : String) : List Nat :=
  ids.filter (keyOf · == some key)

/-- The index of some numbers, each put under its key if it has one. -/
def indexed (keyOf : Nat → Option String) (ids : List Nat) : List (String × List Nat) :=
  ids.foldl (fun index id => (keyOf id).elim index (insertAccess · id index)) []

theorem mem_idsUnder_iff : id ∈ idsUnder keyOf ids key ↔ id ∈ ids ∧ keyOf id = some key := by
  rw [idsUnder, List.mem_filter, beq_iff_eq]

/-- The number that comes last stands last under its own key and nowhere else. -/
theorem idsUnder_concat (keyOf : Nat → Option String) (ids : List Nat) (id : Nat) (key : String) :
    idsUnder keyOf (ids ++ [id]) key =
      idsUnder keyOf ids key ++ if keyOf id = some key then [id] else [] := by
  rw [idsUnder, List.filter_append, List.filter_cons, List.filter_nil, idsUnder]
  simp only [beq_iff_eq]

/-- Insertion into an index that gives each of its keys what `before` says. The
key is found or gets its place; its entry is longer by one number, and all others
stay as they are. -/
theorem exists_insertAccess_eq {before after : String → List Nat} {keys : List String}
    (hsorted : keys.Pairwise (· < ·)) (hown : after key = before key ++ [id])
    (hothers : ∀ k, k ≠ key → after k = before k) (hnew : key ∉ keys → before key = []) :
    ∃ keys' : List String, keys'.Pairwise (· < ·) ∧ (∀ k, k ∈ keys' ↔ k = key ∨ k ∈ keys) ∧
      insertAccess key id (keys.map fun k => (k, before k)) = keys'.map fun k => (k, after k) := by
  have hkept : ∀ l : List String, key ∉ l →
      (l.map fun k => (k, before k)) = l.map fun k => (k, after k) := by
    intro l hl
    apply List.map_congr_left
    intro k hk
    rw [hothers k fun heq => hl (heq ▸ hk)]
  induction keys with
  | nil =>
    refine ⟨[key], List.pairwise_singleton _ _, by simp, ?_⟩
    simp [insertAccess, hown, hnew]
  | cons k keys ih =>
    obtain ⟨hleast, htail⟩ := List.pairwise_cons.mp hsorted
    rw [List.map_cons, insertAccess]
    split
    case isTrue hlt =>
      -- All keys are greater, so this one is new.
      have hgreater : ∀ k' ∈ k :: keys, key < k' :=
        List.forall_mem_cons.mpr ⟨hlt, fun k' hk' => String.lt_trans hlt (hleast k' hk')⟩
      have hnot : key ∉ k :: keys := fun hmem => String.lt_irrefl _ (hgreater key hmem)
      refine ⟨key :: k :: keys, List.pairwise_cons.mpr ⟨hgreater, hsorted⟩, by simp, ?_⟩
      rw [List.map_cons, ← hkept _ hnot, hown, hnew hnot, List.nil_append, List.map_cons]
    case isFalse hle =>
      split
      case isTrue heq =>
        subst heq
        have hnot : key ∉ keys := fun hmem => String.lt_irrefl _ (hleast key hmem)
        refine ⟨key :: keys, hsorted, by simp, ?_⟩
        rw [List.map_cons, ← hkept _ hnot, hown]
      case isFalse hne =>
        have hgreater : k < key := Std.lt_of_le_of_ne (String.not_lt.mp hle) (Ne.symm hne)
        have hnew' : key ∉ keys → before key = [] := fun hnot =>
          hnew fun hmem => hnot ((List.mem_cons.mp hmem).resolve_left hne)
        obtain ⟨keys', hsorted', hmem, heq⟩ := ih htail hnew'
        refine ⟨k :: keys', List.pairwise_cons.mpr ⟨fun k' hk' => ?_, hsorted'⟩, fun k' => ?_, ?_⟩
        · obtain rfl | hk' := (hmem k').mp hk'
          · exact hgreater
          · exact hleast k' hk'
        · rw [List.mem_cons, List.mem_cons, hmem, or_left_comm]
        · rw [List.map_cons, heq, hothers k (Ne.symm hne)]

/-- The index has the keys that occur, in ascending order, each with the numbers
that have it. -/
theorem exists_indexed_eq (keyOf : Nat → Option String) (ids : List Nat) :
    ∃ keys : List String, keys.Pairwise (· < ·) ∧
      (∀ key, key ∈ keys ↔ idsUnder keyOf ids key ≠ []) ∧
      indexed keyOf ids = keys.map fun key => (key, idsUnder keyOf ids key) := by
  induction ids using List.reverseRecOn with
  | nil => exact ⟨[], List.Pairwise.nil, by simp [idsUnder], rfl⟩
  | append_singleton ids id ih =>
    obtain ⟨keys, hsorted, hmem, heq⟩ := ih
    have hstep : indexed keyOf (ids ++ [id]) =
        (keyOf id).elim (indexed keyOf ids) (insertAccess · id (indexed keyOf ids)) := by
      rw [indexed, List.foldl_append]
      rfl
    rw [hstep, heq]
    cases hkey : keyOf id with
    | none =>
      have hsame : idsUnder keyOf (ids ++ [id]) = idsUnder keyOf ids := by
        funext key
        rw [idsUnder_concat, hkey, if_neg (by simp), List.append_nil]
      rw [hsame]
      exact ⟨keys, hsorted, hmem, rfl⟩
    | some own =>
      have hown : idsUnder keyOf (ids ++ [id]) own = idsUnder keyOf ids own ++ [id] := by
        rw [idsUnder_concat, if_pos hkey]
      have hothers (key : String) (hne : key ≠ own) :
          idsUnder keyOf (ids ++ [id]) key = idsUnder keyOf ids key := by
        rw [idsUnder_concat, hkey, if_neg (by simpa using Ne.symm hne), List.append_nil]
      have hnew : own ∉ keys → idsUnder keyOf ids own = [] := fun hnot => by
        rwa [hmem, not_not] at hnot
      obtain ⟨keys', hsorted', hmem', heq'⟩ := exists_insertAccess_eq hsorted hown hothers hnew
      refine ⟨keys', hsorted', fun key => ?_, heq'⟩
      rw [hmem', hmem]
      by_cases hne : key = own
      · simp [hne, hown]
      · rw [hothers key hne, or_iff_right hne]

/-! ## The index of a forest -/

variable {m : Method} {f : Forest}

/-- The key of the field that a node accesses, if it accesses one. -/
def accessKey? (f : Forest) (id : Nat) : Option String :=
  (f.fieldAccess? id).map FieldAccess.key

theorem fieldAccesses_eq (f : Forest) (key : String) :
    f.fieldAccesses key = idsUnder f.accessKey? (List.range f.size) key := by
  rw [fieldAccesses, idsUnder]
  congr 1
  funext id
  rw [accessKey?]
  cases f.fieldAccess? id <;> rfl

theorem fieldIndex_eq (f : Forest) : f.fieldIndex = indexed f.accessKey? (List.range f.size) := by
  rw [fieldIndex, indexed]
  congr 1
  funext index id
  rw [accessKey?]
  cases f.fieldAccess? id <;> rfl

/-- A node of an assembled forest has the key of the instruction that it is made
from. -/
theorem accessKey?_assemble (h : assemble m = .ok f) (id : Nat) :
    f.accessKey? id = m.instructions[id]?.bind Instruction.accessKey? := by
  rw [← instruction_assemble h, accessKey?, fieldAccess?]
  cases f.node? id <;> rfl

theorem mem_fieldAccesses_iff (h : assemble m = .ok f) {key : String} {id : Nat} :
    id ∈ f.fieldAccesses key ↔ ∃ i ref, m.instructions[id]? = some i ∧ i.Accesses ref ∧
      ref.owner ++ "." ++ ref.name = key := by
  rw [fieldAccesses_eq, mem_idsUnder_iff, accessKey?_assemble h, Option.bind_eq_some_iff]
  constructor
  · rintro ⟨-, i, hi, hkey⟩
    obtain ⟨ref, href, hkey⟩ := Instruction.accessKey?_eq_some_iff.mp hkey
    exact ⟨i, ref, hi, href, hkey⟩
  · rintro ⟨i, ref, hi, href, hkey⟩
    obtain ⟨hlt, -⟩ := List.getElem?_eq_some_iff.mp hi
    rw [← size_assemble h] at hlt
    exact ⟨List.mem_range.mpr hlt, i, hi, Instruction.accessKey?_eq_some_iff.mpr ⟨ref, href, hkey⟩⟩

/-- The index of a forest and the search for one key agree with each other and
with the instructions of the method. -/
structure IsFieldIndexed (m : Method) (f : Forest) : Prop where
  /-- A key has an entry if the search for it finds something, and the entry is what
  it finds. -/
  mem_iff : ∀ key ids, (key, ids) ∈ f.fieldIndex ↔ f.fieldAccesses key ≠ [] ∧
    ids = f.fieldAccesses key
  /-- What is found for a key are the nodes of the instructions that access a field
  of that owner and name. -/
  mem_fieldAccesses_iff : ∀ key id, id ∈ f.fieldAccesses key ↔
    ∃ i ref, m.instructions[id]? = some i ∧ i.Accesses ref ∧ ref.owner ++ "." ++ ref.name = key
  /-- The entries come in the order of their keys, which are distinct. -/
  sorted : f.fieldIndex.Pairwise fun e e' => e.1 < e'.1
  /-- The nodes of an entry come in instruction order, each once. -/
  ascending : ∀ e ∈ f.fieldIndex, e.2.Pairwise (· < ·)
  /-- No node is in two entries. -/
  disjoint : f.fieldIndex.Pairwise fun e e' => e.2.Disjoint e'.2
  /-- No node is in the entries twice. -/
  nodup : (f.fieldIndex.flatMap (·.2)).Nodup
  /-- The nodes in the entries are those of the instructions that access a field. -/
  exists_entry_iff : ∀ id, id ∈ f.fieldIndex.flatMap (·.2) ↔
    ∃ i ref, m.instructions[id]? = some i ∧ i.Accesses ref

/-- The entries of the index are what the search finds, key by key. -/
theorem exists_fieldIndex_eq (f : Forest) :
    ∃ keys : List String, keys.Pairwise (· < ·) ∧
      (∀ key, key ∈ keys ↔ f.fieldAccesses key ≠ []) ∧
      f.fieldIndex = keys.map fun key => (key, f.fieldAccesses key) := by
  have hall : f.fieldAccesses = idsUnder f.accessKey? (List.range f.size) :=
    funext f.fieldAccesses_eq
  rw [hall, fieldIndex_eq]
  exact exists_indexed_eq f.accessKey? (List.range f.size)

/-- What is found comes in instruction order. -/
theorem pairwise_fieldAccesses (f : Forest) (key : String) :
    (f.fieldAccesses key).Pairwise (· < ·) := by
  rw [fieldAccesses_eq]
  exact List.pairwise_lt_range.filter _

/-- A node is found for one key only. -/
theorem disjoint_fieldAccesses (f : Forest) {key key' : String} (hne : key ≠ key') :
    (f.fieldAccesses key).Disjoint (f.fieldAccesses key') := by
  rw [fieldAccesses_eq, fieldAccesses_eq]
  intro id hid hid'
  have hkey := (mem_idsUnder_iff.mp hid).2
  rw [(mem_idsUnder_iff.mp hid').2] at hkey
  exact hne (Option.some.inj hkey).symm

/-- The index of an assembled forest agrees with the search for every key. -/
theorem isFieldIndexed_assemble (h : assemble m = .ok f) : f.IsFieldIndexed m := by
  obtain ⟨keys, hsorted, hkeys, hindex⟩ := f.exists_fieldIndex_eq
  have hnodes : f.fieldIndex.flatMap (·.2) = keys.flatMap f.fieldAccesses := by
    rw [hindex, List.flatMap_map]
  have hdisjoint : keys.Pairwise fun key key' =>
      (f.fieldAccesses key).Disjoint (f.fieldAccesses key') :=
    hsorted.imp fun hlt => f.disjoint_fieldAccesses (Std.ne_of_lt hlt)
  constructor
  case mem_iff =>
    intro key ids
    rw [hindex, List.mem_map]
    constructor
    · rintro ⟨own, hown, heq⟩
      obtain ⟨rfl, rfl⟩ := Prod.mk.inj heq
      exact ⟨(hkeys own).mp hown, rfl⟩
    · rintro ⟨hsome, rfl⟩
      exact ⟨key, (hkeys key).mpr hsome, rfl⟩
  case mem_fieldAccesses_iff => exact fun key id => mem_fieldAccesses_iff h
  case sorted =>
    rw [hindex, List.pairwise_map]
    exact hsorted
  case ascending =>
    rw [hindex, List.forall_mem_map]
    exact fun key _ => f.pairwise_fieldAccesses key
  case disjoint =>
    rw [hindex, List.pairwise_map]
    exact hdisjoint
  case nodup =>
    rw [hnodes, List.nodup_flatMap]
    exact ⟨fun key _ => (f.pairwise_fieldAccesses key).imp Nat.ne_of_lt, hdisjoint⟩
  case exists_entry_iff =>
    intro id
    rw [hnodes, List.mem_flatMap]
    constructor
    · rintro ⟨key, -, hid⟩
      obtain ⟨i, ref, hi, href, -⟩ := (mem_fieldAccesses_iff h).mp hid
      exact ⟨i, ref, hi, href⟩
    · rintro ⟨i, ref, hi, href⟩
      have hid : id ∈ f.fieldAccesses (ref.owner ++ "." ++ ref.name) :=
        (mem_fieldAccesses_iff h).mpr ⟨i, ref, hi, href, rfl⟩
      exact ⟨_, (hkeys _).mpr (List.ne_nil_of_mem hid), hid⟩

/-- A static method that reads two fields whose keys are the same text and writes one
of them, reads a third, and has a field on an instruction that accesses none and an
access without a field. -/
def blurredFields : Method where
  owner := "Sample"
  name := "blurred"
  descriptor := "()V"
  access := { isPublic := true, isStatic := true, isAbstract := false }
  instructions :=
    [⟨0, 0, 0xb2, .field ⟨"p.q", "r", "I"⟩⟩, ⟨1, 3, 0xb3, .field ⟨"p", "q.r", "I"⟩⟩,
      ⟨2, 6, 0x00, .field ⟨"p", "q.r", "I"⟩⟩, ⟨3, 7, 0xb2, .plain⟩,
      ⟨4, 10, 0xb4, .field ⟨"A", "x", "I"⟩⟩, ⟨5, 13, 0xb2, .field ⟨"p", "q.r", "I"⟩⟩]
  handlers := []

theorem isFieldIndexed_assemble_blurredFields :
    ∃ f, assemble blurredFields = .ok f ∧ f.IsFieldIndexed blurredFields ∧
      ("p.q.r", [0, 1, 5]) ∈ f.fieldIndex ∧ ("A.x", [4]) ∈ f.fieldIndex ∧
      ∀ ids, ("p.q", ids) ∉ f.fieldIndex := by
  obtain ⟨f, hf, hpqr, hx, hpq⟩ : ∃ f, assemble blurredFields = .ok f ∧
      f.fieldAccesses "p.q.r" = [0, 1, 5] ∧ f.fieldAccesses "A.x" = [4] ∧
      f.fieldAccesses "p.q" = [] :=
    ⟨_, rfl, by decide +kernel, by decide +kernel, by decide +kernel⟩
  have h := isFieldIndexed_assemble hf
  refine ⟨f, hf, h, (h.mem_iff _ _).mpr ?_, (h.mem_iff _ _).mpr ?_, fun ids hids => ?_⟩
  · simp [hpqr]
  · simp [hx]
  · exact ((h.mem_iff _ _).mp hids).1 hpq

end Forest

end ClassLens
