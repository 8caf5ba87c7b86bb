/-
Keys: what the key index of a context leads to.

The index is built by putting each member in front of those of its key, from the
last member to the first. What stands under a key is therefore the members of that
key in scan order, and a key that no member has is no key of the index
(`getElem?_indexed`). All the rest follows from this one equation and from the
slots: these ascend from member to member, so no two members have the same one,
whatever keys they have. A method is known by its slot and not by its key, and the
slot that is found for a subject is its own or none.
-/
import Mathlib.Data.List.Nodup
import ClassLens.Proofs.Context.Members

set_option autoImplicit false

namespace ClassLens

/-! ## The order of slots -/

/-- One slot stands before another: in an earlier class, or earlier in the same
class. -/
def Slot.Precedes (s t : Slot) : Prop :=
  s.classIndex < t.classIndex ∨ s.classIndex = t.classIndex ∧ s.methodIndex < t.methodIndex

theorem Slot.Precedes.ne {s t : Slot} (h : s.Precedes t) : s ≠ t := by
  rintro rfl
  rw [Precedes] at h
  omega

/-- Positions ascend along a list. -/
theorem pairwise_zipIdx {α : Type} (l : List α) :
    l.zipIdx.Pairwise fun p q => p.2 < q.2 := by
  have hpositions : (l.zipIdx.map Prod.snd).Pairwise (· < ·) := by
    rw [List.zipIdx_map_snd]
    exact List.pairwise_lt_range'
  exact List.pairwise_map.mp hpositions

/-! ## Building the index -/

/-- The slots of the members that have a key. -/
def slotsUnder (ms : List (Slot × Method)) (key : String) : List Slot :=
  (ms.filter (·.2.key == key)).map (·.1)

theorem slotsUnder_cons (slot : Slot) (m : Method) (ms : List (Slot × Method)) (key : String) :
    slotsUnder ((slot, m) :: ms) key =
      if m.key = key then slot :: slotsUnder ms key else slotsUnder ms key := by
  rw [slotsUnder, List.filter_cons]
  simp only [beq_iff_eq]
  split <;> rfl

theorem mem_slotsUnder_iff {ms : List (Slot × Method)} {key : String} {slot : Slot} :
    slot ∈ slotsUnder ms key ↔ ∃ m, (slot, m) ∈ ms ∧ m.key = key := by
  simp [slotsUnder]

/-- A slot comes in front of those of its key, and other keys keep theirs. -/
theorem KeyIndex.getElem?_add (index : KeyIndex) (key key' : String) (slot : Slot) :
    (index.add key slot)[key']? =
      if key = key' then some (slot :: index.getD key []) else index[key']? := by
  unfold add
  rw [Std.HashMap.getElem?_insert]
  simp only [beq_iff_eq]

/-- Members put into an index from the last to the first: under each key are the
slots of its members in order, and there are no other keys. -/
theorem getElem?_indexed (ms : List (Slot × Method)) (key : String) :
    (ms.foldr (fun (slot, m) (index : KeyIndex) => index.add m.key slot) ∅)[key]? =
      if slotsUnder ms key = [] then none else some (slotsUnder ms key) := by
  induction ms generalizing key with
  | nil => simp [slotsUnder]
  | cons p ms ih =>
    obtain ⟨slot, m⟩ := p
    have hrest : (ms.foldr (fun (slot, m) (index : KeyIndex) => index.add m.key slot) ∅).getD
        m.key [] = slotsUnder ms m.key := by
      rw [Std.HashMap.getD_eq_getD_getElem?, ih]
      split
      case isTrue hnone => rw [hnone, Option.getD_none]
      case isFalse => rw [Option.getD_some]
    rw [List.foldr_cons, KeyIndex.getElem?_add, hrest, ih, slotsUnder_cons]
    by_cases hkey : m.key = key
    · simp [hkey]
    · rw [if_neg hkey, if_neg hkey]

namespace Context

variable {c : Context} {slot : Slot} {m : Method} {key : String}

/-! ## The index of a context -/

theorem pairwise_members (c : Context) : c.members.Pairwise fun p q => p.1.Precedes q.1 := by
  rw [members, ClassLens.members, List.pairwise_flatMap]
  constructor
  · rintro ⟨cls, i⟩ -
    rw [List.pairwise_map]
    exact (pairwise_zipIdx cls.methods).imp fun hlt => .inr ⟨rfl, hlt⟩
  · refine (pairwise_zipIdx c.classes).imp fun {a b} hlt p hp q hq => ?_
    obtain ⟨own, -, rfl⟩ := List.mem_map.mp hp
    obtain ⟨other, -, rfl⟩ := List.mem_map.mp hq
    exact .inl hlt

theorem nodup_slots (c : Context) : (c.members.map (·.1)).Nodup :=
  List.pairwise_map.mpr (c.pairwise_members.imp Slot.Precedes.ne)

theorem length_members (c : Context) : c.members.length = c.methodCount := by
  have hmethods := congrArg List.length c.map_snd_members
  rwa [List.length_map, methods, length_flatMap_eq_natSum] at hmethods

theorem getElem?_index (c : Context) (key : String) :
    c.index[key]? =
      if slotsUnder c.members key = [] then none else some (slotsUnder c.members key) := by
  rw [c.index_eq]
  exact getElem?_indexed _ key

theorem getD_index (c : Context) (key : String) :
    c.index.getD key [] = slotsUnder c.members key := by
  rw [Std.HashMap.getD_eq_getD_getElem?, getElem?_index]
  split
  case isTrue hnone => rw [hnone, Option.getD_none]
  case isFalse => rw [Option.getD_some]

/-- The entries of the index are the keys of the members with their slots. -/
theorem mem_toList_index_iff {slots : List Slot} :
    (key, slots) ∈ c.index.toList ↔ slots = slotsUnder c.members key ∧ slots ≠ [] := by
  rw [Std.HashMap.mem_toList_iff_getElem?_eq_some, getElem?_index]
  split
  case isTrue hnone => simp [hnone]
  case isFalse hsome =>
    rw [Option.some.injEq]
    exact ⟨fun h => ⟨h.symm, h ▸ hsome⟩, fun h => h.1.symm⟩

/-- A slot stands under the key of the method in it and under no other. -/
theorem mem_slotsUnder_members_iff (h : c.methodAt? slot = some m) :
    slot ∈ slotsUnder c.members key ↔ m.key = key := by
  rw [mem_slotsUnder_iff]
  constructor
  · rintro ⟨n, hn, rfl⟩
    rw [mem_members_iff, h, Option.some.injEq] at hn
    rw [hn]
  · exact fun hkey => ⟨m, mem_members_iff.mpr h, hkey⟩

theorem nodup_slotsUnder (c : Context) (key : String) : (slotsUnder c.members key).Nodup :=
  c.nodup_slots.sublist (List.filter_sublist.map _)

/-- All entries together have the slot of each member once. -/
theorem flatMap_toList_index_perm (c : Context) :
    (c.index.toList.flatMap (·.2)).Perm (c.members.map (·.1)) := by
  have hentries : (c.index.toList.flatMap (·.2)).Nodup := by
    rw [List.nodup_flatMap]
    refine ⟨fun e he => ?_, Std.HashMap.distinct_keys_toList.imp_of_mem ?_⟩
    · rw [(mem_toList_index_iff.mp he).1]
      exact c.nodup_slotsUnder e.1
    -- A slot under two keys would hold a method of both.
    · rintro ⟨key, slots⟩ ⟨key', slots'⟩ he he' hne slot hslot hslot'
      obtain ⟨rfl, -⟩ := mem_toList_index_iff.mp he
      obtain ⟨rfl, -⟩ := mem_toList_index_iff.mp he'
      obtain ⟨m, hm, hkey⟩ := mem_slotsUnder_iff.mp hslot
      have hkey' := (mem_slotsUnder_members_iff (mem_members_iff.mp hm)).mp hslot'
      simp [← hkey, ← hkey'] at hne
  refine (List.perm_ext_iff_of_nodup hentries c.nodup_slots).mpr fun slot => ?_
  rw [List.mem_flatMap, List.mem_map]
  constructor
  · rintro ⟨e, he, hslot⟩
    rw [(mem_toList_index_iff.mp he).1] at hslot
    obtain ⟨m, hm, -⟩ := mem_slotsUnder_iff.mp hslot
    exact ⟨_, hm, rfl⟩
  · rintro ⟨⟨own, m⟩, hm, rfl⟩
    have hunder : own ∈ slotsUnder c.members m.key := mem_slotsUnder_iff.mpr ⟨m, hm, rfl⟩
    exact ⟨_, mem_toList_index_iff.mpr ⟨rfl, List.ne_nil_of_mem hunder⟩, hunder⟩

/-! ## Looking up -/

/-- What is found under a key is the members of that key. -/
theorem resolveAll_eq (c : Context) (key : String) :
    c.resolveAll key = c.members.filter (·.2.key == key) := by
  have hfound : ∀ p ∈ c.members.filter (·.2.key == key),
      (c.methodAt? p.1).map (fun m => (p.1, m)) = some p := by
    intro p hp
    rw [mem_members_iff.mp (List.mem_of_mem_filter hp), Option.map_some]
  rw [resolveAll, getD_index, slotsUnder, List.filterMap_map]
  exact (List.filterMap_congr hfound).trans List.filterMap_some

theorem slotOf?_inside (h : c.methodAt? slot = some m) :
    c.slotOf? (.inside slot m h) = some slot := by
  have hunder : slot ∈ slotsUnder c.members m.key := (mem_slotsUnder_members_iff h).mpr rfl
  have hfind : (slotsUnder c.members m.key).find? (slot == ·) = some slot := by
    cases hfound : (slotsUnder c.members m.key).find? (slot == ·) with
    | none => exact absurd (beq_self_eq_true slot) (List.find?_eq_none.mp hfound slot hunder)
    | some t =>
      have hsame : (slot == t) = true := List.find?_some (p := (slot == ·)) hfound
      rw [eq_of_beq hsame]
  rw [slotOf?, getD_index]
  exact hfind

theorem slotOf?_outside (c : Context) (m : Method) : c.slotOf? (.outside m) = none :=
  List.find?_eq_none.mpr fun _ _ => Bool.false_ne_true

/-- The key index leads to every method by its key and by nothing else. -/
structure IsIndexed (c : Context) : Prop where
  /-- Under a key are the methods that have it, each in its slot. -/
  mem_resolveAll : ∀ key slot m,
    (slot, m) ∈ c.resolveAll key ↔ c.methodAt? slot = some m ∧ m.key = key
  /-- They come in class and declaration order, none of them twice. -/
  ascending : ∀ key, ((c.resolveAll key).map (·.1)).Pairwise Slot.Precedes
  /-- Slots aside, they are what the key selects from all methods. -/
  methods : ∀ key, (c.resolveAll key).map (·.2) = c.methods.filter (·.key == key)
  /-- Of several methods of a key the first one is found. -/
  first : ∀ key, c.resolve? key = c.members.find? (·.2.key == key)
  /-- The slot of a method stands once in one entry, and in no other. -/
  entry : ∀ slot m, c.methodAt? slot = some m →
    ∃ slots, (m.key, slots) ∈ c.index.toList ∧ slots.count slot = 1 ∧
      ∀ e ∈ c.index.toList, slot ∈ e.2 → e = (m.key, slots)
  /-- Between them the entries have as many slots as there are methods. -/
  lengths : natSum (c.index.toList.map (·.2.length)) = c.methodCount
  /-- The slot of a method of the context is found. -/
  inside : ∀ slot m (h : c.methodAt? slot = some m), c.slotOf? (.inside slot m h) = some slot
  /-- A method from elsewhere has none, whatever its key. -/
  outside : ∀ m, c.slotOf? (.outside m) = none

/-- The key index is exact, be there several methods of a key in one class or in
several. -/
theorem isIndexed (c : Context) : c.IsIndexed := by
  constructor
  case mem_resolveAll =>
    intro key slot m
    rw [resolveAll_eq, List.mem_filter, mem_members_iff, beq_iff_eq]
  case ascending =>
    intro key
    rw [resolveAll_eq, List.pairwise_map]
    exact c.pairwise_members.sublist List.filter_sublist
  case methods =>
    intro key
    rw [resolveAll_eq, ← map_snd_members, List.filter_map]
    rfl
  case first =>
    intro key
    rw [resolve?, resolveAll_eq, List.head?_filter]
  case entry =>
    intro slot m h
    have hunder : slot ∈ slotsUnder c.members m.key := (mem_slotsUnder_members_iff h).mpr rfl
    refine ⟨slotsUnder c.members m.key,
      mem_toList_index_iff.mpr ⟨rfl, List.ne_nil_of_mem hunder⟩,
      List.count_eq_one_of_mem (c.nodup_slotsUnder _) hunder, ?_⟩
    rintro ⟨key, slots⟩ he hslot
    obtain ⟨rfl, -⟩ := mem_toList_index_iff.mp he
    rw [(mem_slotsUnder_members_iff h).mp hslot]
  case lengths =>
    rw [← length_flatMap_eq_natSum, c.flatMap_toList_index_perm.length_eq, List.length_map,
      length_members]
  case inside => exact fun _ _ h => slotOf?_inside h
  case outside => exact c.slotOf?_outside

/-- A method without code. -/
def bodiless (name : String) : Method :=
  ⟨"Sample", name, "()V", ⟨true, false, true⟩, [], []⟩

/-- A class that declares a key twice, a class without methods, and the first class
once more. -/
def repeatedKeys : Context :=
  .make [⟨"Sample", none, [bodiless "f", bodiless "g", bodiless "f"]⟩, ⟨"Empty", none, []⟩,
    ⟨"Sample", none, [bodiless "f"]⟩] .empty

/-- All three methods of one key are found, and each is told from the others and from
a fourth that is not in the context. -/
theorem isIndexed_repeatedKeys :
    (repeatedKeys.resolveAll "Sample.f()V").map (·.2) =
      [bodiless "f", bodiless "f", bodiless "f"] ∧
    repeatedKeys.resolve? "Sample.f()V" = some (⟨0, 0⟩, bodiless "f") ∧
    (⟨2, 0⟩, bodiless "f") ∈ repeatedKeys.resolveAll "Sample.f()V" ∧
    repeatedKeys.slotOf? (.inside ⟨0, 2⟩ (bodiless "f") rfl) = some ⟨0, 2⟩ ∧
    repeatedKeys.slotOf? (.outside (bodiless "f")) = none ∧
    natSum (repeatedKeys.index.toList.map (·.2.length)) = 4 := by
  have h := isIndexed repeatedKeys
  have hkey : (bodiless "f").key = "Sample.f()V" := by decide
  refine ⟨?_, ?_, (h.mem_resolveAll _ _ _).mpr ⟨rfl, hkey⟩, h.inside _ _ rfl, h.outside _,
    h.lengths⟩
  · rw [h.methods]
    decide
  · rw [h.first]
    decide

end Context

end ClassLens
