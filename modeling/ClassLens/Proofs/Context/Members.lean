/-
Members: the methods of a context with their slots.

A slot is the position of a class and of a method in it, and the members of a
context come with the slots they stand in. So a slot leads back to the method it
was listed with (`mem_members_iff`), and without their slots the members are the
methods in class and declaration order (`map_snd_members`). Nothing is said of
keys here: methods that share one are still members of their own.
-/
import Mathlib.Data.List.Basic
import ClassLens.Context.Basic

set_option autoImplicit false

namespace ClassLens.Context

variable {c : Context} {slot : Slot} {m : Method}

theorem mem_members_iff : (slot, m) ∈ c.members ↔ c.methodAt? slot = some m := by
  rw [members, ClassLens.members, methodAt?, List.mem_flatMap, Option.bind_eq_some_iff]
  constructor
  · rintro ⟨⟨cls, i⟩, hcls, hm⟩
    obtain ⟨⟨n, j⟩, hn, heq⟩ := List.mem_map.mp hm
    obtain ⟨rfl, rfl⟩ := Prod.mk.inj heq
    exact ⟨cls, List.mk_mem_zipIdx_iff_getElem?.mp hcls, List.mk_mem_zipIdx_iff_getElem?.mp hn⟩
  · rintro ⟨cls, hcls, hm⟩
    refine ⟨(cls, slot.classIndex), List.mk_mem_zipIdx_iff_getElem?.mpr hcls, ?_⟩
    exact List.mem_map.mpr
      ⟨(m, slot.methodIndex), List.mk_mem_zipIdx_iff_getElem?.mpr hm, rfl⟩

theorem map_snd_members (c : Context) : c.members.map (·.2) = c.methods := by
  calc c.members.map (·.2)
      = c.classes.zipIdx.flatMap fun p => p.1.methods := by
        rw [members, ClassLens.members, List.map_flatMap]
        refine List.flatMap_congr fun p _ => ?_
        rw [List.map_map]
        exact List.zipIdx_map_fst 0 p.1.methods
    _ = (c.classes.zipIdx.map (·.1)).flatMap (·.methods) := (List.flatMap_map _ _ _).symm
    _ = c.methods := by
        rw [show c.classes.zipIdx.map (·.1) = c.classes from List.zipIdx_map_fst 0 c.classes]
        rfl

end ClassLens.Context
