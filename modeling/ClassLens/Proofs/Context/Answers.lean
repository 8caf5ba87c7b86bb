/-
Answers: what a context says of a method does not depend on what was asked
before.

The cache is read and written by every question, so an answer might be one that
was given to another question about another method. The invariant that forbids
this is that each entry holds the matches of the very method in its slot
(`MatchCache.Faithful`). `Gives` says of a computation that it ends with a given
result and a faithful cache whatever faithful cache it starts with. Computations
in sequence give what their parts give, so each question is settled by the one
lemma on a single lookup, and a run of questions by induction on the list.

A lookup goes by a slot and not by a key, and the slot of a subject is only ever
its own (`isSlotOf_slotOf?`). Keys play no part in the argument, which is why
methods that share one do not get in each other's way.
-/
import ClassLens.Context.Matches
import ClassLens.Proofs.Context.Members

set_option autoImplicit false

namespace ClassLens

/-! ## Faithful caches -/

/-- Each entry is what `compute` says of the method in its slot. -/
def EntriesOf (c : Context) (compute : Method → List String)
    (entries : Std.HashMap Slot (List String)) : Prop :=
  ∀ slot found, entries[slot]? = some found → ∃ m, c.methodAt? slot = some m ∧ found = compute m

/-- Each entry holds the matches of the method in its slot. -/
structure MatchCache.Faithful (c : Context) (cache : MatchCache) : Prop where
  simple : EntriesOf c c.catalog.matchSimple cache.simple
  advanced : EntriesOf c c.catalog.matchAdvanced cache.advanced

variable {c : Context}

theorem MatchCache.faithful_empty (c : Context) : MatchCache.empty.Faithful c where
  simple slot found h := by simp [empty] at h
  advanced slot found h := by simp [empty] at h

/-- The slot belongs to the method. A method may also come without one. -/
def IsSlotOf (c : Context) (slot? : Option Slot) (m : Method) : Prop :=
  ∀ slot, slot? = some slot → c.methodAt? slot = some m

/-- One lookup: it gives what is computed for the method, be it from an entry or
afresh, and leaves entries that are as good as before. -/
theorem answer_eq {compute : Method → List String} {entries : Std.HashMap Slot (List String)}
    (h : EntriesOf c compute entries) {slot? : Option Slot} {m : Method}
    (hslot : IsSlotOf c slot? m) (cached : Bool) :
    (answer entries slot? cached fun _ => compute m).1 = compute m ∧
      EntriesOf c compute (answer entries slot? cached fun _ => compute m).2 := by
  cases slot? with
  | none => exact ⟨rfl, h⟩
  | some slot =>
    have hm : c.methodAt? slot = some m := hslot slot rfl
    unfold answer
    simp only
    split
    · rename_i hit hhit
      obtain ⟨n, hn, rfl⟩ := h slot hit hhit
      rw [hm, Option.some.injEq] at hn
      exact ⟨by rw [hn], h⟩
    · refine ⟨rfl, fun other found hfound => ?_⟩
      rw [Std.HashMap.getElem?_insert] at hfound
      split at hfound
      · rename_i hsame
        rw [← eq_of_beq hsame]
        exact ⟨m, hm, (Option.some.inj hfound).symm⟩
      · exact h other found hfound

/-! ## Computations with the cache -/

/-- From any faithful cache the computation ends with the result `a` and with a
faithful cache. -/
def Gives {α : Type} (c : Context) (x : StateM MatchCache α) (a : α) : Prop :=
  ∀ cache : MatchCache, cache.Faithful c → (x.run cache).1 = a ∧ (x.run cache).2.Faithful c

namespace Gives

variable {α β : Type} {x : StateM MatchCache α} {a : α}

theorem pure (a : α) : Gives c (Pure.pure a) a :=
  fun _ h => ⟨rfl, h⟩

theorem bind {f : α → StateM MatchCache β} {b : β} (hx : Gives c x a) (hf : Gives c (f a) b) :
    Gives c (x >>= f) b := by
  intro cache h
  obtain ⟨hresult, hcache⟩ := hx cache h
  have hrun : (x >>= f).run cache = (f (x.run cache).1).run (x.run cache).2 := rfl
  rw [hrun, hresult]
  exact hf _ hcache

theorem mapM {f : α → StateM MatchCache β} {g : α → β} {l : List α}
    (h : ∀ a ∈ l, Gives c (f a) (g a)) : Gives c (l.mapM f) (l.map g) := by
  induction l with
  | nil => exact pure []
  | cons a l ih =>
    have hrest : Gives c (l.mapM f) (l.map g) := ih fun b hb => h b (List.mem_cons_of_mem a hb)
    rw [List.mapM_cons]
    exact (h a List.mem_cons_self).bind (hrest.bind (pure _))

end Gives

/-! ## One question -/

namespace Context

theorem gives_answerSimple {slot? : Option Slot} {m : Method} (hslot : IsSlotOf c slot? m)
    (cached : Bool) : Gives c (c.answerSimple slot? m cached) (c.catalog.matchSimple m) := by
  intro cache h
  obtain ⟨hfound, hentries⟩ := answer_eq h.simple hslot cached
  exact ⟨hfound, hentries, h.advanced⟩

theorem gives_answerAdvanced {slot? : Option Slot} {m : Method} (hslot : IsSlotOf c slot? m)
    (cached : Bool) : Gives c (c.answerAdvanced slot? m cached) (c.catalog.matchAdvanced m) := by
  intro cache h
  obtain ⟨hfound, hentries⟩ := answer_eq h.advanced hslot cached
  exact ⟨hfound, h.simple, hentries⟩

/-- The slot found for a subject is its own, however many methods have its
key. -/
theorem isSlotOf_slotOf? (s : Subject c) : IsSlotOf c (c.slotOf? s) s.method := by
  intro slot hslot
  have hat : s.isAt slot = true := List.find?_some (p := fun slot => s.isAt slot) hslot
  cases s with
  | inside own m found =>
    rw [← eq_of_beq hat]
    exact found
  | outside m => simp [Subject.isAt] at hat

theorem gives_findSimple (s : Subject c) (cached : Bool) :
    Gives c (c.findSimple s cached) (c.catalog.matchSimple s.method) :=
  gives_answerSimple (isSlotOf_slotOf? s) cached

theorem gives_findAdvanced (s : Subject c) (cached : Bool) :
    Gives c (c.findAdvanced s cached) (c.catalog.matchAdvanced s.method) :=
  gives_answerAdvanced (isSlotOf_slotOf? s) cached

theorem gives_hasSimple (s : Subject c) (names : List String) :
    Gives c (c.hasSimple s names) (names.all (c.catalog.matchSimple s.method).contains) :=
  (gives_findSimple s true).bind (.pure _)

theorem gives_hasAdvanced (s : Subject c) (names : List String) :
    Gives c (c.hasAdvanced s names) (names.all (c.catalog.matchAdvanced s.method).contains) :=
  (gives_findAdvanced s true).bind (.pure _)

/-- What there is to know of a method. -/
def freshMatches (c : Context) (m : Method) : MethodMatches :=
  ⟨m.key, c.catalog.matchSimple m, c.catalog.matchAdvanced m⟩

theorem gives_matchesAt {slot : Slot} {m : Method} (h : c.methodAt? slot = some m) :
    Gives c (c.matchesAt slot m) (c.freshMatches m) := by
  have hslot : IsSlotOf c (some slot) m := fun _ hsame => by rwa [← Option.some.inj hsame]
  exact (gives_answerSimple hslot true).bind ((gives_answerAdvanced hslot true).bind (.pure _))

theorem gives_analyze (c : Context) : Gives c c.analyze (c.methods.map c.freshMatches) := by
  have hmembers : ∀ p ∈ c.members, Gives c (c.matchesAt p.1 p.2) (c.freshMatches p.2) :=
    fun p hp => gives_matchesAt (mem_members_iff.mp hp)
  rw [← map_snd_members, List.map_map]
  exact Gives.mapM hmembers

/-! ## Questions in sequence -/

/-- A question to a context. One that says nothing of the cache allows it to be
used. -/
inductive Question (c : Context) where
  | analyze
  | findSimple (s : Subject c) (cached : Bool)
  | findAdvanced (s : Subject c) (cached : Bool)
  | hasSimple (s : Subject c) (names : List String)
  | hasAdvanced (s : Subject c) (names : List String)

/-- An answer of a context. -/
inductive Reply where
  | analysis (found : List MethodMatches)
  | names (found : List String)
  | verdict (holds : Bool)
  deriving DecidableEq, Repr

/-- Puts a question to the context. -/
def ask (c : Context) : Question c → StateM MatchCache Reply
  | .analyze => return .analysis (← c.analyze)
  | .findSimple s cached => return .names (← c.findSimple s cached)
  | .findAdvanced s cached => return .names (← c.findAdvanced s cached)
  | .hasSimple s names => return .verdict (← c.hasSimple s names)
  | .hasAdvanced s names => return .verdict (← c.hasAdvanced s names)

/-- Puts questions to the context, one after the other. -/
def askAll (c : Context) (questions : List (Question c)) : StateM MatchCache (List Reply) :=
  questions.mapM c.ask

/-- The answer that the catalogue has to a question: it looks at the methods the
question is about, and at nothing else. -/
def freshReply (c : Context) : Question c → Reply
  | .analyze => .analysis (c.methods.map c.freshMatches)
  | .findSimple s _ => .names (c.catalog.matchSimple s.method)
  | .findAdvanced s _ => .names (c.catalog.matchAdvanced s.method)
  | .hasSimple s names => .verdict (names.all (c.catalog.matchSimple s.method).contains)
  | .hasAdvanced s names => .verdict (names.all (c.catalog.matchAdvanced s.method).contains)

/-- Any one question gets the answer of the catalogue. -/
theorem gives_ask (q : Question c) : Gives c (c.ask q) (c.freshReply q) := by
  cases q with
  | analyze => exact c.gives_analyze.bind (.pure _)
  | findSimple s cached => exact (gives_findSimple s cached).bind (.pure _)
  | findAdvanced s cached => exact (gives_findAdvanced s cached).bind (.pure _)
  | hasSimple s names => exact (gives_hasSimple s names).bind (.pure _)
  | hasAdvanced s names => exact (gives_hasAdvanced s names).bind (.pure _)

theorem gives_askAll (questions : List (Question c)) :
    Gives c (c.askAll questions) (questions.map c.freshReply) :=
  Gives.mapM fun q _ => gives_ask q

/-- The cache does not show: whatever is asked of a context, in whatever order,
each answer is the one the catalogue has for the methods it is about, and no
entry of the cache ever holds the matches of another method. -/
theorem replies_eq (c : Context) (questions : List (Question c)) :
    ((c.askAll questions).run MatchCache.empty).1 = questions.map c.freshReply ∧
      ((c.askAll questions).run MatchCache.empty).2.Faithful c :=
  gives_askAll questions _ (MatchCache.faithful_empty c)

/-- A method that pushes a literal, or that has no code. -/
def twin (value? : Option Int32) : Method :=
  ⟨"Twin", "value", "()I", ⟨true, true, false⟩,
    (value?.map fun n => ⟨0, 0, 0x04, .constant (.int n)⟩).toList, []⟩

/-- Two classes of one name, each with a method of the same key. -/
def twins : Context :=
  .make [⟨"Twin", none, [twin none]⟩, ⟨"Twin", none, [twin (some 1)]⟩]
    ⟨[⟨"Bodiless", .calling, "Has no code", .method (·.instructions.isEmpty)⟩,
      ⟨"Literal", .dataFlow, "Pushes a literal", .instruction (·.opcode == 0x04)⟩], by decide⟩

/-- Methods of one key are told apart, in whatever order they are asked for, and
so is one from elsewhere. -/
theorem replies_twins :
    ((twins.askAll [
        .findSimple (.inside ⟨0, 0⟩ (twin none) rfl) true,
        .findSimple (.inside ⟨1, 0⟩ (twin (some 1)) rfl) true,
        .findAdvanced (.outside (twin (some 2))) true,
        .findAdvanced (.inside ⟨0, 0⟩ (twin none) rfl) false,
        .hasAdvanced (.inside ⟨1, 0⟩ (twin (some 1)) rfl) ["Literal"],
        .analyze]).run MatchCache.empty).1 =
      [.names ["Bodiless"], .names [], .names ["Literal"], .names [], .verdict true,
        .analysis [⟨"Twin.value()I", ["Bodiless"], []⟩, ⟨"Twin.value()I", [], ["Literal"]⟩]] := by
  rw [(replies_eq twins _).1]
  decide

end Context

end ClassLens
