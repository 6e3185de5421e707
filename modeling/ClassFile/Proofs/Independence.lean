/-
**What placing does not depend on.**

All that a component asks of a holder is its shape, and a holder keeps its shape while it is
filled.  So what is already in a holder makes no difference to what comes in next: two holders of
one shape, however different their contents, get the same components and refuse the same ones.
And a script that stops nowhere in a component may as well be declared after the component as
inside it: the same holders further out are asked for the same components in the same order, and
all that shows is one refusal less.

Main definitions:

* `Shape.turnAway` — a stray after one more refusal;
* `SameAdditions` — a class edited by a script, and an empty class built from the same script.

Main results:

* `Script.holder_place_eq_taken`, `Script.strays_place_eq_refused` — what comes of a script, by what
  the script offers to the holder around it;
* `place_dependsOnShape` — **the shape of the holder decides what is added and what is left over**;
* `place_block_append` — **what a component has no use for may be declared after it**.
-/

import ClassFile.Proofs.Trails

set_option relaxedAutoImplicit false
set_option autoImplicit false

namespace ClassFile

section

variable {α : Type} [Holder α] [LawfulHolder α] (settings : Settings)

/-! ### A script by its offers -/

/-- Of what a script offers, the holder has in it what it takes. -/
theorem Script.holder_place_eq_taken (ds : Script) (h : α) :
    (ds.place settings h).holder = addAll h ((shape h).taken (ds.offers settings)) := by
  rw [Script.holder_place, Script.taken_offers]

/-- Of what a script offers, the holder leaves over what it refuses. -/
theorem Script.strays_place_eq_refused (ds : Script) (h : α) :
    (ds.place settings h).strays = (shape h).refused settings (ds.offers settings) := by
  rw [Script.strays_place, Script.refused_offers]

theorem Script.offers_singleton (d : Decl) : Script.offers settings [d] = d.offers settings := by
  rw [Script.offers_cons]
  exact List.append_nil _

theorem Script.offers_append (ds es : Script) :
    Script.offers settings (ds ++ es) = ds.offers settings ++ es.offers settings := by
  induction ds with
  | nil => rfl
  | cons d ds ih =>
      rw [List.cons_append, Script.offers_cons, Script.offers_cons, ih, List.append_assoc]

end

/-! ### The shape decides -/

/-- A class with the content of another after its own, slot by slot. -/
def Class.append (k k' : Class) : Class where
  name := k.name
  flags := k.flags
  methods := k.methods ++ k'.methods
  fields := k.fields ++ k'.fields
  constantPool := k.constantPool ++ k'.constantPool
  attributes := k.attributes ++ k'.attributes

/-- Editing a class by a script and building an empty class from it come to the same: both
succeed, and the class edited is the one that it was, with the content of the class built after
its own; or both fail, with the same strays. -/
def SameAdditions (k : Class) : Except PlacementError Class → Except PlacementError Class → Prop
  | .ok edited, .ok built => edited = k.append built
  | .error e, .error e' => e.unplaced = e'.unplaced
  | _, _ => False

/-- All classes have one shape. -/
theorem Class.shape_eq (k k' : Class) : shape k = shape k' := by
  have hslots : hasSlot k = hasSlot k' := by
    funext s
    cases s <;> rfl
  exact congrArg (Shape.mk .root) hslots

/-- The components that ask for a slot. -/
def asking (cs : List Component) (s : Slot) : List Component :=
  cs.filter fun c => c.placement.slot = s

/-- A class with some components in it, slot by slot. -/
theorem Class.addAll_eq (k : Class) (cs : List Component) :
    addAll k cs = ⟨k.name, k.flags, k.methods ++ asking cs .methods, k.fields ++ asking cs .fields,
      k.constantPool ++ asking cs .constantPool, k.attributes ++ asking cs .attributes⟩ := by
  refine LawfulHolder.eq_of_vacated_of_slots (vacated_addAll k cs) ?_
  rw [slots_addAll]
  simp [Holder.slots, Class.slots, growTables, asking]

/-- Adding components to a class is adding them to an empty one and appending its content. -/
theorem Class.addAll_eq_append (k : Class) (name : String) (flags : AccessFlags .classes)
    (cs : List Component) : addAll k cs = k.append (addAll (.empty name flags) cs) := by
  rw [Class.addAll_eq, Class.addAll_eq, Class.append, Class.empty]
  simp

/-- Two holders of one shape leave the same strays, and the same components are new in them. -/
theorem Script.place_of_shape_eq {α β : Type} [Holder α] [LawfulHolder α] [Holder β]
    [LawfulHolder β] (settings : Settings) (ds : Script) {f : α} {g : β} (h : shape f = shape g) :
    (ds.place settings f).strays = (ds.place settings g).strays ∧
      ∃ new, (ds.place settings f).holder = addAll f new ∧
        (ds.place settings g).holder = addAll g new := by
  constructor
  · rw [Script.strays_place_eq_refused, Script.strays_place_eq_refused, h]
  · refine ⟨(shape f).taken (ds.offers settings), ?_, ?_⟩
    · exact Script.holder_place_eq_taken settings ds f
    · rw [h]
      exact Script.holder_place_eq_taken settings ds g

/-- **What is added and what is left over depends on the shape of the holder only**, and not on what
is in it; so a class is edited just as an empty one is built. -/
theorem place_dependsOnShape (settings : Settings) (ds : Script) :
    (∀ {α β : Type} [Holder α] [LawfulHolder α] [Holder β] [LawfulHolder β] (f : α) (g : β),
      Holder.scope f = Holder.scope g → (∀ s, hasSlot f s = hasSlot g s) →
        (ds.place settings f).strays = (ds.place settings g).strays ∧
          ∃ new, FilledWith f new (ds.place settings f).holder ∧
            FilledWith g new (ds.place settings g).holder) ∧
    ∀ (k : Class) (name : String) (flags : AccessFlags .classes),
      SameAdditions k (k.edit settings ds).result
        ((Class.empty name flags).build settings ds).result := by
  constructor
  · intro α β _ _ _ _ f g hscope hslots
    have hshape : shape f = shape g := by
      rw [shape, shape, hscope, funext hslots]
    obtain ⟨hstrays, new, hf, hg⟩ := Script.place_of_shape_eq settings ds hshape
    refine ⟨hstrays, new, ?_, ?_⟩
    · rw [hf]
      exact filledWith_addAll f new
    · rw [hg]
      exact filledWith_addAll g new
  · intro k name flags
    obtain ⟨hstrays, new, hk, hempty⟩ :=
      Script.place_of_shape_eq settings ds (Class.shape_eq k (.empty name flags))
    rw [Class.edit, Class.build, Class.assemble, Class.assemble, ← hstrays]
    by_cases hnil : (ds.place settings k).strays.isEmpty
    · rw [if_pos hnil, if_pos hnil, SameAdditions, hk, hempty]
      exact Class.addAll_eq_append k name flags new
    · rw [if_neg hnil, if_neg hnil, SameAdditions]

/-- Code with two tables for code, of which one is hidden, and with something in every slot, gets
what plain code gets: a table of line numbers with its row in it, and a label; the constant is left
over by both. -/
theorem place_dependsOnShape_hiddenTable :
    let nop := Component.instruction .nop ()
    let full := Node.attr .code [] [.attr .synthetic ()]
      [(.code, [nop]), (.exceptionTable, [nop]), (.code, [nop, nop])]
    let plain := (Component.attr .code (.int 1, .int 1, ())).node
    let ds : Script := [.block (.attr .lineNumberTable ())
      [.component (.entry .lineNumber ("a", .int 1, ())), .label "a",
        .component (.constant "one" (.int 1) [])]]
    (Holder.scope full = Holder.scope plain ∧ ∀ s, hasSlot full s = hasSlot plain s) ∧
      ((ds.place .usual full).strays = (ds.place .usual plain).strays ∧
        ∃ new, FilledWith full new (ds.place .usual full).holder ∧
          FilledWith plain new (ds.place .usual plain).holder) ∧
      (ds.place .usual plain).strays.map Stray.component = [.constant "one" (.int 1) []] := by
  intro nop full plain ds
  have hslots : ∀ s, hasSlot full s = hasSlot plain s := by
    intro s
    cases s <;> rfl
  exact ⟨⟨rfl, hslots⟩, (place_dependsOnShape .usual ds).1 full plain rfl hslots, rfl⟩

/-! ### Declared inside or after -/

/-- A stray after one more refusal, by a holder of this shape. -/
def Shape.turnAway (settings : Settings) (f : Shape) (s : Stray) : Stray :=
  ⟨s.component, s.trail ++
    if settings.keepTrails then [⟨f.scope, f.objection s.component.placement⟩] else []⟩

/-- A holder refuses what it does not take. -/
theorem Shape.refused_eq_map_turnAway (settings : Settings) (f : Shape) (ss : List Stray) :
    f.refused settings ss =
      (ss.filter fun s => ¬f.Takes s.component.placement).map (f.turnAway settings) := by
  induction ss with
  | nil => rfl
  | cons s ss ih =>
      rw [Shape.refused_cons, ih]
      by_cases hs : f.Takes s.component.placement
      · rw [Shape.refusal?_eq_none_iff_takes.2 hs, List.filter_cons_of_neg (by simpa using hs)]
      · rw [Shape.refusal?_of_not_takes hs, List.filter_cons_of_pos (by simpa using hs)]
        rfl

/-- Of strays none of which it takes, a holder takes nothing. -/
theorem Shape.taken_eq_nil {f : Shape} {ss : List Stray}
    (hss : ∀ s ∈ ss, ¬f.Takes s.component.placement) : f.taken ss = [] := by
  rw [taken, List.map_eq_nil_iff, List.filter_eq_nil_iff]
  intro s hs
  simpa [refusal?_eq_none_iff_takes] using hss s hs

/-- Strays none of which it takes, a holder refuses all. -/
theorem Shape.refused_eq_map (settings : Settings) {f : Shape} {ss : List Stray}
    (hss : ∀ s ∈ ss, ¬f.Takes s.component.placement) :
    f.refused settings ss = ss.map (f.turnAway settings) := by
  rw [refused_eq_map_turnAway, List.filter_eq_self.2 fun s hs => by simpa using hss s hs]

theorem Shape.taken_append (f : Shape) (ss ss' : List Stray) :
    f.taken (ss ++ ss') = f.taken ss ++ f.taken ss' := by
  simp [taken]

theorem Shape.refused_append (settings : Settings) (f : Shape) (ss ss' : List Stray) :
    f.refused settings (ss ++ ss') = f.refused settings ss ++ f.refused settings ss' := by
  simp [refused]

/-- Further refusals change nothing about what a holder refuses, and stay ahead of its own. -/
theorem Shape.refused_map_turnAway (settings : Settings) (f g : Shape) (ss : List Stray) :
    g.refused settings (ss.map (f.turnAway settings)) =
      ((ss.filter fun s => ¬g.Takes s.component.placement).map (f.turnAway settings)).map
        (g.turnAway settings) := by
  rw [refused_eq_map_turnAway, List.filter_map]
  rfl

/-- Further refusals change nothing about what a holder takes. -/
theorem Shape.taken_map_turnAway (settings : Settings) (f g : Shape) (ss : List Stray) :
    g.taken (ss.map (f.turnAway settings)) = g.taken ss := by
  rw [taken, List.filter_map, List.map_map]
  rfl

section

variable {α : Type} [Holder α] [LawfulHolder α] (settings : Settings)

/-- A holder that stays the same when components are added has no slot for any of them. -/
theorem hasSlot_eq_false_of_addAll_eq {h : α} {cs : List Component} (hh : addAll h cs = h)
    {c : Component} (hc : c ∈ cs) : hasSlot h c.placement.slot = false := by
  have hslot := slot?_addAll h cs c.placement.slot
  rw [hh] at hslot
  cases hs : Holder.slot? h c.placement.slot with
  | none => simp [hasSlot, hs]
  | some old =>
      -- the slot would be longer by the component
      rw [hs, Option.map_some, Option.some.injEq] at hslot
      have hnone := List.self_eq_append_right.1 hslot
      exact absurd (List.mem_filter.2 ⟨hc, by simp⟩) (hnone ▸ List.not_mem_nil)

/-- A holder that a script leaves as it is takes nothing of what the script offers. -/
theorem Script.not_takes_of_holder_place_eq {ds : Script} {h : α}
    (hh : (ds.place settings h).holder = h) :
    ∀ s ∈ ds.offers settings, ¬(shape h).Takes s.component.placement := by
  intro s hs htakes
  rw [Script.holder_place_eq_taken] at hh
  have htaken : s.component ∈ (shape h).taken (ds.offers settings) := by
    refine List.mem_map_of_mem (List.mem_filter.2 ⟨hs, ?_⟩)
    simpa using Shape.refusal?_eq_none_iff_takes.2 htakes
  have hslot := hasSlot_eq_false_of_addAll_eq hh htaken
  exact Bool.false_ne_true (hslot.symm.trans htakes.1)

end

/-- What stops nowhere in a component is offered after all that the block offers without it, once
the component has refused it. -/
theorem Decl.offers_block_append (settings : Settings) (c : Component) (xs : Script) {ys : Script}
    (hys : (ys.place settings c.node).holder = c.node) :
    (Decl.block c (xs ++ ys)).offers settings =
      (Decl.block c xs).offers settings ++
        (ys.offers settings).map ((shape c.node).turnAway settings) := by
  have hnot := Script.not_takes_of_holder_place_eq settings hys
  rw [Decl.offers_block, Decl.offers_block, Script.offers_append, holder_offerAll, holder_offerAll,
    strays_offerAll, strays_offerAll, Shape.taken_append, Shape.taken_eq_nil hnot, List.append_nil,
    Shape.refused_append, Shape.refused_eq_map settings hnot, List.cons_append]

/-- **What a component has no use for may be declared after it.** -/
theorem place_block_append {α : Type} [Holder α] [LawfulHolder α] (settings : Settings) (top : α)
    (c : Component) (xs ys zs : Script) (hys : (ys.place settings c.node).holder = c.node) :
    let inside := Script.place settings ([.block c (xs ++ ys)] ++ zs) top
    let after := Script.place settings ([.block c xs] ++ ys ++ zs) top
    inside.holder = after.holder ∧
      inside.strays.map Stray.component = after.strays.map Stray.component ∧
      ∃ left : List Stray,
        (ys.place settings top).strays = left.map ((shape top).turnAway settings) ∧
        after.strays =
          (Script.place settings [.block c xs] top).strays ++
            left.map ((shape top).turnAway settings) ++ (zs.place settings top).strays ∧
        inside.strays =
          (Script.place settings [.block c xs] top).strays ++
            (left.map ((shape c.node).turnAway settings)).map ((shape top).turnAway settings) ++
            (zs.place settings top).strays := by
  intro inside after
  have hinside : Script.offers settings ([.block c (xs ++ ys)] ++ zs) =
      Script.offers settings [.block c xs] ++
        (ys.offers settings).map ((shape c.node).turnAway settings) ++ zs.offers settings := by
    rw [Script.offers_append, Script.offers_singleton, Script.offers_singleton,
      Decl.offers_block_append settings c xs hys]
  have hafter : Script.offers settings ([.block c xs] ++ ys ++ zs) =
      Script.offers settings [.block c xs] ++ ys.offers settings ++ zs.offers settings := by
    rw [Script.offers_append, Script.offers_append]
  -- of what `ys` offers, the holder leaves over the same, be it refused before or not
  let left := (ys.offers settings).filter fun s => ¬(shape top).Takes s.component.placement
  have hleft : (shape top).refused settings (ys.offers settings) =
      left.map ((shape top).turnAway settings) := Shape.refused_eq_map_turnAway settings _ _
  have hleft' : (shape top).refused settings
      ((ys.offers settings).map ((shape c.node).turnAway settings)) =
      (left.map ((shape c.node).turnAway settings)).map ((shape top).turnAway settings) :=
    Shape.refused_map_turnAway settings _ _ _
  have hstrays : inside.strays = _ ∧ after.strays = _ :=
    ⟨Script.strays_place_eq_refused settings _ top, Script.strays_place_eq_refused settings _ top⟩
  rw [hinside, hafter, Shape.refused_append, Shape.refused_append, Shape.refused_append,
    Shape.refused_append, hleft, hleft', ← Script.strays_place_eq_refused,
    ← Script.strays_place_eq_refused] at hstrays
  refine ⟨?_, ?_, left, ?_, hstrays.2, hstrays.1⟩
  · rw [Script.holder_place_eq_taken, Script.holder_place_eq_taken, hinside, hafter,
      Shape.taken_append, Shape.taken_append, Shape.taken_append, Shape.taken_append,
      Shape.taken_map_turnAway]
  · rw [hstrays.1, hstrays.2]
    simp [Shape.turnAway]
  · rw [Script.strays_place_eq_refused, hleft]

/-- A table of line numbers, a field and a label may as well be declared after a method as in it.
The table and the label have no home either way; declared in the method, they are refused by the
method before they are by the class. -/
theorem place_block_append_method :
    let k := Class.empty "Foo" .empty
    let method := Component.method ⟨"run", none, [], .empty⟩
    let table := Component.attr .lineNumberTable ()
    let xs : Script := [.component (.attr .code (.int 1, .int 1, ()))]
    let ys : Script := [.block table [.component (.entry .lineNumber ("a", .int 1, ())),
      .component (.constant "one" (.int 1) [])], .label "a"]
    let inside := Script.place .usual ([.block method (xs ++ ys)] ++ []) k
    let after := Script.place .usual ([.block method xs] ++ ys ++ []) k
    (ys.place .usual method.node).holder = method.node ∧
      inside.holder = after.holder ∧
      inside.strays.map Stray.component = after.strays.map Stray.component ∧
      inside.strays.map (fun s => s.trail.map Refusal.scope) =
        [[.method, .root], [.method, .root]] ∧
      after.strays.map (fun s => s.trail.map Refusal.scope) = [[.root], [.root]] := by
  intro k method table xs ys inside after
  have hys : (ys.place .usual method.node).holder = method.node := rfl
  obtain ⟨hholder, hcomponents, -⟩ := place_block_append .usual k method xs ys [] hys
  exact ⟨hys, hholder, hcomponents, by decide +kernel, by decide +kernel⟩

end ClassFile
