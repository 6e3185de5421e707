/-
**One component, one holder.**

A holder is read by one look-up and written by another, and it may have several slots of one name.
Both find the first of them, so a component stands where it is looked for, and what it does not ask
for stays as it was: the other slots, those of the same name that no look-up finds, and all that a
holder says of itself.  In particular a holder keeps its verdicts.

Main definitions:

* `GrowsAt` — tables with one component more in the first table of a name;
* `Took` — a holder with one component more, and otherwise as it was;
* `AttachesExactly` — all that may come of offering a component to a holder.

Main results:

* `pushTable?_eq_some_iff` — writing adds to the first table of a name;
* `attachesExactly_attach` — so it is with every lawful holder;
* `attach_exact` — **an offer is exact**, for classes and for nodes of any kind, and filling a
  component keeps its scope.
-/

import ClassFile.Proofs.Filling
import ClassFile.Placing
import ClassFile.Tree.WellPlaced

set_option relaxedAutoImplicit false
set_option autoImplicit false

namespace ClassFile

/-! ### The first table of a name -/

/-- The second tables are the first ones with a component more at the end of the first table for the
slot.  All others are as they were, those of the same name included. -/
def GrowsAt (s : Slot) (c : Component) (tables tables' : Tables) : Prop :=
  ∃ before cs after, tables = before ++ (s, cs) :: after ∧ s ∉ before.map Prod.fst ∧
    tables' = before ++ (s, cs ++ [c]) :: after

theorem growsAt_cons_self {s : Slot} {c : Component} {cs : List Component} {ts tables' : Tables} :
    GrowsAt s c ((s, cs) :: ts) tables' ↔ tables' = (s, cs ++ [c]) :: ts := by
  constructor
  · rintro ⟨before, cs', after, h, hbefore, rfl⟩
    cases before with
    | nil =>
        cases h
        rfl
    | cons t before =>
        obtain ⟨rfl, -⟩ := List.cons.inj h
        simp at hbefore
  · rintro rfl
    exact ⟨[], cs, ts, rfl, List.not_mem_nil, rfl⟩

theorem growsAt_cons_of_ne {s : Slot} {c : Component} {t : Slot × List Component}
    {ts tables' : Tables} (ht : t.1 ≠ s) :
    GrowsAt s c (t :: ts) tables' ↔ ∃ ts', GrowsAt s c ts ts' ∧ tables' = t :: ts' := by
  constructor
  · rintro ⟨before, cs, after, h, hbefore, rfl⟩
    cases before with
    | nil =>
        obtain ⟨rfl, -⟩ := List.cons.inj h
        exact absurd rfl ht
    | cons t' before =>
        obtain ⟨rfl, rfl⟩ := List.cons.inj h
        have hbefore' := mt (List.mem_cons_of_mem t.1) hbefore
        exact ⟨_, ⟨before, cs, after, rfl, hbefore', rfl⟩, rfl⟩
  · rintro ⟨ts', ⟨before, cs, after, rfl, hbefore, rfl⟩, rfl⟩
    refine ⟨t :: before, cs, after, rfl, ?_, rfl⟩
    simp only [List.map_cons, List.mem_cons, not_or]
    exact ⟨Ne.symm ht, hbefore⟩

/-- **Writing adds to the first table of a name**, and needs one. -/
theorem pushTable?_eq_some_iff {tables tables' : Tables} {s : Slot} {c : Component} :
    pushTable? tables s c = some tables' ↔ GrowsAt s c tables tables' := by
  induction tables generalizing tables' with
  | nil => simp [pushTable?, GrowsAt]
  | cons t ts ih =>
      obtain ⟨s', cs⟩ := t
      by_cases hs : s' = s
      · subst hs
        rw [growsAt_cons_self, pushTable?, if_pos rfl, Option.some.injEq, eq_comm]
      · rw [growsAt_cons_of_ne hs, pushTable?, if_neg hs, Option.map_eq_some_iff]
        simp only [ih, eq_comm]

/-! ### Offers -/

/-- The second holder is the first one with a component at the end of the slot that it asks for. -/
structure Took {α : Type} [Holder α] (h : α) (c : Component) (h' : α) : Prop where
  /-- The slot that a look-up finds has what it had, and then the component. -/
  slot : ∃ cs, Holder.slot? h c.placement.slot = some cs ∧
    Holder.slot? h' c.placement.slot = some (cs ++ [c])
  /-- The other slots are as they were. -/
  others : ∀ s, s ≠ c.placement.slot → Holder.slot? h' s = Holder.slot? h s
  /-- The same of all slots, also of those that no look-up finds. -/
  slots : GrowsAt c.placement.slot c (Holder.slots h) (Holder.slots h')
  /-- All else is as it was. -/
  vacated_eq : Holder.vacated h' = Holder.vacated h
  scope_eq : Holder.scope h' = Holder.scope h
  /-- There are just the slots that there were. -/
  hasSlot_eq : ∀ s, hasSlot h' s = hasSlot h s
  /-- The holder keeps its verdict on every component. -/
  refusal?_eq : ∀ p, refusal? h' p = refusal? h p

/-- What may come of offering a component to a holder. -/
structure AttachesExactly {α : Type} [Holder α] (h : α) (c : Component) (a : Attachment α) :
    Prop where
  /-- The component is taken if the holder has the slot that it asks for and is of a scope that it
  may stand in. -/
  residual_eq_none_iff :
    a.residual = none ↔ hasSlot h c.placement.slot = true ∧ Holder.scope h ∈ c.placement.parents
  /-- A component that is taken stands in the holder, which is otherwise as it was. -/
  taken : a.residual = none → Took h c a.holder
  /-- A component that is not taken comes back with the holder as it was, which still has the same
  against it. -/
  refused : a.residual ≠ none → a.residual = some c ∧ a.holder = h ∧
    ∃ reason, refusal? h c.placement = some reason ∧ refusal? a.holder c.placement = some reason
  /-- Where nothing speaks against a component, there is a slot to write it to. -/
  writable : refusal? h c.placement = none → (Holder.push? h c.placement.slot c).isSome = true

section

variable {α : Type} [Holder α] [LawfulHolder α] {h : α} {c : Component}

/-- A holder with nothing against a component takes it. -/
theorem took_add (hr : refusal? h c.placement = none) : Took h c (add h c) := by
  have hslot : (Holder.slot? h c.placement.slot).isSome = true := (refusal?_eq_none_iff.1 hr).1
  obtain ⟨cs, hcs⟩ := Option.isSome_iff_exists.1 hslot
  obtain ⟨h', hp⟩ := Option.isSome_iff_exists.1 ((isSome_push? h c.placement.slot c).trans hslot)
  have hshape := shape_add h c
  refine ⟨⟨cs, hcs, ?_⟩, ?_, ?_, vacated_add h c, congrArg Shape.scope hshape, ?_, ?_⟩
  · rw [slot?_add, if_pos rfl, hcs]
    rfl
  · intro s hs
    rw [slot?_add, if_neg hs]
  · rw [add, hp]
    exact pushTable?_eq_some_iff.1 (pushTable?_slots hp)
  · exact congrFun (congrArg Shape.hasSlot hshape)
  · intro p
    rw [refusal?, refusal?, hshape]

/-- **Every lawful holder attaches exactly.** -/
theorem attachesExactly_attach (h : α) (c : Component) : AttachesExactly h c (attach h c) := by
  have hwritable : refusal? h c.placement = none →
      (Holder.push? h c.placement.slot c).isSome = true := fun hr => by
    rw [isSome_push?]
    exact (refusal?_eq_none_iff.1 hr).1
  cases hr : refusal? h c.placement with
  | none =>
      rw [attach_of_accepted hr]
      exact ⟨iff_of_true rfl (refusal?_eq_none_iff.1 hr), fun _ => took_add hr,
        fun hne => absurd rfl hne, hwritable⟩
  | some reason =>
      have hnot : ¬refusal? h c.placement = none := by simp [hr]
      rw [attach_of_refusal hr]
      exact ⟨iff_of_false (Option.some_ne_none c) (mt refusal?_eq_none_iff.2 hnot),
        fun hnone => absurd hnone (Option.some_ne_none c),
        fun _ => ⟨rfl, rfl, reason, hr, hr⟩, hwritable⟩

end

/-! ### Components around a body -/

/-- Placing a body into a component keeps the scope of its node. -/
theorem Script.scope_place (settings : Settings) (ds : Script) {α : Type} [Holder α]
    [LawfulHolder α] (h : α) : Holder.scope (ds.place settings h).holder = Holder.scope h :=
  congrArg Shape.scope (Script.shape_place settings ds h)

/-- A component that the schema provides says of which scope it is. -/
theorem Component.OfSchema.scope_eq {c : Component} (hc : c.OfSchema) :
    c.placement.scope = c.node.scope := by
  cases hc <;> rfl

/-- **An offer is exact**, to a class and to a node of any kind, and nothing else changes.  So a
component that says of which scope it is, as all do that are made with their placements or by the
schema, still says so after any body was placed into it. -/
theorem attach_exact :
    (∀ (k : Class) (c : Component), AttachesExactly k c (attach k c)) ∧
      (∀ (n : Node) (c : Component), AttachesExactly n c (attach n c)) ∧
      (∀ (settings : Settings) (ds : Script) (slot : Slot) (parents : List Scope) (n : Node),
        (ds.place settings (Component.of slot parents n).node).holder.scope =
          (Component.of slot parents n).placement.scope) ∧
      ∀ (settings : Settings) (ds : Script) (c : Component), c.OfSchema →
        (ds.place settings c.node).holder.scope = c.placement.scope := by
  refine ⟨attachesExactly_attach, attachesExactly_attach, ?_, ?_⟩
  · intro settings ds slot parents n
    exact Script.scope_place settings ds n
  · intro settings ds c hc
    exact (Script.scope_place settings ds c.node).trans hc.scope_eq.symm

/-- Code with a table called like the slot for nested attributes, and with two tables for
instructions: an instruction goes to the first of these, an attribute to the slot for nested
attributes, and a constant is refused. -/
theorem attach_exact_hiddenTables :
    let hidden := Component.attr .deprecated ()
    let second := Component.label "b"
    let code := Node.attr .code [] [] [(.attributes, [hidden]), (.code, []), (.code, [second])]
    let nop := Component.instruction .nop ()
    let synthetic := Component.of .attributes [.code] (Component.attr .synthetic ()).node
    let one := Component.constant "one" (.int 1) []
    (AttachesExactly code nop (attach code nop) ∧
        AttachesExactly code synthetic (attach code synthetic) ∧
        AttachesExactly code one (attach code one)) ∧
      (attach code nop).holder =
        .attr .code [] [] [(.attributes, [hidden]), (.code, [nop]), (.code, [second])] ∧
      (attach code synthetic).holder =
        .attr .code [] [synthetic] [(.attributes, [hidden]), (.code, []), (.code, [second])] ∧
      (attach code one).residual = some one ∧
      (Script.place .usual [.component nop, .label "a"]
        (Component.attr .code (.int 1, .int 1, ())).node).holder.scope = .code := by
  intro hidden second code nop synthetic one
  obtain ⟨-, hnode, -, hschema⟩ := attach_exact
  exact ⟨⟨hnode code nop, hnode code synthetic, hnode code one⟩, rfl, rfl, rfl,
    hschema .usual _ _ (.attr .code _)⟩

end ClassFile
