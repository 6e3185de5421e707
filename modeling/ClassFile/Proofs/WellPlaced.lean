/-
**Well-placed trees stay well placed.**

A component is taken only by a holder that has the slot it asks for and that it may stand in, so
whatever goes into a well-placed tree stands where its placement says.  What a component says of
itself stays true as well: filling a node never changes its scope.  The placements themselves are
arbitrary; they need not be those of the schema.

Main definitions:

* `Component.Sound` — a component that names its own scope, with a well-placed tree below it.

Main results:

* `kept_wellPlaced` — placing keeps trees well placed, and components sound;
* `place_and_session_wellPlaced` — so does a whole script, and so do all steps of a session.
-/

import ClassFile.Proofs.Kept
import ClassFile.Tree.WellPlaced

set_option relaxedAutoImplicit false
set_option autoImplicit false

namespace ClassFile

/-- The component says of which scope it is, and all below it stands where it may. -/
structure Component.Sound (c : Component) : Prop where
  scope_eq : c.placement.scope = c.node.scope
  wellPlaced : c.node.WellPlaced

theorem Component.sound_of {n : Node} (hn : n.WellPlaced) (slot : Slot) (parents : List Scope) :
    (Component.of slot parents n).Sound :=
  ⟨rfl, hn⟩

theorem Vacant.wellPlaced {α : Type} [Holder α] {h : α} (hh : Vacant h) : WellPlaced h :=
  fun _ ht c hc => absurd hc (hh.not_mem ht c)

/-- A well-placed holder that takes a sound component is well placed. -/
theorem WellPlaced.add {α : Type} [Holder α] [LawfulHolder α] {h : α} {c : Component}
    (hw : WellPlaced h) (hc : c.Sound) (hr : refusal? h c.placement = none) :
    WellPlaced (add h c) := by
  have hscope : Holder.scope (ClassFile.add h c) = Holder.scope h := scope_addAll h [c]
  have hparent : Holder.scope h ∈ c.placement.parents := (refusal?_eq_none_iff.1 hr).2
  rw [WellPlaced, hscope]
  exact forall_mem_slots_add
    (R := fun s c' => Fits (Holder.scope h) s c' ∧ c'.node.WellPlaced) hw
    ⟨⟨rfl, hparent, hc.scope_eq⟩, hc.wellPlaced⟩

/-- **Placing keeps trees well placed and components sound.** -/
theorem kept_wellPlaced : Kept WellPlaced Component.Sound where
  add := WellPlaced.add
  opened hc := Node.wellPlaced_iff.1 hc.wellPlaced
  closed hc hn hscope := ⟨hc.scope_eq.trans hscope.symm, Node.wellPlaced_iff.2 hn⟩

/-- **A script of sound components, placed into a well-placed holder, leaves the holder well placed
and only sound strays; and so it is in every session that starts with an empty class.** -/
theorem place_and_session_wellPlaced :
    (∀ {α : Type} [Holder α] [LawfulHolder α] (settings : Settings) (ds : Script) (top : α),
      WellPlaced top → (∀ c ∈ ds.components, c.Sound) →
        WellPlaced (ds.place settings top).holder ∧
          ∀ s ∈ (ds.place settings top).strays, s.component.Sound) ∧
    ∀ (name : String) (flags : AccessFlags .classes) (steps : List Step),
      (∀ step ∈ steps, ∀ c ∈ step.components, c.Sound) →
        WellPlaced ((Session.start (.empty name flags)).after steps).root ∧
          ∀ s ∈ ((Session.start (.empty name flags)).after steps).strays, s.component.Sound := by
  constructor
  · intro α _ _ settings ds top htop hds
    have h := kept_wellPlaced.place_script settings ds htop hds
    exact ⟨h.holder, h.strays⟩
  · intro name flags steps hsteps
    have hstart : (Session.start (.empty name flags)).Has WellPlaced Component.Sound :=
      Session.has_start (Class.vacant_empty name flags).wellPlaced
    have h := kept_wellPlaced.after hstart hsteps
    exact ⟨h.root, h.strays⟩

/-- An attribute that may stand in a class only, declared in a method: it moves out to the class,
and all is well placed, in one placement and in a session. -/
theorem place_and_session_wellPlaced_classOnly :
    let k := Class.empty "Foo" .empty
    let only := Component.of .attributes [.root] (Component.attr .deprecated ()).node
    let ds : Script := [.block (.method ⟨"run", none, [], .empty⟩) [.component only]]
    (WellPlaced k ∧ ∀ c ∈ ds.components, c.Sound) ∧
      WellPlaced (ds.place .usual k).holder ∧
      (ds.place .usual k).holder.attributes = [only] ∧
      WellPlaced ((Session.start k).after [.place .usual ds, .retry .usual]).root := by
  intro k only ds
  have hk : WellPlaced k := (Class.vacant_empty _ _).wellPlaced
  have hds : ∀ c ∈ ds.components, c.Sound := by
    intro c hc
    rcases List.mem_cons.1 hc with rfl | hc
    · exact Component.sound_of (Node.wellPlaced_iff.2 (Vacant.wellPlaced (by decide))) _ _
    · obtain rfl := List.mem_singleton.1 hc
      exact Component.sound_of (Node.wellPlaced_iff.2 (Vacant.wellPlaced (by decide))) _ _
  have hsteps : ∀ step ∈ [Step.place .usual ds, .retry .usual], ∀ c ∈ step.components, c.Sound := by
    intro step hstep
    rcases List.mem_cons.1 hstep with rfl | hstep
    · exact hds
    · obtain rfl := List.mem_singleton.1 hstep
      simp [Step.components]
  exact ⟨⟨hk, hds⟩, (place_and_session_wellPlaced.1 .usual ds k hk hds).1, rfl,
    (place_and_session_wellPlaced.2 "Foo" .empty _ hsteps).1⟩

end ClassFile
