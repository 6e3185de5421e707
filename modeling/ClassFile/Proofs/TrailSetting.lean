/-
**What it costs to keep no trails.**

The setting decides whether strays keep the trail of their refusals, and nothing else.  Two
placements of one script into one holder, one with trails and one without, go side by side: they
offer the same components to the same holders in the same order, so the holders, the strays and
the events are the same.  What is different is the trails.  Without them a stray has the refusals
that it came with; with them, those of the holders around it come after.

Main definitions:

* `Outcome.SameButTrails`, `Assembly.SameButTrails` — outcomes and assemblies that differ in trails
  at most.

Main results:

* `Script.place_sameButTrails` — **two placements of a script differ in trails at most**;
* `Script.trails_place_bare`, `Script.trails_place_kept` — the trails of the two;
* `place_trailSetting` — all of this for any holder, and for assembling classes.
-/

import ClassFile.Proofs.Trails
import Mathlib.Data.List.Forall2

set_option relaxedAutoImplicit false
set_option autoImplicit false

namespace ClassFile

/-! ### Two placements side by side -/

/-- The outcomes differ in the trails of their strays at most. -/
structure Outcome.SameButTrails {α : Type} (r r' : Outcome α) : Prop where
  holder : r.holder = r'.holder
  components : r.strays.map Stray.component = r'.strays.map Stray.component
  log : r.log = r'.log

theorem Outcome.SameButTrails.refl {α : Type} (r : Outcome α) : r.SameButTrails r :=
  ⟨rfl, rfl, rfl⟩

theorem Outcome.SameButTrails.andThen {α β : Type} {r r' : Outcome α} {next next' : α → Outcome β}
    (hr : r.SameButTrails r') (hnext : ∀ h, (next h).SameButTrails (next' h)) :
    (r.andThen next).SameButTrails (r'.andThen next') := by
  obtain ⟨hholder, hcomponents, hlog⟩ := hnext r.holder
  refine ⟨?_, ?_, ?_⟩
  · rw [Outcome.andThen, Outcome.andThen, ← hr.holder, hholder]
  · rw [Outcome.andThen, Outcome.andThen, ← hr.holder, List.map_append, List.map_append,
      hr.components, hcomponents]
  · rw [Outcome.andThen, Outcome.andThen, ← hr.holder, hr.log, hlog]

section

variable {α : Type} [Holder α] (settings settings' : Settings)

/-- A holder does not look at the trail of what it is offered. -/
theorem offer_sameButTrails (h : α) {s s' : Stray} (hs : s.component = s'.component) :
    (offer settings h s).SameButTrails (offer settings' h s') := by
  rw [offer, offer, ← hs]
  cases (attach h s.component).residual with
  | none => exact .refl _
  | some c => exact ⟨rfl, rfl, rfl⟩

theorem offerAll_sameButTrails (h : α) {ss ss' : List Stray}
    (hs : ss.map Stray.component = ss'.map Stray.component) :
    (offerAll settings h ss).SameButTrails (offerAll settings' h ss') := by
  induction ss generalizing h ss' with
  | nil =>
      obtain rfl := List.map_eq_nil_iff.1 hs.symm
      exact .refl _
  | cons s ss ih =>
      obtain ⟨s', ss', rfl, hs', hss'⟩ := List.map_eq_cons_iff.1 hs.symm
      exact (offer_sameButTrails settings settings' h hs'.symm).andThen fun h' => ih h' hss'.symm

end

/-- The report on what leaves a component only counts it. -/
theorem escapes_eq_of_components {ss ss' : List Stray}
    (hs : ss.map Stray.component = ss'.map Stray.component) (component : Scope) :
    escapes ss component = escapes ss' component := by
  have hlength : ss.length = ss'.length := by
    simpa using congrArg List.length hs
  simp only [escapes, List.isEmpty_iff_length_eq_zero, hlength]

/-- What a block hands to the holder around it is the same but for trails, if what its body leaves
is. -/
theorem Outcome.SameButTrails.blockOffers {r r' : Outcome Node} (hr : r.SameButTrails r')
    (p : Placement) :
    (ClassFile.blockOffers p r).map Stray.component =
      (ClassFile.blockOffers p r').map Stray.component := by
  rw [ClassFile.blockOffers, ClassFile.blockOffers, List.map_cons, List.map_cons, hr.holder,
    hr.components]

mutual

theorem Decl.place_sameButTrails (settings settings' : Settings) (d : Decl) {α : Type} [Holder α]
    (h : α) : (d.place settings h).SameButTrails (d.place settings' h) := by
  cases d with
  | nothing => exact .refl _
  | label name => exact offer_sameButTrails settings settings' h rfl
  | component c => exact offer_sameButTrails settings settings' h rfl
  | stray s => exact offer_sameButTrails settings settings' h rfl
  | group ds => exact Script.place_sameButTrails settings settings' ds h
  | block c ds =>
      -- the two bodies leave the same components, so the holder around is offered the same
      have hbody := Script.place_sameButTrails settings settings' ds c.node
      have haround := offerAll_sameButTrails settings settings' h (hbody.blockOffers c.placement)
      refine ⟨haround.holder, haround.components, ?_⟩
      rw [Decl.place, Decl.place, hbody.log, escapes_eq_of_components hbody.components,
        haround.log]
termination_by structural d

/-- **Two placements of a script into one holder differ in trails at most**, whatever the settings
are. -/
theorem Script.place_sameButTrails (settings settings' : Settings) (ds : Script) {α : Type}
    [Holder α] (h : α) : (ds.place settings h).SameButTrails (ds.place settings' h) := by
  cases ds with
  | nil => exact .refl _
  | cons d ds =>
      refine (Decl.place_sameButTrails settings settings' d h).andThen ?_
      exact fun h' => Script.place_sameButTrails settings settings' ds h'
termination_by structural ds

end

/-! ### The trails -/

section

variable {α : Type} [Holder α] [LawfulHolder α] (ds : Script) (h : α)

/-- Without trails, each stray has the refusals that it came with. -/
theorem Script.trails_place_bare :
    (ds.place ⟨false⟩ h).strays.map Stray.trail =
      (homeless (ds.occurrences [shape h])).map Occurrence.carried := by
  rw [Script.strays_place, List.map_map]
  refine List.map_congr_left fun o _ => ?_
  exact List.append_nil o.carried

/-- With trails, the refusals of the holders around a stray come after those that it came with. -/
theorem Script.trails_place_kept :
    (ds.place ⟨true⟩ h).strays.map Stray.trail =
      (homeless (ds.occurrences [shape h])).map fun o => o.carried ++ o.refusals := by
  rw [Script.strays_place, List.map_map]
  rfl

/-- The trails of a placement that keeps them extend those of one that does not, one by one. -/
theorem Script.trails_place_prefix :
    List.Forall₂ (· <+: ·) ((ds.place ⟨false⟩ h).strays.map Stray.trail)
      ((ds.place ⟨true⟩ h).strays.map Stray.trail) := by
  rw [Script.trails_place_bare, Script.trails_place_kept, List.forall₂_map_left_iff,
    List.forall₂_map_right_iff, List.forall₂_same]
  exact fun o _ => List.prefix_append o.carried o.refusals

end

/-! ### Assembling -/

/-- The assemblies differ in trails at most: they succeed with the same class, or fail with errors
that name the same class and list the same components; and the events on the way are the same. -/
inductive Assembly.SameButTrails : Assembly → Assembly → Prop
  | ok (k : Class) (log : List Event) : Assembly.SameButTrails ⟨.ok k, log⟩ ⟨.ok k, log⟩
  | error (name : String) {ss ss' : List Stray}
      (components : ss.map Stray.component = ss'.map Stray.component) (log : List Event) :
      Assembly.SameButTrails ⟨.error ⟨name, ss⟩, log⟩ ⟨.error ⟨name, ss'⟩, log⟩

/-- **Two assemblies of a script differ in trails at most.** -/
theorem Class.assemble_sameButTrails (settings settings' : Settings) (announcement : Event)
    (k : Class) (ds : Script) :
    (k.assemble settings announcement ds).SameButTrails
      (k.assemble settings' announcement ds) := by
  obtain ⟨hholder, hcomponents, hlog⟩ := Script.place_sameButTrails settings settings' ds k
  have hempty : (ds.place settings k).strays.isEmpty = (ds.place settings' k).strays.isEmpty := by
    simpa using congrArg List.isEmpty hcomponents
  rw [Class.assemble, Class.assemble, hempty, hholder, hlog]
  split
  · exact .ok _ _
  · exact .error _ hcomponents _

/-- **Whether trails are kept shows in the trails and nowhere else.** -/
theorem place_trailSetting {α : Type} [Holder α] [LawfulHolder α] (ds : Script) (top : α)
    (k : Class) :
    (ds.place ⟨true⟩ top).SameButTrails (ds.place ⟨false⟩ top) ∧
      (ds.place ⟨false⟩ top).strays.map Stray.trail =
        (homeless (ds.occurrences [shape top])).map Occurrence.carried ∧
      List.Forall₂ (· <+: ·) ((ds.place ⟨false⟩ top).strays.map Stray.trail)
        ((ds.place ⟨true⟩ top).strays.map Stray.trail) ∧
      (k.build ⟨true⟩ ds).SameButTrails (k.build ⟨false⟩ ds) ∧
      (k.edit ⟨true⟩ ds).SameButTrails (k.edit ⟨false⟩ ds) := by
  refine ⟨Script.place_sameButTrails _ _ ds top, Script.trails_place_bare ds top,
    Script.trails_place_prefix ds top, ?_, ?_⟩
  · exact Class.assemble_sameButTrails _ _ _ k ds
  · exact Class.assemble_sameButTrails _ _ _ k ds

/-- A label that a field has refused already is declared in a method, next to one that is new.  The
class has neither: the one keeps what it came with, and the other has no trail, unless trails are
kept. -/
theorem place_trailSetting_refusedBefore :
    let k := Class.empty "Foo" .empty
    let ds : Script := [.block (.method ⟨"run", none, [], .empty⟩)
      [.stray ⟨.label "a", [⟨.field, .missingSlotAndScopeMismatch⟩]⟩, .label "b"]]
    ((ds.place ⟨true⟩ k).SameButTrails (ds.place ⟨false⟩ k) ∧
        (k.build ⟨true⟩ ds).SameButTrails (k.build ⟨false⟩ ds)) ∧
      (ds.place ⟨false⟩ k).strays =
        [⟨.label "a", [⟨.field, .missingSlotAndScopeMismatch⟩]⟩, ⟨.label "b", []⟩] ∧
      (ds.place ⟨true⟩ k).strays.map (fun s => s.trail.map Refusal.scope) =
        [[.field, .method, .root], [.method, .root]] := by
  intro k ds
  obtain ⟨hplace, -, -, hbuild, -⟩ := place_trailSetting ds k k
  exact ⟨⟨hplace, hbuild⟩, rfl, rfl⟩

end ClassFile
