/-
**Nothing is lost, and nothing is doubled.**

While a script is placed, components are taken apart, filled and put together again, and what finds
no home is offered once more at every level.  All of them are accounted for.  The components in the
holder and in the strays, at any depth, are those that were in the holder and in the script, each as
often.  An occurrence with a destination is attached once, one without is left over once, and the
log says so: it has the answer of every holder that an occurrence was offered to, and a note for
every block whose body leaves something over.

Main definitions:

* `Outcome.components` — the components in a holder and in what was left over, at any depth;
* `censusBelow` — the components below some components;
* `housed` — the occurrences with a destination;
* `Conserves` — what becomes of components, and how it is reported.

Main results:

* `census_add` — a holder with one component more;
* `Outcome.components_andThen` — one placement after another keeps what each of them keeps;
* `Script.components_place` — **placing keeps all components at any depth**;
* `Script.censusBelow_place` — those that are attached are the occurrences with a destination;
* `place_conserves` — **every occurrence is attached once or left over once**, and each offer is
  reported once.
-/

import Mathlib.Algebra.Ring.Nat
import Mathlib.Data.List.Perm.Basic
import ClassFile.Proofs.Reported
import ClassFile.Tree.Census

set_option relaxedAutoImplicit false
set_option autoImplicit false

namespace ClassFile

open scoped List

/-! ### One component more -/

theorem censusTables_pushTable? {tables tables' : Tables} {s : Slot} {c : Component}
    (h : pushTable? tables s c = some tables') :
    censusTables tables' ~ censusTables tables ++ c.census := by
  induction tables generalizing tables' with
  | nil => simp [pushTable?] at h
  | cons t ts ih =>
      obtain ⟨s', cs⟩ := t
      simp only [pushTable?] at h
      split at h
      · obtain rfl := Option.some.inj h
        simp only [censusTables, censusAll_append, censusAll, List.append_nil, List.append_assoc]
        exact List.perm_append_comm.append_left _
      · obtain ⟨ts', hts', rfl⟩ := Option.map_eq_some_iff.1 h
        simp only [censusTables, List.append_assoc]
        exact (ih hts').append_left _

/-- A holder that takes a component has in it what it had, the component, and what is below that. -/
theorem census_add {α : Type} [Holder α] [LawfulHolder α] {h : α} {c : Component}
    (hr : refusal? h c.placement = none) :
    census (add h c) ~ census h ++ c.census := by
  have hslot := (refusal?_eq_none_iff.1 hr).1
  rw [← isSome_push? h c.placement.slot c] at hslot
  obtain ⟨h', hp⟩ := Option.isSome_iff_exists.1 hslot
  rw [add, hp]
  exact censusTables_pushTable? (pushTable?_slots hp)

/-! ### Outcomes -/

/-- The components in the holder and in what was left over, at any depth. -/
def Outcome.components {α : Type} [Holder α] (r : Outcome α) : List Component :=
  census r.holder ++ censusAll (r.strays.map Stray.component)

/-- What each of two placements brings in is there after both of them. -/
theorem Outcome.components_andThen {α : Type} [Holder α] {h : α} {r : Outcome α}
    {next : α → Outcome α} {xs ys : List Component}
    (hr : r.components ~ census h ++ xs)
    (hnext : (next r.holder).components ~ census r.holder ++ ys) :
    (r.andThen next).components ~ census h ++ (xs ++ ys) := by
  have hboth : (r.andThen next).components =
      census (next r.holder).holder ++ (censusAll (r.strays.map Stray.component) ++
        censusAll ((next r.holder).strays.map Stray.component)) := by
    simp only [components, andThen, List.map_append, censusAll_append]
  rw [hboth]
  calc census (next r.holder).holder ++ (censusAll (r.strays.map Stray.component) ++
        censusAll ((next r.holder).strays.map Stray.component))
      -- the strays of the first placement are no concern of the second
      ~ censusAll (r.strays.map Stray.component) ++ (next r.holder).components :=
        List.perm_append_comm_assoc _ _ _
    _ ~ censusAll (r.strays.map Stray.component) ++ (census r.holder ++ ys) :=
        hnext.append_left _
    _ ~ r.components ++ ys := by
        rw [components, ← List.append_assoc]
        exact List.perm_append_comm.append_right ys
    _ ~ census h ++ (xs ++ ys) := by
        rw [← List.append_assoc]
        exact hr.append_right ys

section

variable {α : Type} [Holder α] [LawfulHolder α] (settings : Settings)

/-- A component that is offered is in the holder or left over. -/
theorem components_offer (h : α) (s : Stray) :
    (offer settings h s).components ~ census h ++ s.component.census := by
  cases hr : refusal? h s.component.placement with
  | none =>
      rw [offer_of_accepted hr]
      simpa [Outcome.components, censusAll] using census_add hr
  | some reason =>
      rw [offer_of_refusal hr]
      simp [Outcome.components, censusAll]

theorem components_offerAll (h : α) (ss : List Stray) :
    (offerAll settings h ss).components ~ census h ++ censusAll (ss.map Stray.component) := by
  induction ss generalizing h with
  | nil => exact List.Perm.refl _
  | cons s ss ih => exact Outcome.components_andThen (components_offer settings h s) (ih _)

/-- A component that was filled by a placement is as it was, but for what is below it. -/
theorem Script.census_filled (ds : Script) (c : Component) :
    (Component.mk c.placement (ds.place settings c.node).holder).census =
      c.bare :: census (ds.place settings c.node).holder := by
  have hbare : (Component.mk c.placement (ds.place settings c.node).holder).bare = c.bare :=
    congrArg (Component.mk c.placement) (Script.vacated_place settings ds c.node)
  rw [Component.census_eq, hbare, Node.census_eq]

end

mutual

theorem Decl.components_place (settings : Settings) (d : Decl) {α : Type} [Holder α]
    [LawfulHolder α] (h : α) :
    (d.place settings h).components ~ census h ++ censusAll d.components := by
  have hone : ∀ s : Stray,
      (offer settings h s).components ~ census h ++ censusAll [s.component] := by
    intro s
    simpa [censusAll] using components_offer settings h s
  cases d with
  | nothing => exact List.Perm.refl _
  | label name => exact hone (Component.label name).unrefused
  | component c => exact hone c.unrefused
  | stray s => exact hone s
  | group ds => exact Script.components_place settings ds h
  | block c ds =>
      have hbody := Script.components_place settings ds c.node
      have hoffers := components_offerAll settings h
        (blockOffers c.placement (Script.place settings ds c.node))
      refine hoffers.trans (List.Perm.append_left _ ?_)
      -- the component of the block comes with what its body put into it
      calc censusAll ((blockOffers c.placement (Script.place settings ds c.node)).map
              Stray.component)
          = c.bare :: (Script.place settings ds c.node).components := by
            exact congrArg (· ++ _) (Script.census_filled settings ds c)
        _ ~ c.bare :: (census c.node ++ censusAll (Script.components ds)) := hbody.cons _
        _ = censusAll (c :: Script.components ds) := by
            rw [censusAll, Component.census_eq, Node.census_eq, List.cons_append]
termination_by structural d

/-- **Placing keeps all components at any depth**: in the holder and in the strays, there are those
that were in the holder and those of the script. -/
theorem Script.components_place (settings : Settings) (ds : Script) {α : Type} [Holder α]
    [LawfulHolder α] (h : α) :
    (ds.place settings h).components ~ census h ++ censusAll ds.components := by
  cases ds with
  | nil => exact List.Perm.refl _
  | cons d ds =>
      rw [Script.components, censusAll_append]
      exact Outcome.components_andThen (Decl.components_place settings d h)
        (Script.components_place settings ds _)
termination_by structural ds

end

/-! ### Occurrences -/

/-- The occurrences with a destination, in order. -/
def housed (os : List Occurrence) : List Occurrence :=
  os.filter fun o => o.level? ≠ none

theorem homeless_append_housed (os : List Occurrence) : homeless os ++ housed os ~ os := by
  simpa [homeless, housed] using os.filter_append_perm fun o => decide (o.level? = none)

/-- An occurrence ends up as it was declared, but for what is below it. -/
theorem Script.bare_final (ds : Script) {chain : List Shape} {o : Occurrence}
    (ho : o ∈ ds.occurrences chain) : o.final.bare = o.declared.bare := by
  obtain ⟨before, after, h⟩ := List.append_of_mem ho
  obtain ⟨-, hplacement, hfilled⟩ := Script.bodiesFilled ds chain o after ⟨before, h.symm⟩
  rw [Component.bare, Component.bare, Component.mk.injEq]
  exact ⟨hplacement, hfilled.vacated_eq⟩

/-- All components below some components. -/
def censusBelow (cs : List Component) : List Component :=
  cs.flatMap fun c => census c.node

theorem censusAll_perm (cs : List Component) :
    censusAll cs ~ cs.map Component.bare ++ censusBelow cs := by
  have hflat : censusAll cs = cs.flatMap fun c => c.bare :: census c.node := by
    induction cs with
    | nil => rfl
    | cons c cs ih => rw [censusAll, ih, Component.census_eq, Node.census_eq, List.flatMap_cons]
  rw [hflat]
  exact (List.map_append_flatMap_perm cs Component.bare fun c => census c.node).symm

/-- A part that is on both sides is taken away. -/
theorem append_perm_of_append_append_perm {α : Type} {as bs cs ds es fs gs : List α}
    (h : as ++ (cs ++ ds) ~ bs ++ (es ++ fs)) (hes : es ~ cs ++ gs) :
    as ++ ds ~ bs ++ fs ++ gs := by
  rw [← List.perm_append_left_iff cs]
  calc cs ++ (as ++ ds)
      ~ as ++ (cs ++ ds) := List.perm_append_comm_assoc _ _ _
    _ ~ bs ++ (es ++ fs) := h
    _ ~ bs ++ (fs ++ (cs ++ gs)) :=
        (List.perm_append_comm.trans (hes.append_left fs)).append_left bs
    _ ~ cs ++ (bs ++ fs ++ gs) := by
        rw [← List.append_assoc]
        exact List.perm_append_comm_assoc _ _ _

section

variable {α : Type} [Holder α] [LawfulHolder α] (settings : Settings)

/-- What is left over are the occurrences without a destination. -/
theorem Script.map_bare_strays (ds : Script) (h : α) :
    ((ds.place settings h).strays.map Stray.component).map Component.bare =
      (homeless (ds.occurrences [shape h])).map fun o => o.declared.bare := by
  rw [Script.strays_place, List.map_map, List.map_map]
  exact List.map_congr_left fun o ho => Script.bare_final ds (List.mem_filter.1 ho).1

/-- What is below the holder or a stray was so before, or is an occurrence with a destination. -/
theorem Script.censusBelow_place (ds : Script) (h : α) :
    census (ds.place settings h).holder ++
        censusBelow ((ds.place settings h).strays.map Stray.component) ~
      census h ++ censusBelow ds.components ++
        (housed (ds.occurrences [shape h])).map fun o => o.declared.bare := by
  have hdeclared : ds.components.map Component.bare ~
      ((ds.place settings h).strays.map Stray.component).map Component.bare ++
        (housed (ds.occurrences [shape h])).map fun o => o.declared.bare := by
    have hos := homeless_append_housed (ds.occurrences [shape h])
    rw [Script.map_bare_strays, ← Script.map_declared_occurrences ds [shape h], List.map_map,
      ← List.map_append]
    exact (hos.map _).symm
  have hall := Script.components_place settings ds h
  have hsplit := ((censusAll_perm _).symm.append_left _).trans
    (hall.trans ((censusAll_perm ds.components).append_left _))
  exact append_perm_of_append_append_perm hsplit hdeclared

end

/-! ### Conservation -/

/-- Of some occurrences, those with a destination are reported as attached. -/
theorem countP_isAttached_flatMap_reports (os : List Occurrence) :
    (os.flatMap Occurrence.reports).countP Event.isAttached = (housed os).length := by
  induction os with
  | nil => rfl
  | cons o os ih =>
      rw [List.flatMap_cons, List.countP_append, ih, Occurrence.countP_isAttached_reports]
      by_cases hl : o.level? = none
      · simp [housed, hl]
      · simp [housed, hl, Nat.add_comm]

theorem countP_isRejected_flatMap_reports (os : List Occurrence) :
    (os.flatMap Occurrence.reports).countP Event.isRejected =
      (os.map fun o => o.preceding.length).sum := by
  rw [List.countP_flatMap]
  exact congrArg List.sum (List.map_congr_left fun o _ => Occurrence.countP_isRejected_reports)

theorem flatMap_escapes {β : Type} (strays : β → List Stray) (scope : β → Scope) (bs : List β) :
    bs.flatMap (fun b => escapes (strays b) (scope b)) =
      (bs.filter fun b => !(strays b).isEmpty).map fun b =>
        .escaped (strays b).length (scope b) := by
  induction bs with
  | nil => rfl
  | cons b bs ih =>
      rw [List.flatMap_cons, ih, escapes, List.filter_cons]
      cases (strays b).isEmpty <;> rfl

/-- What becomes of the components of a holder and of a script that was placed into it, and what is
reported of it. -/
structure Conserves {α : Type} [Holder α] (settings : Settings) (top : α) (ds : Script)
    (r : Outcome α) : Prop where
  /-- The components in the holder and in what was left over, at any depth, are those that were in
  the holder and in the script. -/
  kept : census r.holder ++ censusAll (r.strays.map Stray.component) ~
    census top ++ censusAll ds.components
  /-- Those of the script that have a destination are attached, each once. -/
  attached : census r.holder ++ censusBelow (r.strays.map Stray.component) ~
    census top ++ censusBelow ds.components ++
      (housed (ds.occurrences [shape top])).map fun o => o.declared.bare
  /-- The others are left over, each once. -/
  leftOver : (r.strays.map Stray.component).map Component.bare =
    (homeless (ds.occurrences [shape top])).map fun o => o.declared.bare
  /-- There are no others. -/
  declared : (ds.occurrences [shape top]).map Occurrence.declared = ds.components
  /-- The trace has the answers of the holders that the occurrences were offered to. -/
  trace : atLevel .trace r.log ~ (ds.occurrences [shape top]).flatMap Occurrence.reports
  /-- An occurrence is offered to the holders of its chain from the innermost outwards, once to
  each.  Those before its destination refuse it, and it is attached once, if it has a
  destination. -/
  once : ∀ o ∈ ds.occurrences [shape top], o.asked <+: o.chain ∧
    o.reports.countP Event.isRejected = o.preceding.length ∧
    o.reports.countP Event.isAttached = if o.level? = none then 0 else 1
  /-- So many components are reported as attached as are not left over. -/
  attachedCount : (atLevel .trace r.log).countP Event.isAttached + r.strays.length =
    ds.components.length
  /-- So many refusals are reported as there are holders before the destinations. -/
  rejectedCount : (atLevel .trace r.log).countP Event.isRejected =
    ((ds.occurrences [shape top]).map fun o => o.preceding.length).sum
  /-- There is a note for each block whose body leaves something over, and it says how much. -/
  notes : atLevel .debug r.log =
    (ds.blocks.filter fun b => !(b.2.place settings b.1.node).strays.isEmpty).map fun b =>
      .escaped (b.2.place settings b.1.node).strays.length b.1.scope

/-- **Every occurrence is attached once or left over once**, nothing else is gained or lost, and the
log has the answer to each offer once. -/
theorem place_conserves {α : Type} [Holder α] [LawfulHolder α] (settings : Settings) (ds : Script)
    (top : α) : Conserves settings top ds (ds.place settings top) where
  kept := Script.components_place settings ds top
  attached := Script.censusBelow_place settings ds top
  leftOver := Script.map_bare_strays settings ds top
  declared := Script.map_declared_occurrences ds [shape top]
  trace := Script.trace_log_place settings ds top
  once o _ := ⟨o.asked_prefix, Occurrence.countP_isRejected_reports,
    Occurrence.countP_isAttached_reports⟩
  attachedCount := by
    have hstrays : (ds.place settings top).strays.length =
        (homeless (ds.occurrences [shape top])).length := by
      rw [Script.strays_place, List.length_map]
    have hsplit := (homeless_append_housed (ds.occurrences [shape top])).length_eq
    rw [(Script.trace_log_place settings ds top).countP_eq, countP_isAttached_flatMap_reports,
      hstrays, ← Script.map_declared_occurrences ds [shape top], List.length_map, ← hsplit,
      List.length_append, Nat.add_comm]
  rejectedCount := by
    rw [(Script.trace_log_place settings ds top).countP_eq, countP_isRejected_flatMap_reports]
  notes := by
    rw [Script.debug_log_place]
    exact flatMap_escapes _ _ _

/-- A method with code inside, placed into a class.  In the code there are a label, which stays
there, a constant, which goes to the class, and a row that was left over before and is left over
again.  A field comes with an attribute in it. -/
theorem place_conserves_methodAndField :
    let k := Class.empty "Foo" .empty
    let row : Stray :=
      ⟨.entry .lineNumber ("a", .int 1, ()), [⟨.root, .missingSlotAndScopeMismatch⟩]⟩
    let field : Component := .usual (.field ⟨"count", .base .int, .empty⟩ [.attr .deprecated ()])
    let code : Decl := .block (.attr .code (.int 1, .int 1, ()))
      [.label "a", .component (.constant "one" (.int 1) []), .stray row]
    let ds : Script := [.block (.method ⟨"run", none, [], .empty⟩) [code], .component field]
    Conserves .usual k ds (ds.place .usual k) ∧
      (ds.occurrences [shape k]).map Occurrence.level? =
        [some 0, some 1, some 2, some 0, none, some 0] ∧
      (ds.occurrences [shape k]).map (fun o => o.preceding.length) = [0, 0, 0, 2, 3, 0] ∧
      atLevel .debug (ds.place .usual k).log = [.escaped 2 (.attr .code), .escaped 2 .method] := by
  intro k row field code ds
  exact ⟨place_conserves .usual ds k, by decide, by decide, by decide⟩

end ClassFile
