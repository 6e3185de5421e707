/-
**Strays and their trails.**

What is left over of a script, and what its trails say, by the lexical rule: the strays are the
occurrences that every holder around them refuses, in the order of their declaration, and the
trail of each names these holders one by one, the innermost first.  A class is assembled just if
there is no stray.

Main definitions:

* `Shape.objection` — what a holder of this shape has against a component;
* `Script.unplaced` — the strays of a script by the lexical rule.

Main results:

* `Script.strays_place_eq_unplaced` — placing leaves over just those strays;
* `Class.result_assemble` — a class is assembled if every occurrence has a destination, and the
  error lists the strays otherwise;
* `strays_and_assembly_exact` — both, for holders of any kind and for building and editing.
-/

import ClassFile.Assembly
import ClassFile.Proofs.LexicalRule

set_option relaxedAutoImplicit false
set_option autoImplicit false

namespace ClassFile

/-! ### Objections -/

/-- What a holder of this shape has against a component that it does not take. -/
def Shape.objection (f : Shape) (p : Placement) : Reason :=
  if f.hasSlot p.slot = true then .scopeMismatch
  else if f.scope ∈ p.parents then .missingSlot
  else .missingSlotAndScopeMismatch

/-- A holder that does not take a component refuses it for what it has against it. -/
theorem Shape.refusal?_of_not_takes {f : Shape} {p : Placement} (h : ¬f.Takes p) :
    f.refusal? p = some (f.objection p) := by
  have hscope : f.scope ∈ p.parents ↔ p.accepts f.scope = true := Placement.accepts_iff.symm
  rw [Takes, hscope] at h
  simp only [refusal?, objection, hscope]
  cases hs : f.hasSlot p.slot <;> cases ha : p.accepts f.scope <;> simp_all

/-! ### The strays of a script -/

/-- A component without a home has been refused by each holder around it. -/
theorem Occurrence.refusals_of_homeless {o : Occurrence} (h : o.level? = none) :
    o.refusals = o.chain.map fun f => ⟨f.scope, f.objection o.declared.placement⟩ := by
  -- for any part of the chain, since the walk along it drops one holder after another
  have key : ∀ chain : List Shape, (∀ f ∈ chain, ¬f.Takes o.declared.placement) →
      refusals.refuse o chain =
        chain.map fun f => ⟨f.scope, f.objection o.declared.placement⟩ := by
    intro chain hchain
    induction chain with
    | nil => rfl
    | cons f fs ih =>
        have hf := hchain f List.mem_cons_self
        have hfs := ih fun g hg => hchain g (List.mem_cons_of_mem f hg)
        simp only [refusals.refuse, Shape.refusal?_of_not_takes hf, hfs, List.map_cons]
  exact key o.chain (o.level?_eq_none_iff.1 h)

/-- The strays of a script in a chain of holders: the occurrences that every holder around them
refuses, with what is in them.  The trail of each is the one it came with, and, if trails are
kept, one refusal by each holder around it. -/
def Script.unplaced (settings : Settings) (ds : Script) (chain : List Shape) : List Stray :=
  ((ds.occurrences chain).filter fun o => ∀ f ∈ o.chain, ¬f.Takes o.declared.placement).map
    fun o => ⟨o.final, o.carried ++
      if settings.keepTrails then
        o.chain.map fun f => ⟨f.scope, f.objection o.declared.placement⟩
      else []⟩

/-- **Placing leaves over the strays of the lexical rule.** -/
theorem Script.strays_place_eq_unplaced (settings : Settings) (ds : Script) {α : Type} [Holder α]
    [LawfulHolder α] (h : α) :
    (ds.place settings h).strays = ds.unplaced settings [shape h] := by
  have hhome : homeless (ds.occurrences [shape h]) =
      (ds.occurrences [shape h]).filter fun o => ∀ f ∈ o.chain, ¬f.Takes o.declared.placement := by
    refine List.filter_congr fun o _ => ?_
    exact decide_eq_decide.2 o.level?_eq_none_iff
  rw [Script.strays_place, hhome, Script.unplaced]
  refine List.map_congr_left fun o ho => ?_
  have hnone : o.level? = none :=
    o.level?_eq_none_iff.2 (of_decide_eq_true (List.mem_filter.1 ho).2)
  rw [Occurrence.stray, Occurrence.refusals_of_homeless hnone]

/-- There is no stray just if each occurrence has a holder around it that takes it. -/
theorem Script.unplaced_eq_nil_iff (settings : Settings) (ds : Script) (chain : List Shape) :
    ds.unplaced settings chain = [] ↔
      ∀ o ∈ ds.occurrences chain, ∃ f ∈ o.chain, f.Takes o.declared.placement := by
  rw [Script.unplaced, List.map_eq_nil_iff, List.filter_eq_nil_iff]
  refine forall_congr' fun o => forall_congr' fun _ => ?_
  simp

/-! ### Assembling -/

/-- A class keeps its name, whatever is placed into it. -/
theorem Class.name_place (settings : Settings) (ds : Script) (k : Class) :
    (ds.place settings k).holder.name = k.name :=
  (congrArg Class.name (Script.vacated_place settings ds k) :)

/-- An assembly fails with the strays of the script, and succeeds if there are none. -/
theorem Class.result_assemble_eq_ite (settings : Settings) (announcement : Event) (k : Class)
    (ds : Script) :
    (k.assemble settings announcement ds).result =
      if (ds.place settings k).strays = [] then .ok (ds.place settings k).holder
      else .error ⟨k.name, (ds.place settings k).strays⟩ := by
  rw [Class.assemble, Class.name_place]
  by_cases h : (ds.place settings k).strays = []
  · rw [if_pos h, if_pos (List.isEmpty_iff.2 h)]
  · rw [if_neg h, if_neg (mt List.isEmpty_iff.1 h)]

/-- **A class is assembled in full or not at all**: there is a result if every occurrence has a
holder around it that takes it, and otherwise the error lists the strays. -/
theorem Class.result_assemble (settings : Settings) (announcement : Event) (k : Class)
    (ds : Script) :
    (k.assemble settings announcement ds).result =
      if ∀ o ∈ ds.occurrences [shape k], ∃ f ∈ o.chain, f.Takes o.declared.placement then
        .ok (ds.place settings k).holder
      else .error ⟨k.name, ds.unplaced settings [shape k]⟩ := by
  have hnil := Script.unplaced_eq_nil_iff settings ds [shape k]
  rw [Class.assemble, Script.strays_place_eq_unplaced, Class.name_place]
  by_cases h : ds.unplaced settings [shape k] = []
  · rw [if_pos (hnil.1 h), if_pos (List.isEmpty_iff.2 h)]
  · rw [if_neg (mt hnil.2 h), if_neg (mt List.isEmpty_iff.1 h)]

/-- **The strays and their trails are exact, and decide whether a class is assembled.** -/
theorem strays_and_assembly_exact {α : Type} [Holder α] [LawfulHolder α] (settings : Settings)
    (ds : Script) (top : α) (k : Class) :
    (ds.place settings top).strays = ds.unplaced settings [shape top] ∧
      BodiesFilled (ds.occurrences [shape top]) ∧
      (k.build settings ds).result = (k.edit settings ds).result ∧
      (k.build settings ds).result =
        if ∀ o ∈ ds.occurrences [shape k], ∃ f ∈ o.chain, f.Takes o.declared.placement then
          .ok (ds.place settings k).holder
        else .error ⟨k.name, ds.unplaced settings [shape k]⟩ := by
  have hbuild : ∀ announcement, (k.assemble settings announcement ds).result = _ :=
    fun announcement => Class.result_assemble settings announcement k ds
  refine ⟨Script.strays_place_eq_unplaced settings ds top, Script.bodiesFilled ds _, ?_,
    hbuild _⟩
  exact (hbuild _).trans (hbuild _).symm

/-- A label directly in a method is refused by the method and then by the class. -/
theorem strays_and_assembly_exact_label :
    let k := Class.empty "Foo" .empty
    let ds : Script := [.block (.method ⟨"run", none, [], .empty⟩) [.label "a"]]
    ((ds.place .usual k).strays = ds.unplaced .usual [shape k] ∧
        BodiesFilled (ds.occurrences [shape k]) ∧
        (k.build .usual ds).result = (k.edit .usual ds).result ∧
        (k.build .usual ds).result =
          if ∀ o ∈ ds.occurrences [shape k], ∃ f ∈ o.chain, f.Takes o.declared.placement then
            .ok (ds.place .usual k).holder
          else .error ⟨k.name, ds.unplaced .usual [shape k]⟩) ∧
      ds.unplaced .usual [shape k] =
        [⟨.label "a", [⟨.method, .missingSlotAndScopeMismatch⟩,
          ⟨.root, .missingSlotAndScopeMismatch⟩]⟩] :=
  ⟨strays_and_assembly_exact .usual _ _ _, rfl⟩

end ClassFile
