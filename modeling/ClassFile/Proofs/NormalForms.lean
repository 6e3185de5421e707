/-
**Scripts by their normal forms.**

How a script is written down has no part in what comes of it.  Nothing comes of an empty
declaration, a group is placed as its declarations are, a label given by its name alone is the
component that it stands for, and a stray that was never refused is no more than its component.  All
of this holds at any depth, since the body of a block goes into the component of the block by the
same rules.  So a script and its normal form are placed with the same outcome, trails and events
included, and scripts of one normal form assemble to the same class or fail with the same error.

Main results:

* `Script.normalize_eq_self_iff` — the normal scripts are those that are their own normal form;
* `Script.place_normalize` — **a script is placed as its normal form is**;
* `place_dependsOnNormalForm` — the same for any holder, and for assembling classes.
-/

import ClassFile.Proofs.Trails
import ClassFile.Script.Normal

set_option relaxedAutoImplicit false
set_option autoImplicit false

namespace ClassFile

/-! ### Normal scripts -/

mutual

theorem Decl.normalize_of_isNormal {d : Decl} (h : d.IsNormal) : d.normalize = [d] := by
  cases h with
  | component c => rfl
  | block c hds =>
      rw [Decl.normalize, Script.normalize_of_isNormal hds]
  | stray c r rs => rfl

/-- A normal script has nothing left to spell out. -/
theorem Script.normalize_of_isNormal {ds : Script} (h : Script.IsNormal ds) :
    Script.normalize ds = ds := by
  cases h with
  | nil => rfl
  | cons hd hds =>
      rw [Script.normalize, Decl.normalize_of_isNormal hd, Script.normalize_of_isNormal hds]
      rfl

end

/-- **The normal scripts are those that are their own normal form.** -/
theorem Script.normalize_eq_self_iff (ds : Script) :
    Script.normalize ds = ds ↔ Script.IsNormal ds := by
  constructor
  · intro h
    rw [← h]
    exact Script.isNormal_normalize ds
  · exact Script.normalize_of_isNormal

/-! ### Placing normal forms -/

/-- A script of one declaration is placed as the declaration is. -/
theorem Script.place_singleton (settings : Settings) (d : Decl) {α : Type} [Holder α] (h : α) :
    Script.place settings [d] h = d.place settings h :=
  Outcome.andThen_unchanged _

mutual

theorem Decl.place_normalize (settings : Settings) (d : Decl) {α : Type} [Holder α] (h : α) :
    Script.place settings d.normalize h = d.place settings h := by
  cases d with
  | nothing => rfl
  | label name => exact Script.place_singleton settings (.component (Component.label name)) h
  | component c => exact Script.place_singleton settings (.component c) h
  | stray s =>
      obtain ⟨c, trail⟩ := s
      cases trail with
      | nil => exact Script.place_singleton settings (.component c) h
      | cons r rs => exact Script.place_singleton settings (.stray ⟨c, r :: rs⟩) h
  | group ds => exact Script.place_normalize settings ds h
  | block c ds =>
      -- the normal form of the body puts the same into the component, and leaves over the same
      have hbody := Script.place_normalize settings ds c.node
      rw [Decl.normalize, Script.place_singleton, Decl.place, Decl.place, hbody]
termination_by structural d

/-- **A script is placed as its normal form is**, with the same trails and the same events. -/
theorem Script.place_normalize (settings : Settings) (ds : Script) {α : Type} [Holder α] (h : α) :
    (Script.normalize ds).place settings h = ds.place settings h := by
  cases ds with
  | nil => rfl
  | cons d ds =>
      rw [Script.normalize, Script.place_append, Decl.place_normalize settings d h, Script.place]
      refine congrArg (Outcome.andThen _) ?_
      funext h'
      exact Script.place_normalize settings ds h'
termination_by structural ds

end

/-! ### Assembling -/

/-- Scripts of one normal form are assembled with the same result. -/
theorem Class.result_assemble_of_normalize_eq (settings : Settings)
    (announcement announcement' : Event) (k : Class) {ds es : Script}
    (h : Script.normalize ds = Script.normalize es) :
    (k.assemble settings announcement ds).result =
      (k.assemble settings announcement' es).result := by
  have hplace : ds.place settings k = es.place settings k := by
    rw [← Script.place_normalize settings ds, h, Script.place_normalize]
  rw [Class.result_assemble_eq_ite, Class.result_assemble_eq_ite, hplace]

/-- **The normal form of a script decides what comes of it**: the outcome in any holder, with all
strays, trails and events, and the class or the error that the script is assembled to. -/
theorem place_dependsOnNormalForm (settings : Settings) (ds : Script) :
    Script.IsNormal (Script.normalize ds) ∧
      (∀ {α : Type} [Holder α] (top : α),
        (Script.normalize ds).place settings top = ds.place settings top) ∧
      ∀ (es : Script) (k : Class), Script.normalize ds = Script.normalize es →
        (k.build settings ds).result = (k.build settings es).result ∧
          (k.edit settings ds).result = (k.edit settings es).result := by
  refine ⟨Script.isNormal_normalize ds, Script.place_normalize settings ds, ?_⟩
  intro es k h
  exact ⟨Class.result_assemble_of_normalize_eq settings _ _ k h,
    Class.result_assemble_of_normalize_eq settings _ _ k h⟩

/-- A method with a label and a constant in its code, and a second label that has no home, written
down in two ways.  The normal forms are the same, and so is the error, which lists the label. -/
theorem place_dependsOnNormalForm_twoWays :
    let k := Class.empty "Foo" .empty
    let method := Component.method ⟨"run", none, [], .empty⟩
    let code := Component.attr .code (.int 1, .int 1, ())
    let one := Component.constant "one" (.int 1) []
    let ds : Script := [.nothing,
      .block method [.group [.group [], .block code [.label "a", .group [.stray ⟨one, []⟩]]]],
      .label "b"]
    let es : Script := [.group [
      .block method [.block code [.component (.label "a"), .nothing, .component one]],
      .group [.component (.label "b")]]]
    Script.normalize ds = Script.normalize es ∧
      ((k.build .usual ds).result = (k.build .usual es).result ∧
        (k.edit .usual ds).result = (k.edit .usual es).result) ∧
      (es.place .usual k).strays.map (fun s => (s.component.scope, s.trail)) =
        [(.label, [⟨.root, .missingSlotAndScopeMismatch⟩])] := by
  intro k method code one ds es
  have hnormal : Script.normalize ds = Script.normalize es := rfl
  exact ⟨hnormal, (place_dependsOnNormalForm .usual ds).2.2 es k hnormal, by decide +kernel⟩

end ClassFile
