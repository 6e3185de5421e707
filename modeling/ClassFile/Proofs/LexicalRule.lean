/-
**Placing obeys the lexical rule.**

Placing works from the inside: the body of a block goes into the component of the block, and what
it leaves over is offered to the holder around, one stray after another.  The lexical rule looks
at a script from above: each occurrence goes to the first holder of its chain that takes it.  Both
come to the same, since a holder keeps its shape while it is filled, and since what a body leaves
over is just what found no home in the chain so far.

Main definitions:

* `Shape.taken`, `Shape.refused` — what a holder of some shape takes of some strays, and what it
  hands back;
* `Script.offers` — what a script offers to the holder around it;
* `ObeysLexicalRule` — all that the lexical rule says about a placement.

Main results:

* `holder_offerAll`, `strays_offerAll` — offers one by one, in one go;
* `Script.holder_place`, `Script.strays_place` — **placing in one go**: the holder has in it what
  lands there, and the strays are the occurrences without a home;
* `place_obeysLexicalRule` — every holder of the tree has what it had and what lands in it.
-/

import ClassFile.Proofs.Destination

set_option relaxedAutoImplicit false
set_option autoImplicit false

namespace ClassFile

/-! ### Offers in one go -/

/-- Of some strays, the components that a holder of this shape takes. -/
def Shape.taken (f : Shape) (ss : List Stray) : List Component :=
  (ss.filter fun s => f.refusal? s.component.placement = none).map Stray.component

/-- Of some strays, those that a holder of this shape refuses, each with the refusal at the end of
its trail if trails are kept. -/
def Shape.refused (settings : Settings) (f : Shape) (ss : List Stray) : List Stray :=
  ss.filterMap fun s =>
    (f.refusal? s.component.placement).map fun reason =>
      ⟨s.component, s.trail ++ if settings.keepTrails then [⟨f.scope, reason⟩] else []⟩

theorem Shape.taken_cons (f : Shape) (s : Stray) (ss : List Stray) :
    f.taken (s :: ss) =
      if f.refusal? s.component.placement = none then s.component :: f.taken ss
      else f.taken ss := by
  by_cases hr : f.refusal? s.component.placement = none <;> simp [taken, hr]

theorem Shape.refused_cons (settings : Settings) (f : Shape) (s : Stray) (ss : List Stray) :
    f.refused settings (s :: ss) =
      match f.refusal? s.component.placement with
      | none => f.refused settings ss
      | some reason =>
          ⟨s.component, s.trail ++ if settings.keepTrails then [⟨f.scope, reason⟩] else []⟩ ::
            f.refused settings ss := by
  cases hr : f.refusal? s.component.placement <;> simp [refused, hr]

section

variable {α : Type} [Holder α] [LawfulHolder α] (settings : Settings)

/-- A holder has in it, after some offers, the components that it takes. -/
theorem holder_offerAll (h : α) (ss : List Stray) :
    (offerAll settings h ss).holder = addAll h ((shape h).taken ss) := by
  induction ss generalizing h with
  | nil => rfl
  | cons s ss ih =>
      have hrest : (offerAll settings h (s :: ss)).holder =
          (offerAll settings (offer settings h s).holder ss).holder := rfl
      -- the holder keeps its shape, so its later verdicts are those of the holder as it was
      rw [hrest, ih, shape_offer, Shape.taken_cons, ← refusal?]
      cases hr : refusal? h s.component.placement with
      | none =>
          rw [offer_of_accepted hr, if_pos rfl]
          rfl
      | some reason =>
          rw [offer_of_refusal hr, if_neg (Option.some_ne_none reason)]

/-- Some offers leave over the strays that the holder refuses. -/
theorem strays_offerAll (h : α) (ss : List Stray) :
    (offerAll settings h ss).strays = (shape h).refused settings ss := by
  induction ss generalizing h with
  | nil => rfl
  | cons s ss ih =>
      have hrest : (offerAll settings h (s :: ss)).strays =
          (offer settings h s).strays ++
            (offerAll settings (offer settings h s).holder ss).strays := rfl
      rw [hrest, ih, shape_offer, Shape.refused_cons, ← refusal?]
      cases hr : refusal? h s.component.placement with
      | none =>
          rw [offer_of_accepted hr]
          rfl
      | some reason =>
          rw [offer_of_refusal hr]
          rfl

end

/-! ### One more holder around -/

namespace Occurrence

variable (o : Occurrence)

theorem refuse_enclosed (outer chain : List Shape) :
    refusals.refuse (o.enclosed outer) chain = refusals.refuse o chain := by
  induction chain with
  | nil => rfl
  | cons f fs ih => simp only [refusals.refuse, ih]; rfl

/-- Where all holders of a chain refuse, those further out are asked too. -/
theorem refuse_append {inner : List Shape} (hi : level?.find o inner = none)
    (outer : List Shape) :
    refusals.refuse o (inner ++ outer) =
      refusals.refuse o inner ++ refusals.refuse o outer := by
  induction inner with
  | nil => rfl
  | cons f fs ih =>
      simp only [level?.find] at hi
      split at hi
      · simp at hi
      · next hf =>
          simp only [List.cons_append, refusals.refuse, ih hi]
          cases hr : f.refusal? o.declared.placement with
          | none => simp [hr] at hf
          | some reason => rfl

variable {o} (f : Shape)

theorem level?_enclosed_of_home {n : Nat} (hl : o.level? = some n) :
    (o.enclosed [f]).level? = some (n + 1) := by
  rw [level?_enclosed, hl]
  rfl

theorem level?_enclosed_of_taken (hl : o.level? = none)
    (hr : f.refusal? o.declared.placement = none) : (o.enclosed [f]).level? = some 0 := by
  rw [level?_enclosed, hl]
  simp [level?.find, hr]

theorem level?_enclosed_of_refused (hl : o.level? = none) {reason : Reason}
    (hr : f.refusal? o.declared.placement = some reason) :
    (o.enclosed [f]).level? = none := by
  rw [level?_enclosed, hl]
  simp [level?.find, hr]

/-- One more refusal ends the trail of a component without a home. -/
theorem stray_enclosed_of_refused (settings : Settings) (hl : o.level? = none) {reason : Reason}
    (hr : f.refusal? o.declared.placement = some reason) :
    (o.enclosed [f]).stray settings =
      ⟨o.final, (o.stray settings).trail ++
        if settings.keepTrails then [⟨f.scope, reason⟩] else []⟩ := by
  have hrefusals : (o.enclosed [f]).refusals = o.refusals ++ [⟨f.scope, reason⟩] := by
    rw [refusals, refuse_enclosed]
    refine (refuse_append o hl [f]).trans ?_
    simp [refusals, refusals.refuse, hr]
  rw [stray, stray, hrefusals]
  cases settings.keepTrails <;> simp [enclosed]

end Occurrence

/-- What lands in one more holder around is what it takes of the strays. -/
theorem landedAt_zero_enclosed (settings : Settings) (f : Shape) {os : List Occurrence}
    (hp : ∀ o ∈ os, o.final.placement = o.declared.placement) :
    landedAt 0 (os.map (Occurrence.enclosed [f])) =
      f.taken ((homeless os).map (Occurrence.stray settings)) := by
  induction os with
  | nil => rfl
  | cons o os ih =>
      have hrest := ih fun o' ho' => hp o' (List.mem_cons_of_mem o ho')
      have hplace : (o.stray settings).component.placement = o.declared.placement :=
        hp o List.mem_cons_self
      rw [List.map_cons, landedAt_cons, homeless_cons, hrest]
      cases hl : o.level? with
      | some n => simp [Occurrence.level?_enclosed_of_home f hl]
      | none =>
          -- without a home so far, it is one of the strays that the holder is asked about
          rw [if_pos rfl, List.map_cons, Shape.taken_cons, hplace]
          cases hr : f.refusal? o.declared.placement with
          | none =>
              rw [if_pos (Occurrence.level?_enclosed_of_taken f hl hr), if_pos rfl]
              rfl
          | some reason => simp [Occurrence.level?_enclosed_of_refused f hl hr]

/-- What has no home with one more holder around is what that refuses of the strays. -/
theorem homeless_enclosed (settings : Settings) (f : Shape) {os : List Occurrence}
    (hp : ∀ o ∈ os, o.final.placement = o.declared.placement) :
    (homeless (os.map (Occurrence.enclosed [f]))).map (Occurrence.stray settings) =
      f.refused settings ((homeless os).map (Occurrence.stray settings)) := by
  induction os with
  | nil => rfl
  | cons o os ih =>
      have hrest := ih fun o' ho' => hp o' (List.mem_cons_of_mem o ho')
      have hplace : (o.stray settings).component.placement = o.declared.placement :=
        hp o List.mem_cons_self
      rw [List.map_cons, homeless_cons, homeless_cons]
      cases hl : o.level? with
      | some n => simpa [Occurrence.level?_enclosed_of_home f hl] using hrest
      | none =>
          rw [if_pos rfl, List.map_cons, Shape.refused_cons, hplace]
          cases hr : f.refusal? o.declared.placement with
          | none => simpa [Occurrence.level?_enclosed_of_taken f hl hr] using hrest
          | some reason =>
              rw [if_pos (Occurrence.level?_enclosed_of_refused f hl hr), List.map_cons, hrest,
                Occurrence.stray_enclosed_of_refused f settings hl hr]
              rfl

/-! ### Placing in one go -/

/-- What a declaration offers to the holder around it: the components that have no home inside the
declaration. -/
def Decl.offers (settings : Settings) (d : Decl) : List Stray :=
  (homeless (d.occurrences [])).map (Occurrence.stray settings)

/-- What a script offers to the holder around it: the components that have no home inside the
script. -/
def Script.offers (settings : Settings) (ds : Script) : List Stray :=
  (homeless (ds.occurrences [])).map (Occurrence.stray settings)

theorem Script.offers_cons (settings : Settings) (d : Decl) (ds : Script) :
    Script.offers settings (d :: ds) = d.offers settings ++ Script.offers settings ds := by
  simp [Script.offers, Decl.offers, Script.occurrences, homeless_append]

section

variable {α : Type} [Holder α] [LawfulHolder α] (settings : Settings)

/-- What a holder takes of the offers of a script is what lands in it. -/
theorem Script.taken_offers (ds : Script) (f : Shape) :
    f.taken (ds.offers settings) = landedAt 0 (ds.occurrences [f]) := by
  have hchain := Script.occurrences_append_chain ds [] [f]
  rw [List.nil_append] at hchain
  rw [hchain, landedAt_zero_enclosed settings f fun o ho => Script.placement_final ds ho,
    Script.offers]

/-- What a holder refuses of the offers of a script is what has no home. -/
theorem Script.refused_offers (ds : Script) (f : Shape) :
    f.refused settings (ds.offers settings) =
      (homeless (ds.occurrences [f])).map (Occurrence.stray settings) := by
  have hchain := Script.occurrences_append_chain ds [] [f]
  rw [List.nil_append] at hchain
  rw [hchain, homeless_enclosed settings f fun o ho => Script.placement_final ds ho,
    Script.offers]

end

/-- An occurrence with no holder around it offers itself. -/
theorem homeless_singleton (settings : Settings) (c c' : Component) (trail : List Refusal) :
    (homeless [⟨c, c', trail, []⟩]).map (Occurrence.stray settings) = [⟨c', trail⟩] := by
  have hl : (⟨c, c', trail, []⟩ : Occurrence).level? = none := rfl
  have hrefusals : (⟨c, c', trail, []⟩ : Occurrence).refusals = [] := rfl
  simp [homeless, hl, Occurrence.stray, hrefusals]

theorem Decl.offers_eq_singleton (settings : Settings) {d : Decl} {s : Stray}
    (hd : d.occurrences [] = [⟨s.component, s.component, s.trail, []⟩]) :
    d.offers settings = [s] := by
  rw [Decl.offers, hd]
  exact homeless_singleton settings _ _ _

/-- A block offers its component, with what its body put into it, and then the strays of the
body. -/
theorem Decl.offers_block (settings : Settings) (c : Component) (ds : Script) :
    (Decl.block c ds).offers settings =
      (Component.mk c.placement
          (offerAll settings c.node (ds.offers settings)).holder).unrefused ::
        (offerAll settings c.node (ds.offers settings)).strays := by
  rw [holder_offerAll, strays_offerAll, Script.taken_offers, Script.refused_offers]
  exact congrArg (· ++ _) (homeless_singleton settings c _ [])

mutual

theorem Decl.place_eq_offers (settings : Settings) (d : Decl) {α : Type} [Holder α]
    [LawfulHolder α] (h : α) :
    (d.place settings h).holder = (offerAll settings h (d.offers settings)).holder ∧
      (d.place settings h).strays = (offerAll settings h (d.offers settings)).strays := by
  have hone : ∀ s : Stray, d.occurrences [] = [⟨s.component, s.component, s.trail, []⟩] →
      offerAll settings h (d.offers settings) = offer settings h s := by
    intro s hs
    rw [Decl.offers_eq_singleton settings hs]
    exact Outcome.andThen_unchanged _
  cases d with
  | nothing => exact ⟨rfl, rfl⟩
  | label name =>
      rw [hone (Component.label name).unrefused rfl]
      exact ⟨rfl, rfl⟩
  | component c =>
      rw [hone c.unrefused rfl]
      exact ⟨rfl, rfl⟩
  | stray s =>
      rw [hone s rfl]
      exact ⟨rfl, rfl⟩
  | group ds => exact Script.place_eq_offers settings ds h
  | block c ds =>
      -- the body goes into the component of the block by the same rule
      obtain ⟨hholder, hstrays⟩ := Script.place_eq_offers settings ds c.node
      rw [Decl.offers_block, ← hholder, ← hstrays]
      exact ⟨rfl, rfl⟩
termination_by structural d

/-- Placing a script is offering what has no home inside it. -/
theorem Script.place_eq_offers (settings : Settings) (ds : Script) {α : Type} [Holder α]
    [LawfulHolder α] (h : α) :
    (ds.place settings h).holder = (offerAll settings h (ds.offers settings)).holder ∧
      (ds.place settings h).strays = (offerAll settings h (ds.offers settings)).strays := by
  cases ds with
  | nil => exact ⟨rfl, rfl⟩
  | cons d ds =>
      obtain ⟨hd₁, hd₂⟩ := Decl.place_eq_offers settings d h
      -- the other declarations meet the holder that the first one leaves
      obtain ⟨hds₁, hds₂⟩ := Script.place_eq_offers settings ds (d.place settings h).holder
      rw [hd₁] at hds₁ hds₂
      rw [Script.offers_cons, offerAll_append]
      constructor
      · rw [Script.place, Outcome.andThen, Outcome.andThen, hd₁, hds₁]
      · rw [Script.place, Outcome.andThen, Outcome.andThen, hd₁, hd₂, hds₂]
termination_by structural ds

end

section

variable {α : Type} [Holder α] [LawfulHolder α] (settings : Settings)

/-- **Placing in one go**: the holder has in it what lands there. -/
theorem Script.holder_place (ds : Script) (h : α) :
    (ds.place settings h).holder = addAll h (landedAt 0 (ds.occurrences [shape h])) := by
  rw [(Script.place_eq_offers settings ds h).1, holder_offerAll, Script.taken_offers]

/-- Nothing changes but the slots. -/
theorem Script.vacated_place (ds : Script) (h : α) :
    Holder.vacated (ds.place settings h).holder = Holder.vacated h := by
  rw [Script.holder_place, vacated_addAll]

/-- **Placing in one go**: the strays are the occurrences without a home. -/
theorem Script.strays_place (ds : Script) (h : α) :
    (ds.place settings h).strays =
      (homeless (ds.occurrences [shape h])).map (Occurrence.stray settings) := by
  rw [(Script.place_eq_offers settings ds h).2, strays_offerAll, Script.refused_offers]

end

/-- A stray is an occurrence without a home, as it ends up. -/
theorem Script.exists_of_mem_strays {settings : Settings} {ds : Script} {α : Type} [Holder α]
    [LawfulHolder α] {h : α} {s : Stray} (hs : s ∈ (ds.place settings h).strays) :
    ∃ o ∈ ds.occurrences [shape h], o.level? = none ∧ s.component = o.final := by
  rw [Script.strays_place] at hs
  obtain ⟨o, ho, rfl⟩ := List.mem_map.1 hs
  obtain ⟨ho, hnone⟩ := List.mem_filter.1 ho
  exact ⟨o, ho, of_decide_eq_true hnone, rfl⟩

/-- What lands in the component of a block is what placing the body puts into it, whatever is
around the block. -/
theorem Script.holder_place_node (settings : Settings) (ds : Script) (n : Node)
    (chain : List Shape) :
    (ds.place settings n).holder =
      addAll n (landedAt chain.length (ds.occurrences (shape n :: chain))) := by
  have hchain := Script.occurrences_append_chain ds [shape n] chain
  have hlevel := landedAt_enclosed chain 0 (ds.occurrences [shape n])
  rw [Nat.zero_add, ← hchain] at hlevel
  rw [Script.holder_place, ← hlevel]
  rfl

/-! ### The lexical rule -/

/-- What the lexical rule says about a script that was placed into a holder. -/
structure ObeysLexicalRule {α : Type} [Holder α] (top : α) (ds : Script) (r : Outcome α) :
    Prop where
  /-- The occurrences are the components of the script, in the order of their declaration. -/
  declared : (ds.occurrences [shape top]).map Occurrence.declared = ds.components
  /-- The holder is around all of them. -/
  around : ∀ o ∈ ds.occurrences [shape top], [shape top] <:+ o.chain
  /-- The destination of an occurrence is the first holder around it, from the innermost outwards,
  that has the slot it asks for and is of a scope it may stand in. -/
  destination : ∀ o ∈ ds.occurrences [shape top], ∀ n, o.level? = some n ↔
    ∃ inner f outer, o.chain = inner ++ f :: outer ∧ outer.length = n ∧
      f.Takes o.declared.placement ∧ ∀ g ∈ inner, ¬g.Takes o.declared.placement
  /-- The holder has in it just what has it for its destination. -/
  filled : FilledWith top (landedAt 0 (ds.occurrences [shape top])) r.holder
  /-- The component of each block is around what is declared in the block, and has in it just what
  has it for its destination, wherever the component itself ends up. -/
  bodies : BodiesFilled (ds.occurrences [shape top])
  /-- Nothing else is left over than what has no destination. -/
  strays : r.strays.map Stray.component =
    (homeless (ds.occurrences [shape top])).map Occurrence.final

/-- **Placing obeys the lexical rule.** -/
theorem place_obeysLexicalRule {α : Type} [Holder α] [LawfulHolder α] (settings : Settings)
    (ds : Script) (top : α) : ObeysLexicalRule top ds (ds.place settings top) where
  declared := Script.map_declared_occurrences ds [shape top]
  around _ ho := Script.suffix_chain ds ho
  destination o _ _ := o.level?_eq_some_iff
  filled := by
    rw [Script.holder_place]
    exact filledWith_addAll top _
  bodies := Script.bodiesFilled ds [shape top]
  strays := by
    rw [Script.strays_place, List.map_map]
    rfl

/-- In a method and its code, a label stays in the code, and a constant goes out to the class, as
does the method.  In a table of line numbers that stands in code, a row stays in the table, a label
goes to the code, and a constant has no home. -/
theorem place_obeysLexicalRule_classAndCode :
    let one := Component.constant "one" (.int 1) []
    let code := Component.attr .code (.int 1, .int 1, ())
    let k := Class.empty "Foo" .empty
    let ds : Script := [.block (.method ⟨"run", none, [], .empty⟩)
      [.block code [.label "a", .component one]]]
    let es : Script := [.block (.attr .lineNumberTable ())
      [.component (.entry .lineNumber ("a", .int 1, ())), .label "a", .component one]]
    ObeysLexicalRule k ds (ds.place .usual k) ∧
      (ds.occurrences [shape k]).map Occurrence.level? = [some 0, some 1, some 2, some 0] ∧
      ObeysLexicalRule code.node es (es.place .usual code.node) ∧
      (es.occurrences [shape code.node]).map Occurrence.level? = [some 0, some 1, some 0, none] :=
  ⟨place_obeysLexicalRule .usual _ _, by decide, place_obeysLexicalRule .usual _ _, by decide⟩

end ClassFile
