/-
**Properties that placing keeps.**

A property of holders goes along with a property of components: a holder with the first that takes
a component with the second has the first again, and a component with the second may be opened,
filled and closed.  Whatever has this form is kept by every placement, and by every step of a
session, so the induction over scripts and steps is done here once and for all.

Main definitions:

* `Vacant` — a holder with nothing in its slots;
* `Kept` — what has to be checked of such a pair of properties;
* `Outcome.Has`, `Session.Has` — the holder has the first, and all strays have the second;
* `KeptByFilling` — a property that a component keeps when it is filled;
* `Step.components` — the components that a step of a session brings in.

Main results:

* `forall_mem_slots_add` — what holds of all that is in a holder after one component was added;
* `Kept.place_script` — **what holds of a script and of a holder holds of what comes of placing
  it**;
* `KeptByFilling.final_script`, `KeptByFilling.strays` — what filling keeps holds of components as
  they end up, and of what is left over;
* `Kept.perform`, `Kept.after` — the same for one step of a session and for all of them.
-/

import ClassFile.Proofs.LexicalRule
import ClassFile.Session

set_option relaxedAutoImplicit false
set_option autoImplicit false

namespace ClassFile

/-! ### What is in the slots of a holder -/

/-- What is in grown tables was there before, or is new. -/
theorem mem_growTables {more : Slot → List Component} {tables : Tables}
    {t : Slot × List Component} (ht : t ∈ growTables more tables) {c : Component}
    (hc : c ∈ t.2) : (∃ t' ∈ tables, t'.1 = t.1 ∧ c ∈ t'.2) ∨ c ∈ more t.1 := by
  induction tables generalizing more with
  | nil => simp [growTables] at ht
  | cons t₀ ts ih =>
      rcases List.mem_cons.1 ht with rfl | ht
      · rcases List.mem_append.1 hc with hc | hc
        · exact Or.inl ⟨t₀, List.mem_cons_self, rfl, hc⟩
        · exact Or.inr hc
      · rcases ih ht with ⟨t', ht', heq, hc'⟩ | hc'
        · exact Or.inl ⟨t', List.mem_cons_of_mem t₀ ht', heq, hc'⟩
        · by_cases hs : t.1 = t₀.1
          -- a slot of this name came before and took it all
          · simp [hs] at hc'
          · exact Or.inr (by simpa [hs] using hc')

/-- What is in a holder after one component was added was in the same slot before, or is that
component in the slot it asks for. -/
theorem mem_slots_add {α : Type} [Holder α] [LawfulHolder α] {h : α} {c : Component}
    {t : Slot × List Component} (ht : t ∈ Holder.slots (add h c)) {c' : Component}
    (hc' : c' ∈ t.2) :
    (∃ t' ∈ Holder.slots h, t'.1 = t.1 ∧ c' ∈ t'.2) ∨ t.1 = c.placement.slot ∧ c' = c := by
  rw [slots_add] at ht
  rcases mem_growTables ht hc' with hold | hnew
  · exact Or.inl hold
  · by_cases hs : t.1 = c.placement.slot
    · exact Or.inr ⟨hs, by simpa [hs] using hnew⟩
    · simp [hs] at hnew

/-- What holds of all that is in a holder, and of a component in the slot it asks for, holds of all
that is in the holder once it has the component. -/
theorem forall_mem_slots_add {α : Type} [Holder α] [LawfulHolder α] {h : α} {c : Component}
    {R : Slot → Component → Prop} (hold : ∀ t ∈ Holder.slots h, ∀ c' ∈ t.2, R t.1 c')
    (hnew : R c.placement.slot c) : ∀ t ∈ Holder.slots (add h c), ∀ c' ∈ t.2, R t.1 c' := by
  intro t ht c' hc'
  rcases mem_slots_add ht hc' with ⟨t', ht', heq, hc''⟩ | ⟨heq, rfl⟩
  · rw [← heq]
    exact hold t' ht' c' hc''
  · rw [heq]
    exact hnew

/-- A holder with nothing in its slots. -/
def Vacant {α : Type} [Holder α] (h : α) : Prop :=
  ∀ t ∈ Holder.slots h, t.2 = []

instance {α : Type} [Holder α] (h : α) : Decidable (Vacant h) :=
  decidable_of_iff (∀ t ∈ Holder.slots h, t.2.isEmpty = true) (by simp [Vacant])

theorem Vacant.not_mem {α : Type} [Holder α] {h : α} (hh : Vacant h)
    {t : Slot × List Component} (ht : t ∈ Holder.slots h) (c : Component) : c ∉ t.2 := by
  rw [hh t ht]
  exact List.not_mem_nil

theorem Class.vacant_empty (name : String) (flags : AccessFlags .classes) :
    Vacant (Class.empty name flags) := by
  simp [Vacant, Holder.slots, Class.slots, Class.empty]

/-! ### Kept properties -/

/-- The two properties, of holders and of components, are kept by placing. -/
structure Kept (P : {α : Type} → [Holder α] → α → Prop) (Q : Component → Prop) : Prop where
  /-- A holder keeps the property when it takes a component. -/
  add {α : Type} [Holder α] [LawfulHolder α] {h : α} {c : Component} :
    P h → Q c → refusal? h c.placement = none → P (add h c)
  /-- A component may be opened. -/
  opened {c : Component} : Q c → P c.node
  /-- A component may be closed again, once its node was filled. -/
  closed {c : Component} {n : Node} : Q c → P n → n.scope = c.node.scope → Q ⟨c.placement, n⟩

/-- The holder has the one property, and all strays have the other. -/
structure Outcome.Has {α : Type} [Holder α] (P : {β : Type} → [Holder β] → β → Prop)
    (Q : Component → Prop) (r : Outcome α) : Prop where
  holder : P r.holder
  strays : ∀ s ∈ r.strays, Q s.component

namespace Kept

variable {P : {α : Type} → [Holder α] → α → Prop} {Q : Component → Prop} {α : Type} [Holder α]

theorem andThen {r : Outcome α} {next : α → Outcome α} (hr : r.Has P Q)
    (hnext : P r.holder → (next r.holder).Has P Q) : (r.andThen next).Has P Q := by
  have h' := hnext hr.holder
  refine ⟨h'.holder, ?_⟩
  intro s hs
  rcases List.mem_append.1 hs with hs | hs
  · exact hr.strays s hs
  · exact h'.strays s hs

variable [LawfulHolder α]

theorem offer (hk : Kept P Q) (settings : Settings) {h : α} {s : Stray} (hP : P h)
    (hQ : Q s.component) : (ClassFile.offer settings h s).Has P Q := by
  cases hr : refusal? h s.component.placement with
  | none =>
      rw [offer_of_accepted hr]
      exact ⟨hk.add hP hQ hr, by simp⟩
  | some reason =>
      rw [offer_of_refusal hr]
      exact ⟨hP, by simpa using hQ⟩

theorem offerAll (hk : Kept P Q) (settings : Settings) {h : α} {ss : List Stray} (hP : P h)
    (hQ : ∀ s ∈ ss, Q s.component) : (ClassFile.offerAll settings h ss).Has P Q := by
  induction ss generalizing h with
  | nil => exact ⟨hP, by simp [ClassFile.offerAll, Outcome.unchanged]⟩
  | cons s ss ih =>
      refine andThen (hk.offer settings hP (hQ s List.mem_cons_self)) fun hP' => ?_
      exact ih hP' fun s' hs' => hQ s' (List.mem_cons_of_mem s hs')

/-- A component with its body placed into it may be closed again: filling a node never changes its
scope. -/
theorem filled (hk : Kept P Q) (settings : Settings) {c : Component} {ds : Script} (hc : Q c)
    (hbody : (ds.place settings c.node).Has P Q) :
    Q ⟨c.placement, (ds.place settings c.node).holder⟩ :=
  hk.closed hc hbody.holder (congrArg Shape.scope (Script.shape_place settings ds c.node))

mutual

theorem place_decl (hk : Kept P Q) (settings : Settings) (d : Decl) {β : Type} [Holder β]
    [LawfulHolder β] {h : β} (hP : P h) (hQ : ∀ c ∈ d.components, Q c) :
    (d.place settings h).Has P Q := by
  cases d with
  | nothing => exact ⟨hP, by simp [Decl.place, Outcome.unchanged]⟩
  | label name => exact hk.offer settings hP (hQ _ List.mem_cons_self)
  | component c => exact hk.offer settings hP (hQ c List.mem_cons_self)
  | stray s => exact hk.offer settings hP (hQ s.component List.mem_cons_self)
  | group ds => exact place_script hk settings ds hP hQ
  | block c ds =>
      have hc : Q c := hQ c List.mem_cons_self
      have hbody : (Script.place settings ds c.node).Has P Q :=
        place_script hk settings ds (hk.opened hc) fun c' hc' =>
          hQ c' (List.mem_cons_of_mem c hc')
      have haround : (ClassFile.offerAll settings h
          (blockOffers c.placement (Script.place settings ds c.node))).Has P Q := by
        refine hk.offerAll settings hP ?_
        intro s hs
        rcases List.mem_cons.1 hs with rfl | hs
        · exact hk.filled settings hc hbody
        · exact hbody.strays s hs
      exact ⟨haround.holder, haround.strays⟩
termination_by structural d

/-- **A script**: what holds of its components and of the holder holds of what comes of it. -/
theorem place_script (hk : Kept P Q) (settings : Settings) (ds : Script) {β : Type} [Holder β]
    [LawfulHolder β] {h : β} (hP : P h) (hQ : ∀ c ∈ ds.components, Q c) :
    (ds.place settings h).Has P Q := by
  cases ds with
  | nil => exact ⟨hP, by simp [Script.place, Outcome.unchanged]⟩
  | cons d ds =>
      have hd : (d.place settings h).Has P Q :=
        place_decl hk settings d hP fun c hc => hQ c (List.mem_append_left _ hc)
      refine andThen hd fun hP' => ?_
      exact place_script hk settings ds hP' fun c hc => hQ c (List.mem_append_right _ hc)
termination_by structural ds

end

end Kept

/-! ### Components as they end up -/

/-- A component keeps the property when it is filled with components that have it. -/
def KeptByFilling (Q : Component → Prop) : Prop :=
  ∀ (settings : Settings) (c : Component) (ds : Script), Q c → (∀ c' ∈ ds.components, Q c') →
    Q ⟨c.placement, (ds.place settings c.node).holder⟩

mutual

theorem KeptByFilling.final_decl {Q : Component → Prop} (hfilled : KeptByFilling Q) (d : Decl)
    (hQ : ∀ c ∈ d.components, Q c) (chain : List Shape) :
    ∀ o ∈ d.occurrences chain, Q o.final := by
  cases d with
  | nothing => simp [Decl.occurrences]
  | label name => simpa [Decl.occurrences] using hQ _ List.mem_cons_self
  | component c => simpa [Decl.occurrences] using hQ c List.mem_cons_self
  | stray s => simpa [Decl.occurrences] using hQ s.component List.mem_cons_self
  | group ds => exact hfilled.final_script ds hQ chain
  | block c ds =>
      have hds : ∀ c' ∈ Script.components ds, Q c' := fun c' hc' =>
        hQ c' (List.mem_cons_of_mem c hc')
      intro o ho
      rcases List.mem_cons.1 ho with rfl | ho
      · have hfinal := hfilled .usual c ds (hQ c List.mem_cons_self) hds
        rwa [Script.holder_place_node .usual ds c.node chain] at hfinal
      · exact hfilled.final_script ds hds (shape c.node :: chain) o ho
termination_by structural d

/-- What filling keeps holds of the components of a script as they end up, if it holds of them as
they are declared. -/
theorem KeptByFilling.final_script {Q : Component → Prop} (hfilled : KeptByFilling Q)
    (ds : Script) (hQ : ∀ c ∈ ds.components, Q c) (chain : List Shape) :
    ∀ o ∈ ds.occurrences chain, Q o.final := by
  cases ds with
  | nil => simp [Script.occurrences]
  | cons d ds =>
      intro o ho
      rcases List.mem_append.1 ho with ho | ho
      · exact hfilled.final_decl d (fun c hc => hQ c (List.mem_append_left _ hc)) chain o ho
      · exact hfilled.final_script ds (fun c hc => hQ c (List.mem_append_right _ hc)) chain o ho
termination_by structural ds

end

/-- What filling keeps holds of all that a script leaves over, if it holds of what the script
declares. -/
theorem KeptByFilling.strays {Q : Component → Prop} (hfilled : KeptByFilling Q)
    {settings : Settings} {ds : Script} (hQ : ∀ c ∈ ds.components, Q c) {α : Type} [Holder α]
    [LawfulHolder α] {h : α} : ∀ s ∈ (ds.place settings h).strays, Q s.component := by
  intro s hs
  obtain ⟨o, ho, -, hcomponent⟩ := Script.exists_of_mem_strays hs
  rw [hcomponent]
  exact hfilled.final_script ds hQ [shape h] o ho

/-- What placing keeps of components is kept when they are filled. -/
theorem Kept.keptByFilling {P : {α : Type} → [Holder α] → α → Prop} {Q : Component → Prop}
    (hk : Kept P Q) : KeptByFilling Q := fun settings _ ds hc hds =>
  hk.filled settings hc (hk.place_script settings ds (hk.opened hc) hds)

/-! ### Sessions -/

/-- The components that a step of a session brings in. -/
def Step.components : Step → List Component
  | .build _ ds => Script.components ds
  | .edit _ ds => Script.components ds
  | .place _ ds => Script.components ds
  | .retry _ => []
  | .attach c => [c]
  | .query _ => []

/-- The class of a session has the one property, and all strays have the other. -/
structure Session.Has (P : {α : Type} → [Holder α] → α → Prop) (Q : Component → Prop)
    (s : Session) : Prop where
  root : P s.root
  strays : ∀ x ∈ s.strays, Q x.component

/-- A session starts without strays. -/
theorem Session.has_start {P : {α : Type} → [Holder α] → α → Prop} {Q : Component → Prop}
    {k : Class} (hk : P k) : (Session.start k).Has P Q :=
  ⟨hk, by simp [Session.start]⟩

/-- After assembling, the session has the new class if nothing is left over, and is as it was
otherwise. -/
theorem Session.session_assembled (s : Session) (settings : Settings) (announcement : Event)
    (ds : Script) :
    (s.assembled (s.root.assemble settings announcement ds)).session =
      if (ds.place settings s.root).strays = [] then
        { s with root := (ds.place settings s.root).holder }
      else s := by
  rw [Session.assembled, Class.assemble]
  by_cases h : (ds.place settings s.root).strays = []
  · rw [if_pos h, if_pos (List.isEmpty_iff.2 h)]
  · rw [if_neg h, if_neg (mt List.isEmpty_iff.1 h)]

namespace Kept

variable {P : {α : Type} → [Holder α] → α → Prop} {Q : Component → Prop}

theorem assembled (hk : Kept P Q) {s : Session} (hs : s.Has P Q) (settings : Settings)
    (announcement : Event) {ds : Script} (hds : ∀ c ∈ ds.components, Q c) :
    (s.assembled (s.root.assemble settings announcement ds)).session.Has P Q := by
  rw [Session.session_assembled]
  split
  · exact ⟨(hk.place_script settings ds hs.root hds).holder, hs.strays⟩
  · exact hs

/-- **One step of a session.** -/
theorem perform (hk : Kept P Q) {s : Session} (hs : s.Has P Q) {step : Step}
    (hstep : ∀ c ∈ step.components, Q c) : (s.perform step).session.Has P Q := by
  cases step with
  | build settings ds => exact hk.assembled hs settings _ hstep
  | edit settings ds => exact hk.assembled hs settings _ hstep
  | place settings ds =>
      have h := hk.place_script settings ds hs.root hstep
      exact ⟨h.holder, h.strays⟩
  | retry settings =>
      -- what is placed again are the strays of the session
      have hagain := hk.offerAll settings hs.root hs.strays
      rw [← Script.place_map_stray] at hagain
      exact ⟨hagain.holder, hagain.strays⟩
  | attach c =>
      refine ⟨?_, hs.strays⟩
      cases hr : refusal? s.root c.placement with
      | none =>
          have hroot := hk.add hs.root (hstep c List.mem_cons_self) hr
          simpa [Session.perform, attach_of_accepted hr] using hroot
      | some reason => simpa [Session.perform, attach_of_refusal hr] using hs.root
  | query q => exact hs

/-- **All steps of a session.** -/
theorem after (hk : Kept P Q) {s : Session} (hs : s.Has P Q) {steps : List Step}
    (hsteps : ∀ step ∈ steps, ∀ c ∈ step.components, Q c) : (s.after steps).Has P Q := by
  induction steps generalizing s with
  | nil => exact hs
  | cons step steps ih =>
      have hfirst := hk.perform hs (hsteps step List.mem_cons_self)
      exact ih hfirst fun step' hstep' => hsteps step' (List.mem_cons_of_mem step hstep')

end Kept

end ClassFile
