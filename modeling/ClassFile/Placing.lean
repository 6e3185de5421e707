/-
**Placing scripts.**

A script is placed into a holder.  Each component goes to the innermost holder that takes it,
counted outwards from where it is declared; a holder that takes it has it at the end of the slot it
asks for.  Blocks are placed from the inside: the body of a block goes into the component of the
block first, then the component itself is offered to the holder around, and then, one by one, what
the body left over.  What no holder takes is handed back in order.

Main definitions:

* `Settings` — whether strays keep the trail of their refusals;
* `attach` — one component, one holder;
* `Outcome` — the holder after a placement, the strays, and the events;
* `offer`, `offerAll` — strays offered to one holder;
* `Decl.place`, `Script.place` — declarations and scripts.

Main results:

* `attach_of_accepted`, `attach_of_refusal` — the two ways an offer ends;
* `Script.place_append` — a script is placed part by part;
* `Script.place_map_stray` — strays are placed by offering them one by one;
* `Decl.place_block` — a block is placed like a group, once its body is;
* `Script.shape_place` — a holder keeps its shape, whatever is placed into it.
-/

import ClassFile.Event
import ClassFile.Script

set_option relaxedAutoImplicit false
set_option autoImplicit false

namespace ClassFile

/-- How scripts are placed. -/
structure Settings where
  /-- Strays keep the trail of the refusals they meet. -/
  keepTrails : Bool
  deriving DecidableEq

/-- The usual settings: trails are kept. -/
def Settings.usual : Settings :=
  ⟨true⟩

/-! ### One component, one holder -/

/-- What comes of offering a component to a holder. -/
structure Attachment (α : Type) where
  holder : α
  /-- The component, if it was not taken. -/
  residual : Option Component
  log : List Event

/-- The outcome of placing something into a holder. -/
structure Outcome (α : Type) where
  holder : α
  /-- What no holder took, in order. -/
  strays : List Stray
  log : List Event

/-- Nothing was placed. -/
def Outcome.unchanged {α : Type} (h : α) : Outcome α :=
  ⟨h, [], []⟩

/-- One placement after another, into the same holder. -/
def Outcome.andThen {α β : Type} (r : Outcome α) (next : α → Outcome β) : Outcome β :=
  let r' := next r.holder
  ⟨r'.holder, r.strays ++ r'.strays, r.log ++ r'.log⟩

theorem Outcome.unchanged_andThen {α β : Type} (h : α) (next : α → Outcome β) :
    (Outcome.unchanged h).andThen next = next h := by
  simp [Outcome.unchanged, Outcome.andThen]

theorem Outcome.andThen_unchanged {α : Type} (r : Outcome α) :
    r.andThen Outcome.unchanged = r := by
  simp [Outcome.unchanged, Outcome.andThen]

theorem Outcome.andThen_assoc {α β γ : Type} (r : Outcome α) (f : α → Outcome β)
    (g : β → Outcome γ) :
    (r.andThen f).andThen g = r.andThen fun h => (f h).andThen g := by
  simp [Outcome.andThen]

section

variable {α : Type} [Holder α]

/-- Offers a component to a holder, which has it at the end of its slot if it takes it, and is as
it was otherwise. -/
def attach (h : α) (c : Component) : Attachment α :=
  match refusal? h c.placement with
  | some reason => ⟨h, some c, [.rejected c.scope (Holder.scope h) reason]⟩
  | none =>
      match Holder.push? h c.placement.slot c with
      | some h' => ⟨h', none, [.attached c.scope c.placement.slot (Holder.scope h)]⟩
      | none => ⟨h, some c, []⟩

/-- What a refusal by a holder adds to a trail. -/
def trailEntry (settings : Settings) (h : α) (p : Placement) : List Refusal :=
  if settings.keepTrails then
    ((refusal? h p).map fun reason => ⟨Holder.scope h, reason⟩).toList
  else []

/-- Offers a stray to a holder; if it is not taken, its trail grows. -/
def offer (settings : Settings) (h : α) (s : Stray) : Outcome α :=
  let a := attach h s.component
  match a.residual with
  | none => ⟨a.holder, [], a.log⟩
  | some c => ⟨a.holder, [⟨c, s.trail ++ trailEntry settings a.holder c.placement⟩], a.log⟩

/-- Offers strays to a holder, one by one. -/
def offerAll (settings : Settings) (h : α) : List Stray → Outcome α
  | [] => .unchanged h
  | s :: ss => (offer settings h s).andThen fun h' => offerAll settings h' ss

theorem offerAll_append (settings : Settings) (h : α) (ss ss' : List Stray) :
    offerAll settings h (ss ++ ss') =
      (offerAll settings h ss).andThen fun h' => offerAll settings h' ss' := by
  induction ss generalizing h with
  | nil => simp [offerAll, Outcome.unchanged_andThen]
  | cons s ss ih => simp [offerAll, ih, Outcome.andThen_assoc]

/-! ### What an offer does -/

/-- A holder that refuses a component stays as it is, and the component comes back. -/
theorem attach_of_refusal {h : α} {c : Component} {reason : Reason}
    (hr : refusal? h c.placement = some reason) :
    attach h c = ⟨h, some c, [.rejected c.scope (Holder.scope h) reason]⟩ := by
  simp [attach, hr]

/-- A refusal makes a stray of the component, with a longer trail if trails are kept. -/
theorem offer_of_refusal {settings : Settings} {h : α} {s : Stray} {reason : Reason}
    (hr : refusal? h s.component.placement = some reason) :
    offer settings h s =
      ⟨h, [⟨s.component,
          s.trail ++ if settings.keepTrails then [⟨Holder.scope h, reason⟩] else []⟩],
        [.rejected s.component.scope (Holder.scope h) reason]⟩ := by
  simp [offer, attach_of_refusal hr, trailEntry, hr]

variable [LawfulHolder α]

/-- A holder that does not refuse a component has it at the end of its slot. -/
theorem attach_of_accepted {h : α} {c : Component} (hr : refusal? h c.placement = none) :
    attach h c =
      ⟨add h c, none, [.attached c.scope c.placement.slot (Holder.scope h)]⟩ := by
  have hs := (refusal?_eq_none_iff.mp hr).1
  rw [← isSome_push? h c.placement.slot c] at hs
  obtain ⟨h', hp⟩ := Option.isSome_iff_exists.mp hs
  simp [attach, hr, hp, add]

theorem offer_of_accepted {settings : Settings} {h : α} {s : Stray}
    (hr : refusal? h s.component.placement = none) :
    offer settings h s =
      ⟨add h s.component, [],
        [.attached s.component.scope s.component.placement.slot (Holder.scope h)]⟩ := by
  simp [offer, attach_of_accepted hr]

/-- An offer keeps the shape of the holder. -/
theorem shape_offer (settings : Settings) (h : α) (s : Stray) :
    shape (offer settings h s).holder = shape h := by
  cases hr : refusal? h s.component.placement with
  | none => rw [offer_of_accepted hr]; exact shape_add h s.component
  | some reason => rw [offer_of_refusal hr]

theorem shape_offerAll (settings : Settings) (h : α) (ss : List Stray) :
    shape (offerAll settings h ss).holder = shape h := by
  induction ss generalizing h with
  | nil => rfl
  | cons s ss ih => exact (ih _).trans (shape_offer settings h s)

end

/-! ### Scripts -/

/-- The report that some strays leave the component they were declared in. -/
def escapes (strays : List Stray) (component : Scope) : List Event :=
  if strays.isEmpty then [] else [.escaped strays.length component]

/-- What a block hands to the holder around it, once its body is placed: the component with what
the body put into it, and the strays of the body. -/
def blockOffers (p : Placement) (body : Outcome Node) : List Stray :=
  (Component.mk p body.holder).unrefused :: body.strays

mutual

/-- Places a declaration into a holder. -/
def Decl.place (settings : Settings) (d : Decl) {α : Type} [Holder α] (h : α) : Outcome α :=
  match d with
  | .nothing => .unchanged h
  | .label name => offer settings h (Component.label name).unrefused
  | .component c => offer settings h c.unrefused
  | .stray s => offer settings h s
  | .group ds => Script.place settings ds h
  | .block c ds =>
      let body := Script.place settings ds c.node
      let around := offerAll settings h (blockOffers c.placement body)
      { around with log := body.log ++ escapes body.strays c.scope ++ around.log }
termination_by structural d

/-- Places the declarations of a script into a holder, in order. -/
def Script.place (settings : Settings) (ds : Script) {α : Type} [Holder α] (h : α) :
    Outcome α :=
  match ds with
  | [] => .unchanged h
  | d :: ds => (Decl.place settings d h).andThen fun h' => Script.place settings ds h'
termination_by structural ds

end

/-- A script is placed part by part. -/
theorem Script.place_append (settings : Settings) (ds es : Script) {α : Type} [Holder α] (h : α) :
    Script.place settings (ds ++ es) h =
      (Script.place settings ds h).andThen fun h' => Script.place settings es h' := by
  induction ds generalizing h with
  | nil => simp [Script.place, Outcome.unchanged_andThen]
  | cons d ds ih => simp [Script.place, ih, Outcome.andThen_assoc]

/-- Strays are placed by offering them one by one. -/
theorem Script.place_map_stray (settings : Settings) (ss : List Stray) {α : Type} [Holder α]
    (h : α) : Script.place settings (ss.map .stray) h = offerAll settings h ss := by
  induction ss generalizing h with
  | nil => rfl
  | cons s ss ih => simp [Script.place, Decl.place, offerAll, ih]

/-- **A block is placed like a group, once its body is**: the group of its component as it is now,
and of what the body left over. -/
theorem Decl.place_block (settings : Settings) (c : Component) (ds : Script) {α : Type} [Holder α]
    (h : α) :
    let body := Script.place settings ds c.node
    let filled : Component := ⟨c.placement, body.holder⟩
    let around := Decl.place settings (.group (.component filled :: body.strays.map .stray)) h
    Decl.place settings (.block c ds) h =
      { around with log := body.log ++ escapes body.strays c.scope ++ around.log } := by
  intro body filled around
  have haround : around = offerAll settings h (blockOffers c.placement body) :=
    congrArg (offer settings h filled.unrefused).andThen
      (funext fun h' => Script.place_map_stray settings body.strays h')
  rw [haround]
  rfl

mutual

/-- Placing a declaration keeps the shape of the holder. -/
theorem Decl.shape_place (settings : Settings) (d : Decl) {α : Type} [Holder α] [LawfulHolder α]
    (h : α) : shape (Decl.place settings d h).holder = shape h := by
  cases d with
  | nothing => rfl
  | label name => exact shape_offer settings h _
  | component c => exact shape_offer settings h _
  | stray s => exact shape_offer settings h s
  | group ds => exact Script.shape_place settings ds h
  | block c ds => exact shape_offerAll settings h _
termination_by structural d

/-- Placing a script keeps the shape of the holder, so no verdict depends on what was placed
before. -/
theorem Script.shape_place (settings : Settings) (ds : Script) {α : Type} [Holder α]
    [LawfulHolder α] (h : α) : shape (Script.place settings ds h).holder = shape h := by
  cases ds with
  | nil => rfl
  | cons d ds =>
      have hd := Decl.shape_place settings d h
      exact (Script.shape_place settings ds _).trans hd
termination_by structural ds

end

/-- Places a script into the first of several holders, and what each of them leaves over into the
next. -/
def Script.placeThrough {α : Type} [Holder α] (settings : Settings) (script : Script) :
    List α → List (Outcome α)
  | [] => []
  | h :: hs =>
      let r := Script.place settings script h
      r :: Script.placeThrough settings (r.strays.map .stray) hs

end ClassFile
