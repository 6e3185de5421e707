/-
**Refusals.**

A holder takes a component if it has the slot the component asks for and is of a scope the
component may stand in.  Where one of the two fails, or both, the holder refuses, and the reason
says which.  A component that nobody has taken yet is a *stray*; it carries the refusals it met, in
order.

Main definitions:

* `Reason`, `Refusal`, `Stray` — why a holder refuses, who refused, and a component with its
  refusals;
* `Shape`, `shape` — all that the verdict on a component depends on;
* `refusal?` — why a holder refuses a placement, if it does;
* `Reason.text`, `Refusal.text`, `Stray.text` — how they are shown.

Main results:

* `refusal?_eq_none_iff` — what is needed to be taken;
* `shape_push?` — taking a component changes no later verdict.
-/

import ClassFile.Holder

set_option relaxedAutoImplicit false
set_option autoImplicit false

namespace ClassFile

/-- Why a holder refuses a component. -/
inductive Reason
  /-- The holder is of a right scope and has no such slot. -/
  | missingSlot
  /-- The holder has the slot and is of a wrong scope. -/
  | scopeMismatch
  /-- The holder has no such slot and is of a wrong scope. -/
  | missingSlotAndScopeMismatch
  deriving DecidableEq

/-- A holder's refusal: its scope, and why. -/
structure Refusal where
  scope : Scope
  reason : Reason
  deriving DecidableEq

/-- A component without a home, and the refusals it met, the innermost holder first. -/
structure Stray where
  component : Component
  trail : List Refusal

/-- A component that has not been refused yet. -/
def Component.unrefused (c : Component) : Stray :=
  ⟨c, []⟩

/-! ### Verdicts -/

/-- All that a component asks of a holder: its scope, and which slots it has. -/
structure Shape where
  scope : Scope
  hasSlot : Slot → Bool

/-- The shape of a holder. -/
def shape {α : Type} [Holder α] (h : α) : Shape :=
  ⟨Holder.scope h, hasSlot h⟩

/-- Why a holder of this shape refuses a component with the given placement, if it does. -/
def Shape.refusal? (f : Shape) (p : Placement) : Option Reason :=
  match f.hasSlot p.slot, p.accepts f.scope with
  | true, true => none
  | false, true => some .missingSlot
  | true, false => some .scopeMismatch
  | false, false => some .missingSlotAndScopeMismatch

/-- Why a holder refuses a component with the given placement, if it does. -/
def refusal? {α : Type} [Holder α] (h : α) (p : Placement) : Option Reason :=
  (shape h).refusal? p

theorem Shape.refusal?_eq_none_iff {f : Shape} {p : Placement} :
    f.refusal? p = none ↔ f.hasSlot p.slot = true ∧ f.scope ∈ p.parents := by
  rw [← Placement.accepts_iff, refusal?]
  split <;> simp_all

theorem refusal?_eq_none_iff {α : Type} [Holder α] {h : α} {p : Placement} :
    refusal? h p = none ↔ hasSlot h p.slot = true ∧ Holder.scope h ∈ p.parents :=
  Shape.refusal?_eq_none_iff

/-- Adding a component keeps the shape of a holder, so its verdicts never change. -/
theorem shape_push? {α : Type} [Holder α] [LawfulHolder α] {h h' : α} {s : Slot} {c : Component}
    (hp : Holder.push? h s c = some h') : shape h' = shape h := by
  simp only [shape, scope_push? hp, Shape.mk.injEq, true_and]
  exact funext (hasSlot_push? hp)

theorem shape_add {α : Type} [Holder α] [LawfulHolder α] (h : α) (c : Component) :
    shape (add h c) = shape h := by
  cases hp : Holder.push? h c.placement.slot c with
  | none => simp [add, hp]
  | some h' => simpa [add, hp] using shape_push? hp

/-! ### Refusals shown -/

/-- The wording of a reason. -/
def Reason.text : Reason → String
  | .missingSlot => "missing slot"
  | .scopeMismatch => "scope mismatch"
  | .missingSlotAndScopeMismatch => "missing slot and scope mismatch"

/-- A refusal is shown as the scope of the holder and the reason in parentheses. -/
def Refusal.text (r : Refusal) : String :=
  r.scope.text ++ " (" ++ r.reason.text ++ ")"

/-- The refusals of a trail, or nothing at all if there are none. -/
def trailText (trail : List Refusal) : String :=
  match trail with
  | [] => ""
  | _ :: _ => ", rejected by " ++ ", ".intercalate (trail.map Refusal.text)

/-- A stray is shown as its component and the refusals it met. -/
def Stray.text (s : Stray) : String :=
  s.component.text ++ trailText s.trail

end ClassFile
