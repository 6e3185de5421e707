/-
**The components of a tree.**

A census lists all components of a tree, at any depth, each by itself: with its placement and its
payload, and with its slots empty, since what they held is listed too.

Main definitions:

* `Component.bare` — a component by itself;
* `Component.census`, `censusAll` — all components from one downwards, and from several;
* `census` — all components below a holder.
-/

import ClassFile.Holder

set_option relaxedAutoImplicit false
set_option autoImplicit false

namespace ClassFile

/-- A component by itself, with its slots empty. -/
def Component.bare (c : Component) : Component :=
  ⟨c.placement, c.node.vacated⟩

mutual

/-- All components below a node. -/
def Node.census : Node → List Component
  | .method _ as => censusAll as
  | .field _ as => censusAll as
  | .attr _ _ as ts => censusAll as ++ censusTables ts
  | .instruction _ _ => []
  | .constant _ _ _ => []
  | .entry _ _ => []
termination_by structural n => n

/-- All components from a component downwards. -/
def Component.census : Component → List Component
  | ⟨p, n⟩ => Component.bare ⟨p, n⟩ :: n.census
termination_by structural c => c

/-- All components from some components downwards. -/
def censusAll : List Component → List Component
  | [] => []
  | c :: cs => c.census ++ censusAll cs
termination_by structural cs => cs

/-- All components in some tables, at any depth. -/
def censusTables : List (Slot × List Component) → List Component
  | [] => []
  | (_, cs) :: ts => censusAll cs ++ censusTables ts
termination_by structural ts => ts

end

/-- All components below a holder. -/
def census {α : Type} [Holder α] (h : α) : List Component :=
  censusTables (Holder.slots h)

theorem Node.census_eq (n : Node) : n.census = ClassFile.census n := by
  cases n <;> simp [Node.census, ClassFile.census, Holder.slots, Node.slots, censusTables]

theorem Component.census_eq (c : Component) : c.census = c.bare :: c.node.census := by
  cases c
  rfl

theorem mem_censusAll {cs : List Component} {x : Component} :
    x ∈ censusAll cs ↔ ∃ c ∈ cs, x ∈ c.census := by
  induction cs with
  | nil => simp [censusAll]
  | cons c cs ih => simp [censusAll, ih]

/-- What is below a holder is at or below a component in one of its slots. -/
theorem mem_census {α : Type} [Holder α] {h : α} {x : Component} :
    x ∈ ClassFile.census h ↔ ∃ t ∈ Holder.slots h, ∃ c ∈ t.2, x ∈ c.census := by
  have key : ∀ tables : Tables,
      x ∈ censusTables tables ↔ ∃ t ∈ tables, ∃ c ∈ t.2, x ∈ c.census := by
    intro tables
    induction tables with
    | nil => simp [censusTables]
    | cons t ts ih => simp [censusTables, ih, mem_censusAll]
  exact key (Holder.slots h)

theorem censusAll_append (cs ds : List Component) :
    censusAll (cs ++ ds) = censusAll cs ++ censusAll ds := by
  induction cs with
  | nil => rfl
  | cons c cs ih => simp [censusAll, ih]

end ClassFile
