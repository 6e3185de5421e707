/-
**Well-placed and conforming trees.**

Two properties of a whole tree, which say that each component stands where it may.  A tree is well
placed if every component stands where its own placement asks to be.  A tree conforms if every
component stands where the schema puts nodes of its kind, whatever its placement says.

Main definitions:

* `Fits` — a component in a slot of a holder, as the placement of the component has it;
* `WellPlaced`, `Node.WellPlaced` — the same for all components of a tree;
* `admits` — what the schema lets stand in a slot of a holder;
* `Conforms`, `Node.Conforms` — the same for all components of a tree;
* `Component.OfSchema` — a component that the schema itself provides;
* `Node.height` — how deep a tree goes below a node.

Main results:

* `admits_usual` — what the schema lets hold a node with its usual placement, it admits there.
-/

import ClassFile.Holder

set_option relaxedAutoImplicit false
set_option autoImplicit false

namespace ClassFile

/-! ### As the placements have it -/

/-- A component may stand in the given slot of a holder of the given scope, and its placement tells
its scope. -/
structure Fits (holder : Scope) (s : Slot) (c : Component) : Prop where
  slot_eq : c.placement.slot = s
  holder_mem : holder ∈ c.placement.parents
  scope_eq : c.placement.scope = c.node.scope

/-- All components below a node stand where they may. -/
inductive Node.WellPlaced : Node → Prop
  | intro {n : Node} (fits : ∀ t ∈ n.slots, ∀ c ∈ t.2, Fits n.scope t.1 c)
      (below : ∀ t ∈ n.slots, ∀ c ∈ t.2, Node.WellPlaced c.node) : Node.WellPlaced n

/-- All components of a holder stand where they may, at any depth. -/
def WellPlaced {α : Type} [Holder α] (h : α) : Prop :=
  ∀ t ∈ Holder.slots h, ∀ c ∈ t.2, Fits (Holder.scope h) t.1 c ∧ c.node.WellPlaced

theorem Node.wellPlaced_iff {n : Node} : n.WellPlaced ↔ ClassFile.WellPlaced n := by
  constructor
  · rintro ⟨fits, below⟩ t ht c hc
    exact ⟨fits t ht c hc, below t ht c hc⟩
  · intro h
    exact ⟨fun t ht c hc => (h t ht c hc).1, fun t ht c hc => (h t ht c hc).2⟩

/-! ### As the schema has it -/

/-- The schema lets a holder of one scope have a node of another in the given slot. -/
def admits (holder : Scope) (s : Slot) (child : Scope) : Bool :=
  match child with
  | .root => false
  | .method => s = .methods && holder = .root
  | .field => s = .fields && holder = .root
  | .constant => s = .constantPool && holder = .root
  | .label => s = .code && holder = .code
  | .instruction _ => s = .code && holder = .code
  | .attr kind => s = .attributes && kind.parents.contains holder
  | .entry kind => s = kind.slot && holder = .attr kind.row.owner

/-- All components below a node stand where the schema puts them. -/
inductive Node.Conforms : Node → Prop
  | intro {n : Node} (admitted : ∀ t ∈ n.slots, ∀ c ∈ t.2, admits n.scope t.1 c.node.scope = true)
      (below : ∀ t ∈ n.slots, ∀ c ∈ t.2, Node.Conforms c.node) : Node.Conforms n

/-- All components of a holder stand where the schema puts them, at any depth. -/
def Conforms {α : Type} [Holder α] (h : α) : Prop :=
  ∀ t ∈ Holder.slots h, ∀ c ∈ t.2,
    admits (Holder.scope h) t.1 c.node.scope = true ∧ c.node.Conforms

theorem Node.conforms_iff {n : Node} : n.Conforms ↔ ClassFile.Conforms n := by
  constructor
  · rintro ⟨admitted, below⟩ t ht c hc
    exact ⟨admitted t ht c hc, below t ht c hc⟩
  · intro h
    exact ⟨fun t ht c hc => (h t ht c hc).1, fun t ht c hc => (h t ht c hc).2⟩

/-- A node may stand in its usual slot of a holder just if the holder is one of its usual ones. -/
theorem admits_usual (n : Node) (s : Slot) (holder : Scope) :
    admits holder s n.scope = true ↔ s = n.usualSlot ∧ holder ∈ n.usualParents := by
  cases n with
  | instruction opcode args =>
      cases opcode <;> simp [admits, Node.scope, Node.usualSlot, Node.usualParents]
  | entry kind args =>
      simp [admits, Node.scope, Node.usualSlot, Node.usualParents, EntryKind.parents]
  | _ => simp [admits, Node.scope, Node.usualSlot, Node.usualParents]

/-- A component that the schema itself provides. -/
inductive Component.OfSchema : Component → Prop
  | method (header : MethodHeader) : Component.OfSchema (.method header)
  | field (header : FieldHeader) : Component.OfSchema (.field header)
  | constant (label : String) (tag : Value) (values : List Value) :
      Component.OfSchema (.constant label tag values)
  | label (name : String) : Component.OfSchema (.label name)
  | instruction (opcode : Opcode) (args : Arguments opcode.operands) :
      Component.OfSchema (.instruction opcode args)
  | attr (kind : AttributeKind) (args : Arguments kind.operands) :
      Component.OfSchema (.attr kind args)
  | entry (kind : EntryKind) (args : Arguments kind.operands) :
      Component.OfSchema (.entry kind args)

/-! ### Height -/

mutual

/-- The number of levels of components below a node. -/
def Node.height : Node → Nat
  | .method _ as => heightAll as
  | .field _ as => heightAll as
  | .attr _ _ as ts => max (heightAll as) (heightTables ts)
  | .instruction _ _ => 0
  | .constant _ _ _ => 0
  | .entry _ _ => 0
termination_by structural n => n

/-- The number of levels from a component downwards. -/
def Component.height : Component → Nat
  | ⟨_, n⟩ => n.height + 1
termination_by structural c => c

/-- The greatest height of some components, zero if there are none. -/
def heightAll : List Component → Nat
  | [] => 0
  | c :: cs => max c.height (heightAll cs)
termination_by structural cs => cs

/-- The greatest height of the components in some tables. -/
def heightTables : List (Slot × List Component) → Nat
  | [] => 0
  | (_, cs) :: ts => max (heightAll cs) (heightTables ts)
termination_by structural ts => ts

end

/-- The number of levels of components below a holder. -/
def height {α : Type} [Holder α] (h : α) : Nat :=
  heightTables (Holder.slots h)

end ClassFile
