/-
**Relabelling.**

A relabelling changes what trees and scripts say and nothing of how they are built: names, flags,
types, labels, constants and arguments may change, while the kinds of nodes, the placements and the
slots stay.

Main definitions:

* `Relabelling` — how each kind of payload changes;
* `Node.relabel`, `Component.relabel`, `Class.relabel`, `Target.relabel` — trees;
* `Script.relabel`, `Stray.relabel` — scripts and what they leave over.

Main results:

* `Node.scope_relabel` — the kind of a node stays.
-/

import ClassFile.Query
import ClassFile.Script

set_option relaxedAutoImplicit false
set_option autoImplicit false

namespace ClassFile

/-- How payloads change.  Label names change by `label`, and `labelArgs` does the same to the
arguments of a label that is written out. -/
structure Relabelling where
  root : String × AccessFlags .classes → String × AccessFlags .classes
  method : MethodHeader → MethodHeader
  field : FieldHeader → FieldHeader
  constant : String × Value × List Value → String × Value × List Value
  attr : AttributeKind → List Value → List Value
  entry : EntryKind → List Value → List Value
  instruction : Opcode → List Value → List Value
  label : String → String
  labelArgs : List Value → List Value
  labelArgs_label (name : String) : labelArgs [.label name] = [.label (label name)]

variable (r : Relabelling)

/-! ### Trees -/

mutual

/-- The node with its payloads changed, at any depth. -/
def Node.relabel : Node → Node
  | .method header as => .method (r.method header) (relabelAll as)
  | .field header as => .field (r.field header) (relabelAll as)
  | .attr kind args as ts => .attr kind (r.attr kind args) (relabelAll as) (relabelTables ts)
  | .instruction none args => .instruction none (r.labelArgs args)
  | .instruction (some opcode) args => .instruction (some opcode) (r.instruction opcode args)
  | .constant label tag values =>
      let (label, tag, values) := r.constant (label, tag, values)
      .constant label tag values
  | .entry kind args => .entry kind (r.entry kind args)
termination_by structural n => n

/-- The component with its payloads changed, at any depth. -/
def Component.relabel : Component → Component
  | ⟨p, n⟩ => ⟨p, n.relabel⟩
termination_by structural c => c

/-- Components with their payloads changed. -/
def relabelAll : List Component → List Component
  | [] => []
  | c :: cs => c.relabel :: relabelAll cs
termination_by structural cs => cs

/-- Tables with the payloads of their components changed. -/
def relabelTables : List (Slot × List Component) → List (Slot × List Component)
  | [] => []
  | (s, cs) :: ts => (s, relabelAll cs) :: relabelTables ts
termination_by structural ts => ts

end

/-- The kind of a node stays. -/
theorem Node.scope_relabel (n : Node) : (n.relabel r).scope = n.scope := by
  cases n with
  | instruction opcode args => cases opcode <;> rfl
  | _ => rfl

/-- The class with its payloads changed, at any depth. -/
def Class.relabel (k : Class) : Class where
  name := (r.root (k.name, k.flags)).1
  flags := (r.root (k.name, k.flags)).2
  methods := relabelAll r k.methods
  fields := relabelAll r k.fields
  constantPool := relabelAll r k.constantPool
  attributes := relabelAll r k.attributes

/-- The class or node with its payloads changed, at any depth. -/
def Target.relabel : Target → Target
  | .root k => .root (k.relabel r)
  | .node n => .node (n.relabel r)

/-! ### Scripts -/

/-- The stray with its payloads changed, and the same trail. -/
def Stray.relabel (s : Stray) : Stray :=
  ⟨s.component.relabel r, s.trail⟩

mutual

/-- The declaration with its payloads changed, at any depth. -/
def Decl.relabel : Decl → Decl
  | .nothing => .nothing
  | .label name => .label (r.label name)
  | .component c => .component (c.relabel r)
  | .group ds => .group (Script.relabel ds)
  | .block c ds => .block (c.relabel r) (Script.relabel ds)
  | .stray s => .stray (s.relabel r)
termination_by structural d => d

/-- The script with its payloads changed, at any depth. -/
def Script.relabel : Script → Script
  | [] => []
  | d :: ds => d.relabel :: Script.relabel ds
termination_by structural ds => ds

end

end ClassFile
