/-
**Class trees.**

A class is the root of a tree.  Every other node is a *component*: the node together with its
placement, which says where in the tree it belongs.  Nodes hold components in slots.

Main definitions:

* `MethodHeader`, `FieldHeader` — what a method or a field says of itself;
* `Node`, `Component`, `Class` — the tree;
* `Node.scope` — the kind of a node;
* `Component.of`, `Component.usual` — a component with a chosen placement, and with the placement
  that the schema gives to its node;
* `Component.method`, `field`, `constant`, `label`, `instruction`, `attr`, `entry`,
  `sourceMap` — the components that the schema knows, each without children.
-/

import ClassFile.AccessFlags
import ClassFile.Descriptor
import ClassFile.Schema
import ClassFile.SourceMap

set_option relaxedAutoImplicit false
set_option autoImplicit false

namespace ClassFile

/-! ### Nodes, components and classes -/

/-- What a method says of itself.  No result type means that nothing is returned. -/
structure MethodHeader where
  name : String
  returnType : Option FieldType
  parameters : List (FieldType × String)
  flags : AccessFlags .methods
  deriving DecidableEq

/-- What a field says of itself. -/
structure FieldHeader where
  name : String
  type : FieldType
  flags : AccessFlags .fields
  deriving DecidableEq

mutual

/-- A node of a class tree below the root. -/
inductive Node
  /-- A method, with its attributes. -/
  | method (header : MethodHeader) (attributes : List Component)
  /-- A field, with its attributes. -/
  | field (header : FieldHeader) (attributes : List Component)
  /-- An attribute, with the attributes nested in it and with its tables. -/
  | attr (kind : AttributeKind) (args : List Value) (attributes : List Component)
      (tables : List (Slot × List Component))
  /-- An instruction, or a label where there is no opcode. -/
  | instruction (opcode : Option Opcode) (args : List Value)
  /-- A constant, which has a symbolic label and is no index into a pool. -/
  | constant (label : String) (tag : Value) (values : List Value)
  /-- A row of a table of an attribute. -/
  | entry (kind : EntryKind) (args : List Value)

/-- A node together with where it belongs. -/
structure Component where
  placement : Placement
  node : Node

end

/-- A class: the root of a tree. -/
structure Class where
  name : String
  flags : AccessFlags .classes
  methods : List Component
  fields : List Component
  constantPool : List Component
  attributes : List Component

/-- A class with nothing in it. -/
def Class.empty (name : String) (flags : AccessFlags .classes) : Class :=
  ⟨name, flags, [], [], [], []⟩

/-! ### Scopes and placements of nodes -/

/-- The kind of a node. -/
def Node.scope : Node → Scope
  | .method _ _ => .method
  | .field _ _ => .field
  | .attr kind _ _ _ => .attr kind
  | .instruction none _ => .label
  | .instruction (some opcode) _ => .instruction opcode
  | .constant _ _ _ => .constant
  | .entry kind _ => .entry kind

/-- The slot that the schema provides for a node. -/
def Node.usualSlot : Node → Slot
  | .method _ _ => .methods
  | .field _ _ => .fields
  | .attr _ _ _ _ => .attributes
  | .instruction _ _ => .code
  | .constant _ _ _ => .constantPool
  | .entry kind _ => kind.slot

/-- The scopes that the schema lets hold a node. -/
def Node.usualParents : Node → List Scope
  | .method _ _ => [.root]
  | .field _ _ => [.root]
  | .attr kind _ _ _ => kind.parents
  | .instruction _ _ => [.code]
  | .constant _ _ _ => [.root]
  | .entry kind _ => kind.parents

/-- The scope of a component, as its placement has it. -/
def Component.scope (c : Component) : Scope :=
  c.placement.scope

/-- A component that asks for a slot in a node of one of the given scopes. -/
def Component.of (slot : Slot) (parents : List Scope) (node : Node) : Component :=
  ⟨⟨node.scope, slot, parents⟩, node⟩

/-- A component that belongs where the schema puts its node. -/
def Component.usual (node : Node) : Component :=
  .of node.usualSlot node.usualParents node

/-- How a component is shown. -/
def Component.text (c : Component) : String :=
  c.placement.text

/-! ### The components of the schema -/

/-- A method without attributes. -/
def Component.method (header : MethodHeader) : Component :=
  .usual (.method header [])

/-- A field without attributes. -/
def Component.field (header : FieldHeader) : Component :=
  .usual (.field header [])

/-- A constant. -/
def Component.constant (label : String) (tag : Value) (values : List Value) : Component :=
  .usual (.constant label tag values)

/-- A label, which carries its name. -/
def Component.label (name : String) : Component :=
  .usual (.instruction none [.label name])

/-- An instruction with an argument for each of its operands. -/
def Component.instruction (opcode : Opcode) (args : Arguments opcode.operands) : Component :=
  .usual (.instruction (some opcode) (Arguments.values _ args))

/-- An attribute with an argument for each of its fields, and with its tables empty. -/
def Component.attr (kind : AttributeKind) (args : Arguments kind.operands) : Component :=
  .usual (.attr kind (Arguments.values _ args) [] (kind.tables.map fun slot => (slot, [])))

/-- A row of a table, with an argument for each of its operands. -/
def Component.entry (kind : EntryKind) (args : Arguments kind.operands) : Component :=
  .usual (.entry kind (Arguments.values _ args))

/-- The attribute that carries a source map, as text. -/
def Component.sourceMap (m : SourceMap) : Component :=
  .attr .sourceDebugExtension (Value.str m.text, ())

end ClassFile
