/-
**Scopes and placements.**

The *scope* of a node is what kind of node it is.  Where a component of a class tree belongs is said
by its *placement*: its own scope, the slot it goes into, and the scopes a node must have to hold
it there.

Main definitions:

* `AttributeKind`, `EntryKind` — the kinds of attributes, and of rows in the tables of attributes;
* `Scope` — the kinds of nodes;
* `Placement`, `Placement.accepts` — where a component belongs, and whether a node of some scope
  may hold it.
-/

import ClassFile.Opcode
import ClassFile.Slot

set_option relaxedAutoImplicit false
set_option autoImplicit false

namespace ClassFile

/-- The kinds of attributes. -/
inductive AttributeKind
  | constantValue
  | code
  | stackMapTable
  | exceptions
  | innerClasses
  | enclosingMethod
  | synthetic
  | signature
  | sourceFile
  | sourceDebugExtension
  | lineNumberTable
  | localVariableTable
  | localVariableTypeTable
  | deprecated
  | runtimeVisibleAnnotations
  | runtimeInvisibleAnnotations
  | runtimeVisibleParameterAnnotations
  | runtimeInvisibleParameterAnnotations
  | runtimeVisibleTypeAnnotations
  | runtimeInvisibleTypeAnnotations
  | annotationDefault
  | bootstrapMethods
  | methodParameters
  deriving DecidableEq

/-- The kinds of rows in the tables of attributes. -/
inductive EntryKind
  | exception
  | lineNumber
  | localVariable
  | localVariableType
  | innerClass
  | bootstrapMethod
  | methodParameter
  deriving DecidableEq

/-- The kinds of nodes of a class tree. -/
inductive Scope
  /-- The class itself, which is the root of the tree. -/
  | root
  | method
  | field
  | constant
  /-- A label, which marks a place in the code and is no instruction. -/
  | label
  | attr (kind : AttributeKind)
  | instruction (opcode : Opcode)
  | entry (kind : EntryKind)
  deriving DecidableEq

/-- The scope of a code attribute, where all instructions and labels go. -/
def Scope.code : Scope :=
  .attr .code

/-- Where a component belongs. -/
structure Placement where
  /-- The scope of the component itself. -/
  scope : Scope
  /-- The slot it goes into. -/
  slot : Slot
  /-- The scopes of the nodes that may hold it. -/
  parents : List Scope
  deriving DecidableEq

/-- A node of the given scope may hold the component. -/
def Placement.accepts (p : Placement) (s : Scope) : Bool :=
  p.parents.contains s

theorem Placement.accepts_iff {p : Placement} {s : Scope} : p.accepts s = true ↔ s ∈ p.parents := by
  simp [Placement.accepts]

end ClassFile
