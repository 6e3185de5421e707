/-
**Slots.**

A node of a class tree holds its children in named lists, the slots.  Which slots a node has
depends on the node; the names are fixed.

Main definitions:

* `Slot`, `Slot.name` — the twelve slots and their names;
* `Slot.all` — all of them, in a fixed order.
-/

set_option relaxedAutoImplicit false
set_option autoImplicit false

namespace ClassFile

/-- The name of a list of children. -/
inductive Slot
  | methods
  | fields
  | constantPool
  | attributes
  | code
  | exceptionTable
  | lineNumberTable
  | localVariableTable
  | localVariableTypeTable
  | classes
  | bootstrapMethods
  | parameters
  deriving DecidableEq

namespace Slot

/-- The slots in their order. -/
def all : List Slot :=
  [methods, fields, constantPool, attributes, code, exceptionTable, lineNumberTable,
   localVariableTable, localVariableTypeTable, classes, bootstrapMethods, parameters]

theorem mem_all (s : Slot) : s ∈ all := by
  cases s <;> decide

/-- What is decidable for each slot is for all of them. -/
instance (p : Slot → Prop) [DecidablePred p] : Decidable (∀ s, p s) :=
  decidable_of_iff (∀ s ∈ all, p s) ⟨fun h s => h s (mem_all s), fun h s _ => h s⟩

/-- The name of a slot as it is shown. -/
def name : Slot → String
  | methods => "methods"
  | fields => "fields"
  | constantPool => "constant_pool"
  | attributes => "attributes"
  | code => "code"
  | exceptionTable => "exception_table"
  | lineNumberTable => "line_number_table"
  | localVariableTable => "local_variable_table"
  | localVariableTypeTable => "local_variable_type_table"
  | classes => "classes"
  | bootstrapMethods => "bootstrap_methods"
  | parameters => "parameters"

/-- The slot with a given name. -/
def ofName? (name : String) : Option Slot :=
  all.find? fun s => s.name == name

end Slot

end ClassFile
