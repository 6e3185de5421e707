/-
**Looking into class trees.**

Members and constants are found by name, attributes by kind, arguments by the name of their field.
Where several components would do, the first in its slot is meant.

Main definitions:

* `Class.method?`, `Class.field?`, `Class.constant?` — by name;
* `attribute?` — the first attribute of a kind in any holder; `Node.code?` is the code of a method;
* `child?` — by slot and position;
* `Node.arg?` — an argument of an attribute or a row by the name of its field;
* `Node.instructions`, `Node.labelName?`, `Node.mnemonic?`, `Node.opcode?`, `Node.descriptor?`.
-/

import ClassFile.Holder

set_option relaxedAutoImplicit false
set_option autoImplicit false

namespace ClassFile

/-! ### Kinds of nodes -/

/-- The node is a method with the given name. -/
def Node.isMethodNamed (name : String) : Node → Bool
  | .method header _ => header.name == name
  | _ => false

/-- The node is a field with the given name. -/
def Node.isFieldNamed (name : String) : Node → Bool
  | .field header _ => header.name == name
  | _ => false

/-- The node is a constant with the given label. -/
def Node.isConstantLabelled (name : String) : Node → Bool
  | .constant label _ _ => label == name
  | _ => false

/-- The node is an attribute of the given kind. -/
def Node.isAttributeOf (kind : AttributeKind) : Node → Bool
  | .attr k _ _ _ => k == kind
  | _ => false

/-- The node is an instruction or a label. -/
def Node.isInstruction : Node → Bool
  | .instruction _ _ => true
  | _ => false

/-- The first node of a list of components that passes a test. -/
def findNode? (test : Node → Bool) (cs : List Component) : Option Node :=
  (cs.map Component.node).find? test

/-! ### Children -/

section

variable {α : Type} [Holder α]

/-- The components in a slot, none if there is no such slot. -/
def children (h : α) (s : Slot) : List Component :=
  (Holder.slot? h s).getD []

/-- The child at a position of a slot. -/
def child? (h : α) (s : Slot) (position : Nat) : Option Node :=
  ((children h s)[position]?).map Component.node

/-- The first attribute of a kind. -/
def attribute? (h : α) (kind : AttributeKind) : Option Node :=
  findNode? (Node.isAttributeOf kind) (children h .attributes)

end

/-- The first method with a given name. -/
def Class.method? (k : Class) (name : String) : Option Node :=
  findNode? (Node.isMethodNamed name) k.methods

/-- The first field with a given name. -/
def Class.field? (k : Class) (name : String) : Option Node :=
  findNode? (Node.isFieldNamed name) k.fields

/-- The first constant with a given label. -/
def Class.constant? (k : Class) (name : String) : Option Node :=
  findNode? (Node.isConstantLabelled name) k.constantPool

/-- The code of a method. -/
def Node.code? : Node → Option Node
  | n@(.method _ _) => attribute? n .code
  | _ => none

/-- The instructions and labels in the code of an attribute. -/
def Node.instructions (n : Node) : List Node :=
  ((children n .code).map Component.node).filter Node.isInstruction

/-! ### What a node says of itself -/

/-- The argument of an attribute or of a row for the field with a given name. -/
def Node.arg? (n : Node) (field : String) : Option Value :=
  match n with
  | .attr kind args _ _ => (kind.fields.idxOf? field).bind fun i => args[i]?
  | .entry kind args => (kind.fields.idxOf? field).bind fun i => args[i]?
  | _ => none

/-- The descriptor of a method, whose parameters count without their names. -/
def MethodHeader.descriptor (m : MethodHeader) : MethodDescriptor :=
  ⟨m.parameters.map Prod.fst, m.returnType⟩

/-- The text of the descriptor of a method or a field. -/
def Node.descriptor? : Node → Option String
  | .method header _ => some (descriptor header.descriptor)
  | .field header _ => some (descriptor header.type)
  | _ => none

/-- The name of a label. -/
def Node.labelName? : Node → Option String
  | .instruction none (.label name :: _) => some name
  | _ => none

/-- The mnemonic of an instruction or a label. -/
def Node.mnemonic? : Node → Option String
  | n@(.instruction _ _) => some n.scope.text
  | _ => none

/-- The number of an instruction. -/
def Node.opcode? : Node → Option UInt8
  | .instruction (some opcode) _ => some opcode.code
  | _ => none

end ClassFile
