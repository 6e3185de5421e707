/-
**The schema of class files.**

Two tables say which attributes and which table rows there are, what they take, where they may
stand, and which slots an attribute brings with it.  Together with the instruction table they are
all that the library knows about the shape of class files.

Main definitions:

* `AttributeKind.row` — the attributes: name, scopes of the holders, fields, and tables;
* `EntryKind.row` — the rows: name, slot, the attribute that owns the slot, and fields;
* `AttributeKind.all`, `EntryKind.all`, `AttributeKind.ofName?`, `EntryKind.ofName?`;
* `Scope.text`, `Placement.text` — how scopes and placements are shown.

Main results:

* `EntryKind.slot_mem_tables` — the slot of a row is a table of the attribute that owns it.
-/

import ClassFile.Scope

set_option relaxedAutoImplicit false
set_option autoImplicit false

namespace ClassFile

/-! ### Attributes -/

/-- What the schema says of a kind of attributes. -/
structure AttributeKind.Row where
  /-- The name in the class file. -/
  name : String
  /-- The scopes of the nodes that may hold the attribute. -/
  parents : List Scope
  /-- The names of its fields, each of which takes any value. -/
  fields : List String
  /-- The slots it has besides the one for nested attributes. -/
  tables : List Slot

namespace AttributeKind

/-- The table of attributes. -/
def row : AttributeKind → Row
  | constantValue => ⟨"ConstantValue", [.field], ["value"], []⟩
  | code => ⟨"Code", [.method], ["max_stack", "max_locals"], [.code, .exceptionTable]⟩
  | stackMapTable => ⟨"StackMapTable", [.code], [], []⟩
  | exceptions => ⟨"Exceptions", [.method], ["exceptions"], []⟩
  | innerClasses => ⟨"InnerClasses", [.root], [], [.classes]⟩
  | enclosingMethod => ⟨"EnclosingMethod", [.root], ["class", "method"], []⟩
  | synthetic => ⟨"Synthetic", [.root, .method, .field], [], []⟩
  | signature => ⟨"Signature", [.root, .method, .field], ["signature"], []⟩
  | sourceFile => ⟨"SourceFile", [.root], ["source_file"], []⟩
  | sourceDebugExtension => ⟨"SourceDebugExtension", [.root], ["debug_extension"], []⟩
  | lineNumberTable => ⟨"LineNumberTable", [.code], [], [.lineNumberTable]⟩
  | localVariableTable => ⟨"LocalVariableTable", [.code], [], [.localVariableTable]⟩
  | localVariableTypeTable => ⟨"LocalVariableTypeTable", [.code], [], [.localVariableTypeTable]⟩
  | deprecated => ⟨"Deprecated", [.root, .method, .field], [], []⟩
  | runtimeVisibleAnnotations =>
      ⟨"RuntimeVisibleAnnotations", [.root, .method, .field], ["annotations"], []⟩
  | runtimeInvisibleAnnotations =>
      ⟨"RuntimeInvisibleAnnotations", [.root, .method, .field], ["annotations"], []⟩
  | runtimeVisibleParameterAnnotations =>
      ⟨"RuntimeVisibleParameterAnnotations", [.method], ["parameter_annotations"], []⟩
  | runtimeInvisibleParameterAnnotations =>
      ⟨"RuntimeInvisibleParameterAnnotations", [.method], ["parameter_annotations"], []⟩
  | runtimeVisibleTypeAnnotations =>
      ⟨"RuntimeVisibleTypeAnnotations", [.root, .method, .field, .code], ["annotations"], []⟩
  | runtimeInvisibleTypeAnnotations =>
      ⟨"RuntimeInvisibleTypeAnnotations", [.root, .method, .field, .code], ["annotations"], []⟩
  | annotationDefault => ⟨"AnnotationDefault", [.method], ["default_value"], []⟩
  | bootstrapMethods => ⟨"BootstrapMethods", [.root], [], [.bootstrapMethods]⟩
  | methodParameters => ⟨"MethodParameters", [.method], [], [.parameters]⟩

/-- The name of an attribute in the class file. -/
def name (k : AttributeKind) : String :=
  k.row.name

/-- The scopes of the nodes that may hold an attribute. -/
def parents (k : AttributeKind) : List Scope :=
  k.row.parents

/-- The names of the fields of an attribute. -/
def fields (k : AttributeKind) : List String :=
  k.row.fields

/-- The fields of an attribute as operands, each of which takes any value. -/
def operands (k : AttributeKind) : List Operand :=
  k.fields.map fun name => ⟨name, .value⟩

/-- The slots of an attribute besides the one for nested attributes. -/
def tables (k : AttributeKind) : List Slot :=
  k.row.tables

/-- All kinds of attributes, in the order of the table. -/
def all : List AttributeKind :=
  [constantValue, code, stackMapTable, exceptions, innerClasses, enclosingMethod, synthetic,
   signature, sourceFile, sourceDebugExtension, lineNumberTable, localVariableTable,
   localVariableTypeTable, deprecated, runtimeVisibleAnnotations, runtimeInvisibleAnnotations,
   runtimeVisibleParameterAnnotations, runtimeInvisibleParameterAnnotations,
   runtimeVisibleTypeAnnotations, runtimeInvisibleTypeAnnotations, annotationDefault,
   bootstrapMethods, methodParameters]

theorem mem_all (k : AttributeKind) : k ∈ all := by
  cases k <;> decide

/-- The kind of attributes with a given name in the class file. -/
def ofName? (name : String) : Option AttributeKind :=
  all.find? fun k => k.name == name

end AttributeKind

/-! ### Rows of attributes -/

/-- What the schema says of a kind of rows. -/
structure EntryKind.Row where
  name : String
  /-- The slot the row goes into. -/
  slot : Slot
  /-- The attribute that has the slot. -/
  owner : AttributeKind
  operands : List Operand

namespace EntryKind

/-- The table of rows. -/
def row : EntryKind → Row
  | exception =>
      ⟨"exception", .exceptionTable, .code,
       [⟨"start", .label⟩, ⟨"end", .label⟩, ⟨"handler", .label⟩, ⟨"catch_type", .value⟩]⟩
  | lineNumber =>
      ⟨"line_number", .lineNumberTable, .lineNumberTable, [⟨"start", .label⟩, ⟨"line", .value⟩]⟩
  | localVariable =>
      ⟨"local_variable", .localVariableTable, .localVariableTable,
       [⟨"start", .label⟩, ⟨"end", .label⟩, ⟨"name", .value⟩, ⟨"descriptor", .value⟩,
        ⟨"index", .localVar⟩]⟩
  | localVariableType =>
      ⟨"local_variable_type", .localVariableTypeTable, .localVariableTypeTable,
       [⟨"start", .label⟩, ⟨"end", .label⟩, ⟨"name", .value⟩, ⟨"signature", .value⟩,
        ⟨"index", .localVar⟩]⟩
  | innerClass =>
      ⟨"inner_class", .classes, .innerClasses,
       [⟨"inner_class", .value⟩, ⟨"outer_class", .value⟩, ⟨"inner_name", .value⟩,
        ⟨"access_flags", .value⟩]⟩
  | bootstrapMethod =>
      ⟨"bootstrap_method", .bootstrapMethods, .bootstrapMethods,
       [⟨"method_handle", .value⟩, ⟨"arguments", .value⟩]⟩
  | methodParameter =>
      ⟨"method_parameter", .parameters, .methodParameters,
       [⟨"name", .value⟩, ⟨"access_flags", .value⟩]⟩

/-- The name of a kind of rows. -/
def name (k : EntryKind) : String :=
  k.row.name

/-- The slot that rows of a kind go into. -/
def slot (k : EntryKind) : Slot :=
  k.row.slot

/-- The scopes of the nodes that may hold rows of a kind: the one attribute that has their slot. -/
def parents (k : EntryKind) : List Scope :=
  [.attr k.row.owner]

/-- The operands of a row. -/
def operands (k : EntryKind) : List Operand :=
  k.row.operands

/-- The names of the fields of a row. -/
def fields (k : EntryKind) : List String :=
  k.operands.map Operand.name

/-- All kinds of rows, in the order of the table. -/
def all : List EntryKind :=
  [exception, lineNumber, localVariable, localVariableType, innerClass, bootstrapMethod,
   methodParameter]

theorem mem_all (k : EntryKind) : k ∈ all := by
  cases k <;> decide

/-- The kind of rows with a given name. -/
def ofName? (name : String) : Option EntryKind :=
  all.find? fun k => k.name == name

/-- The slot of a row is a table of the attribute that owns it. -/
theorem slot_mem_tables (k : EntryKind) : k.slot ∈ k.row.owner.tables := by
  cases k <;> decide

end EntryKind

/-! ### Scopes and placements shown -/

/-- How a scope is shown: the name of an attribute or a row, the mnemonic of an instruction, and a
word for all else. -/
def Scope.text : Scope → String
  | .root => "class"
  | .method => "method"
  | .field => "field"
  | .constant => "constant"
  | .label => "label"
  | .attr kind => kind.name
  | .instruction opcode => opcode.mnemonic
  | .entry kind => kind.name

/-- How a placement is shown: what the component is, and what it asks for. -/
def Placement.text (p : Placement) : String :=
  p.scope.text ++ " (wants `" ++ p.slot.name ++ "` in one of [" ++
    ", ".intercalate (p.parents.map Scope.text) ++ "])"

end ClassFile
