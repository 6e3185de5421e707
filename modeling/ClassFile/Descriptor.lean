/-
**Types and their descriptors.**

The types of fields, parameters and results, and the *descriptor* of a type: the short text by
which a class file names it.  An array type holds the type of its innermost elements and counts
its dimensions, so an array of arrays is one array type, never two nested ones.

Main definitions:

* `BaseType`, `BinaryName`, `ArrayType`, `FieldType`, `MethodDescriptor` — the types;
* `FieldType.array` — the type of the arrays with elements of a given type;
* `HasDescriptor` — what has a descriptor: one character for a base type, `L…;` for a class, a
  bracket for each dimension of an array, parenthesised parameters and then the result for a
  method, where `V` stands for no result.

Main results:

* `FieldType.chars_array` — the descriptor of an array type is a bracket and the descriptor of its
  elements, whether the elements are arrays or not.
-/

set_option relaxedAutoImplicit false
set_option autoImplicit false

namespace ClassFile

/-! ### Types -/

/-- The primitive types. -/
inductive BaseType
  | byte
  | char
  | double
  | float
  | int
  | long
  | short
  | boolean
  deriving DecidableEq

/-- The name of a class in its internal form, such as `java/lang/String`. -/
structure BinaryName where
  text : String
  deriving DecidableEq

/-- An array type over elements `ε` that are no arrays themselves: one dimension, and as many more
as it says. -/
structure ArrayType (ε : Type) where
  additionalDimensions : Nat
  elementType : ε
  deriving DecidableEq

/-- The number of dimensions of an array type, which is at least one. -/
def ArrayType.dimensions {ε : Type} (a : ArrayType ε) : Nat :=
  a.additionalDimensions + 1

/-- The type of a field, a parameter or a result. -/
inductive FieldType
  | base (type : BaseType)
  | object (name : BinaryName)
  | objectArray (type : ArrayType BinaryName)
  | baseArray (type : ArrayType BaseType)
  deriving DecidableEq

/-- The type of the arrays whose elements have the given type. -/
def FieldType.array : FieldType → FieldType
  | .base t => .baseArray ⟨0, t⟩
  | .object n => .objectArray ⟨0, n⟩
  | .objectArray a => .objectArray ⟨a.additionalDimensions + 1, a.elementType⟩
  | .baseArray a => .baseArray ⟨a.additionalDimensions + 1, a.elementType⟩

/-- The parameters and the result of a method; no result type means that nothing is returned. -/
structure MethodDescriptor where
  parameters : List FieldType
  returnType : Option FieldType
  deriving DecidableEq

/-! ### Descriptors -/

/-- What has a descriptor. -/
class HasDescriptor (α : Type) where
  /-- The characters of the descriptor. -/
  chars : α → List Char

/-- The descriptor of a type or a method. -/
def descriptor {α : Type} [HasDescriptor α] (x : α) : String :=
  String.ofList (HasDescriptor.chars x)

/-- The letter that stands for a primitive type. -/
def BaseType.letter : BaseType → Char
  | .byte => 'B'
  | .char => 'C'
  | .double => 'D'
  | .float => 'F'
  | .int => 'I'
  | .long => 'J'
  | .short => 'S'
  | .boolean => 'Z'

instance : HasDescriptor BaseType where
  chars t := [t.letter]

instance : HasDescriptor BinaryName where
  chars n := 'L' :: n.text.toList ++ [';']

instance {ε : Type} [HasDescriptor ε] : HasDescriptor (ArrayType ε) where
  chars a := List.replicate a.dimensions '[' ++ HasDescriptor.chars a.elementType

/-- The characters of the descriptor of a field type. -/
def FieldType.chars : FieldType → List Char
  | .base t => HasDescriptor.chars t
  | .object n => HasDescriptor.chars n
  | .objectArray a => HasDescriptor.chars a
  | .baseArray a => HasDescriptor.chars a

instance : HasDescriptor FieldType where
  chars := FieldType.chars

/-- The characters of a result: `V` if there is none. -/
def resultChars : Option FieldType → List Char
  | none => ['V']
  | some t => HasDescriptor.chars t

instance : HasDescriptor MethodDescriptor where
  chars m := '(' :: m.parameters.flatMap HasDescriptor.chars ++ ')' :: resultChars m.returnType

/-! ### Arrays -/

/-- The descriptor of an array type opens with a bracket, and the descriptor of its elements
follows. -/
theorem FieldType.chars_array (t : FieldType) : t.array.chars = '[' :: t.chars := by
  cases t <;> rfl

end ClassFile
