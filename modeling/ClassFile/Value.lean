/-
**Literal values.**

The operands of instructions, the arguments of attributes and of their rows, and the content of
constants.  Nothing in a value is resolved: a label is a name, and a constant is the literal
itself.

Main definitions:

* `Value` — numbers, strings, label names, local variables and lists of values;
* `Value.asStr?`, `Value.asInt?` — the text and the number in a value, if it has one;
* `Value.ofBool`, `Value.ofFloat32` — truth values are written as the numbers one and zero, and
  single precision is widened, which is exact;
* `BEq Value` — equality part by part, where floating-point numbers compare as numbers: a NaN
  differs from itself, and the two zeros are equal.
-/

set_option relaxedAutoImplicit false
set_option autoImplicit false

namespace ClassFile

/-- A literal value. -/
inductive Value
  /-- A whole number. -/
  | int (n : Int64)
  /-- A floating-point number. -/
  | float (x : Float)
  /-- A string. -/
  | str (s : String)
  /-- The name of a label in the code around. -/
  | label (name : String)
  /-- The index of a local variable. -/
  | localVar (index : UInt16)
  /-- Several values. -/
  | list (items : List Value)

namespace Value

/-- A truth value is the number one or zero. -/
def ofBool (b : Bool) : Value :=
  .int (if b then 1 else 0)

/-- A number of single precision, widened. -/
def ofFloat32 (x : Float32) : Value :=
  .float x.toFloat

/-- The text of a string or of a label. -/
def asStr? : Value → Option String
  | str s => some s
  | label name => some name
  | _ => none

/-- The number of a whole number or of a local variable. -/
def asInt? : Value → Option Int64
  | int n => some n
  | localVar index => some index.toUInt64.toInt64
  | _ => none

mutual

/-- Equality of values, with floating-point numbers compared as numbers. -/
def same : Value → Value → Bool
  | int m, int n => m == n
  | float x, float y => x == y
  | str s, str t => s == t
  | label s, label t => s == t
  | localVar i, localVar j => i == j
  | list vs, list ws => sameAll vs ws
  | _, _ => false
termination_by structural v => v

/-- Equality of lists of values. -/
def sameAll : List Value → List Value → Bool
  | [], [] => true
  | v :: vs, w :: ws => same v w && sameAll vs ws
  | _, _ => false
termination_by structural vs => vs

end

instance : BEq Value where
  beq := same

end Value

end ClassFile
