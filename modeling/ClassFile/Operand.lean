/-
**Operands.**

The rows of the instruction table and of the tables of attributes list what a row takes, in order:
the name of a label, a local variable, or any value.  A list of arguments is typed by the list of
operands it answers, so no row can be given too few arguments, too many, or one of the wrong kind.

Main definitions:

* `OperandKind`, `Operand` — what a row takes at one place, and its name;
* `OperandKind.Arg`, `OperandKind.toValue` — the arguments of a kind, and the value each becomes;
* `Arguments`, `Arguments.values` — an argument for each operand of a list, and their values.
-/

import ClassFile.Value

set_option relaxedAutoImplicit false
set_option autoImplicit false

namespace ClassFile

/-- What may stand for an operand. -/
inductive OperandKind
  /-- The name of a label. -/
  | label
  /-- The index of a local variable. -/
  | localVar
  /-- Any value. -/
  | value
  deriving DecidableEq

/-- An operand of a row: its name, and what may stand for it. -/
structure Operand where
  name : String
  kind : OperandKind
  deriving DecidableEq

/-- The arguments for an operand of a kind. -/
def OperandKind.Arg : OperandKind → Type
  | .label => String
  | .localVar => UInt16
  | .value => Value

/-- The value that an argument becomes. -/
def OperandKind.toValue : (k : OperandKind) → k.Arg → Value
  | .label, name => .label name
  | .localVar, index => .localVar index
  | .value, v => v

/-- One argument for each operand of a list. -/
def Arguments : List Operand → Type
  | [] => Unit
  | o :: os => o.kind.Arg × Arguments os

/-- The values of a list of arguments, in order. -/
def Arguments.values : (os : List Operand) → Arguments os → List Value
  | [], () => []
  | o :: os, (a, as) => o.kind.toValue a :: Arguments.values os as

end ClassFile
