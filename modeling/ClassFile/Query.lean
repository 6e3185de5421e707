/-
**Queries.**

A query walks from a class down its tree, one selector at a time, and asks a question of what it
reaches.  A selector that finds nothing, or that makes no sense where it stands, ends the walk
without an answer.

Main definitions:

* `Target` — a class or a node of its tree, which is a holder either way;
* `Selector`, `Target.select?`, `Target.walk?` — the steps of a walk;
* `Question`, `Answer`, `Target.ask?` — what may be asked at the end;
* `Query`, `Class.answer?` — a walk and a question.
-/

import ClassFile.Tree.Lookup

set_option relaxedAutoImplicit false
set_option autoImplicit false

namespace ClassFile

/-! ### Targets -/

/-- A class or a node of its tree. -/
inductive Target
  | root (k : Class)
  | node (n : Node)

instance : Holder Target where
  scope
    | .root k => Holder.scope k
    | .node n => Holder.scope n
  slots
    | .root k => Holder.slots k
    | .node n => Holder.slots n
  vacated
    | .root k => .root (Holder.vacated k)
    | .node n => .node (Holder.vacated n)
  slot?
    | .root k, s => Holder.slot? k s
    | .node n, s => Holder.slot? n s
  push?
    | .root k, s, c => (Holder.push? k s c).map .root
    | .node n, s, c => (Holder.push? n s c).map .node

instance : LawfulHolder Target where
  slot?_eq
    | .root k, s => LawfulHolder.slot?_eq k s
    | .node n, s => LawfulHolder.slot?_eq n s
  slots_push?
    | .root k, s, c => by
        have key := LawfulHolder.slots_push? k s c
        simpa [Holder.push?, Holder.slots, Function.comp_def] using key
    | .node n, s, c => by
        have key := LawfulHolder.slots_push? n s c
        simpa [Holder.push?, Holder.slots, Function.comp_def] using key
  vacated_push? := by
    intro t t' s c h
    cases t with
    | root k =>
        obtain ⟨k', hk, rfl⟩ := Option.map_eq_some_iff.mp h
        exact congrArg Target.root (LawfulHolder.vacated_push? hk)
    | node n =>
        obtain ⟨n', hn, rfl⟩ := Option.map_eq_some_iff.mp h
        exact congrArg Target.node (LawfulHolder.vacated_push? hn)
  scope_vacated
    | .root k => LawfulHolder.scope_vacated k
    | .node n => LawfulHolder.scope_vacated n
  slots_vacated
    | .root k => LawfulHolder.slots_vacated k
    | .node n => LawfulHolder.slots_vacated n
  eq_of_vacated_of_slots := by
    intro t t' hv hs
    cases t <;> cases t' <;>
      simp only [Holder.vacated, reduceCtorEq, Target.root.injEq, Target.node.injEq] at hv
    · exact congrArg Target.root (LawfulHolder.eq_of_vacated_of_slots hv hs)
    · exact congrArg Target.node (LawfulHolder.eq_of_vacated_of_slots hv hs)

/-! ### Walks -/

/-- One step of a walk. -/
inductive Selector
  /-- The first method with a name. -/
  | method (name : String)
  /-- The first field with a name. -/
  | field (name : String)
  /-- The first constant with a label. -/
  | constant (label : String)
  /-- The first attribute of a kind. -/
  | attr (kind : AttributeKind)
  /-- The code of a method. -/
  | code
  /-- The component at a position of a slot. -/
  | child (slot : Slot) (position : Nat)
  deriving DecidableEq

/-- The node that a selector finds. -/
def Target.select? (t : Target) (s : Selector) : Option Node :=
  match t, s with
  | .root k, .method name => k.method? name
  | .root k, .field name => k.field? name
  | .root k, .constant label => k.constant? label
  | .node n, .code => n.code?
  | t, .attr kind => attribute? t kind
  | t, .child slot position => child? t slot position
  | _, _ => none

/-- What a walk reaches. -/
def Target.walk? (t : Target) : List Selector → Option Target
  | [] => some t
  | s :: path => (t.select? s).bind fun n => Target.walk? (.node n) path

/-! ### Questions -/

/-- What may be asked of a class or a node. -/
inductive Question
  /-- All of it. -/
  | itself
  /-- The components in a slot, if there is such a slot. -/
  | slot (slot : Slot)
  /-- The components in a slot of an attribute, none if there is no such slot. -/
  | components (slot : Slot)
  /-- The instructions and labels of an attribute. -/
  | instructions
  /-- The name of an attribute. -/
  | name
  /-- The argument of an attribute or a row, by the name of its field. -/
  | arg (field : String)
  /-- The descriptor of a method or a field. -/
  | descriptor
  /-- The name of a label. -/
  | labelName
  /-- The mnemonic of an instruction or a label. -/
  | mnemonic
  /-- The code of a method, or the number of an instruction. -/
  | code
  deriving DecidableEq

/-- The answer to a question. -/
inductive Answer
  | target (t : Target)
  | components (cs : List Component)
  | nodes (ns : List Node)
  | text (s : String)
  | number (n : UInt8)
  | value (v : Value)

/-- The answer of a node to a question that classes do not answer. -/
def Node.ask? (n : Node) (q : Question) : Option Answer :=
  match n, q with
  | .attr _ _ _ _, .components slot => some (.components (children n slot))
  | .attr _ _ _ _, .instructions => some (.nodes n.instructions)
  | .attr kind _ _ _, .name => some (.text kind.name)
  | _, .arg fieldName => (n.arg? fieldName).map .value
  | _, .descriptor => n.descriptor?.map .text
  | _, .labelName => n.labelName?.map .text
  | _, .mnemonic => n.mnemonic?.map .text
  | .method _ _, .code => n.code?.map fun code => .target (.node code)
  | .instruction _ _, .code => n.opcode?.map .number
  | _, _ => none

/-- The answer to a question. -/
def Target.ask? (t : Target) (q : Question) : Option Answer :=
  match q, t with
  | .itself, t => some (.target t)
  | .slot slot, t => (Holder.slot? t slot).map .components
  | q, .node n => n.ask? q
  | _, .root _ => none

/-- A walk from the class, and a question at its end. -/
structure Query where
  path : List Selector
  question : Question
  deriving DecidableEq

/-- The answer of a class to a query. -/
def Class.answer? (k : Class) (q : Query) : Option Answer :=
  ((Target.root k).walk? q.path).bind fun t => t.ask? q.question

end ClassFile
