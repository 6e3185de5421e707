/-
**Equality of class trees.**

Two trees are equal when they agree part by part: placements, headers, flags, arguments and the
components in each slot, in order.  Values compare as values do, so that floating-point numbers
compare as numbers.

Main definitions:

* `BEq Node`, `BEq Component`, `BEq Class` — the comparisons;
* `Node.same`, `Component.same`, `Component.sameAll`, `sameTables` — the mutual recursion they
  run.
-/

import ClassFile.Tree

set_option relaxedAutoImplicit false
set_option autoImplicit false

namespace ClassFile

mutual

/-- Equality of nodes. -/
def Node.same : Node → Node → Bool
  | .method h as, .method h' as' => h == h' && Component.sameAll as as'
  | .field h as, .field h' as' => h == h' && Component.sameAll as as'
  | .attr k vs as ts, .attr k' vs' as' ts' =>
      k == k' && vs == vs' && Component.sameAll as as' && sameTables ts ts'
  | .instruction o vs, .instruction o' vs' => o == o' && vs == vs'
  | .constant l v vs, .constant l' v' vs' => l == l' && v == v' && vs == vs'
  | .entry k vs, .entry k' vs' => k == k' && vs == vs'
  | _, _ => false
termination_by structural n => n

/-- Equality of components. -/
def Component.same : Component → Component → Bool
  | ⟨p, n⟩, ⟨p', n'⟩ => p == p' && Node.same n n'
termination_by structural c => c

/-- Equality of lists of components. -/
def Component.sameAll : List Component → List Component → Bool
  | [], [] => true
  | c :: cs, c' :: cs' => Component.same c c' && Component.sameAll cs cs'
  | _, _ => false
termination_by structural cs => cs

/-- Equality of tables. -/
def sameTables : List (Slot × List Component) → List (Slot × List Component) → Bool
  | [], [] => true
  | (s, cs) :: ts, (s', cs') :: ts' => s == s' && Component.sameAll cs cs' && sameTables ts ts'
  | _, _ => false
termination_by structural ts => ts

end

instance : BEq Node where
  beq := Node.same

instance : BEq Component where
  beq := Component.same

instance : BEq Class where
  beq k k' :=
    k.name == k'.name && k.flags == k'.flags && k.methods == k'.methods && k.fields == k'.fields &&
      k.constantPool == k'.constantPool && k.attributes == k'.attributes

end ClassFile
