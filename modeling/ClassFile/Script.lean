/-
**Scripts.**

A class is described by a script: a list of declarations.  A declaration names a component to be
placed, and may hold a script of its own, either inside a component or merely as a group.

Main definitions:

* `Decl`, `Script` — declarations and scripts;
* `Script.components` — all components that a script declares;
* `BEq Decl` — equality of declarations part by part.
-/

import ClassFile.Refusal
import ClassFile.Tree.Equality

set_option relaxedAutoImplicit false
set_option autoImplicit false

namespace ClassFile

/-- A declaration. -/
inductive Decl
  /-- No declaration. -/
  | nothing
  /-- A label, by its name alone. -/
  | label (name : String)
  /-- A component as it is. -/
  | component (c : Component)
  /-- Several declarations in place of one. -/
  | group (script : List Decl)
  /-- A component, and what is declared inside it. -/
  | block (c : Component) (body : List Decl)
  /-- A component that was left over before, with the refusals it has met. -/
  | stray (s : Stray)

/-- A script is a list of declarations. -/
abbrev Script : Type :=
  List Decl

/-- The declaration that stands for an optional one. -/
def Decl.ofOption (d : Option Decl) : Decl :=
  d.getD .nothing

/-! ### The components of a script -/

mutual

/-- The components of a declaration, at any depth and in order; a label counts as its component. -/
def Decl.components (d : Decl) : List Component :=
  match d with
  | .nothing => []
  | .label name => [Component.label name]
  | .component c => [c]
  | .stray s => [s.component]
  | .group ds => Script.components ds
  | .block c ds => c :: Script.components ds
termination_by structural d

/-- The components of a script, at any depth and in order. -/
def Script.components (ds : Script) : List Component :=
  match ds with
  | [] => []
  | d :: ds => Decl.components d ++ Script.components ds
termination_by structural ds

end

/-- Strays that are declared again are the components of their script. -/
theorem Script.components_map_stray (ss : List Stray) :
    Script.components (ss.map .stray) = ss.map Stray.component := by
  induction ss with
  | nil => rfl
  | cons s ss ih => exact congrArg (s.component :: ·) ih

/-! ### Equality -/

instance : BEq Stray where
  beq s s' := s.component == s'.component && s.trail == s'.trail

mutual

/-- Equality of declarations. -/
def Decl.same : Decl → Decl → Bool
  | .nothing, .nothing => true
  | .label name, .label name' => name == name'
  | .component c, .component c' => c == c'
  | .group ds, .group ds' => Script.same ds ds'
  | .block c ds, .block c' ds' => c == c' && Script.same ds ds'
  | .stray s, .stray s' => s == s'
  | _, _ => false
termination_by structural d => d

/-- Equality of scripts. -/
def Script.same : Script → Script → Bool
  | [], [] => true
  | d :: ds, d' :: ds' => Decl.same d d' && Script.same ds ds'
  | _, _ => false
termination_by structural ds => ds

end

instance : BEq Decl where
  beq := Decl.same

end ClassFile
