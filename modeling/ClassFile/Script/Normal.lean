/-
**Normal scripts.**

Much of a script is a matter of writing: empty declarations, groups, labels given by name alone,
and strays that have not been refused yet.  The normal form of a script spells all of this out.

Main definitions:

* `Script.normalize` — the normal form;
* `Decl.IsNormal`, `Script.IsNormal` — what is left: components, blocks, and strays with a trail.

Main results:

* `Script.isNormal_normalize` — a normal form is normal.
-/

import ClassFile.Script

set_option relaxedAutoImplicit false
set_option autoImplicit false

namespace ClassFile

mutual

/-- The declarations that a declaration stands for. -/
def Decl.normalize (d : Decl) : Script :=
  match d with
  | .nothing => []
  | .label name => [.component (Component.label name)]
  | .component c => [.component c]
  | .stray ⟨c, []⟩ => [.component c]
  | .stray s => [.stray s]
  | .group ds => Script.normalize ds
  | .block c ds => [.block c (Script.normalize ds)]
termination_by structural d

/-- The normal form of a script. -/
def Script.normalize (ds : Script) : Script :=
  match ds with
  | [] => []
  | d :: ds => Decl.normalize d ++ Script.normalize ds
termination_by structural ds

end

mutual

/-- The declaration is a component, a block with a normal body, or a stray that was refused. -/
inductive Decl.IsNormal : Decl → Prop
  | component (c : Component) : Decl.IsNormal (.component c)
  | block (c : Component) {ds : List Decl} (h : Script.IsNormal ds) : Decl.IsNormal (.block c ds)
  | stray (c : Component) (r : Refusal) (rs : List Refusal) : Decl.IsNormal (.stray ⟨c, r :: rs⟩)

/-- All declarations of the script are normal. -/
inductive Script.IsNormal : List Decl → Prop
  | nil : Script.IsNormal []
  | cons {d : Decl} {ds : List Decl} (hd : Decl.IsNormal d) (hds : Script.IsNormal ds) :
      Script.IsNormal (d :: ds)

end

theorem Script.IsNormal.append {ds es : Script} (hds : Script.IsNormal ds)
    (hes : Script.IsNormal es) : Script.IsNormal (ds ++ es) := by
  induction ds with
  | nil => exact hes
  | cons d ds ih =>
      cases hds with
      | cons hd hds => exact .cons hd (ih hds)

mutual

/-- What a declaration stands for is normal. -/
theorem Decl.isNormal_normalize (d : Decl) : Script.IsNormal (Decl.normalize d) := by
  cases d with
  | nothing => exact .nil
  | label name => exact .cons (.component _) .nil
  | component c => exact .cons (.component _) .nil
  | stray s =>
      obtain ⟨c, trail⟩ := s
      cases trail with
      | nil => exact .cons (.component _) .nil
      | cons r rs => exact .cons (.stray _ _ _) .nil
  | group ds => exact Script.isNormal_normalize ds
  | block c ds => exact .cons (.block c (Script.isNormal_normalize ds)) .nil
termination_by structural d

/-- A normal form is normal. -/
theorem Script.isNormal_normalize (ds : Script) : Script.IsNormal (Script.normalize ds) := by
  cases ds with
  | nil => exact .nil
  | cons d ds => exact (Decl.isNormal_normalize d).append (Script.isNormal_normalize ds)
termination_by structural ds

end

end ClassFile
