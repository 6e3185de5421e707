/-
**Occurrences and their destinations.**

Where a component goes can be read off a script without placing anything.  Each component that a
script declares, at any depth, occurs inside a chain of holders: the components of the blocks
around it, from the innermost outwards, and last the holder that the script is for.  Its
destination is the first holder of the chain that takes it, and the verdicts on the way depend only
on the shapes of the holders as they were declared.

Holders are numbered from the outside, so that the holder the script is for has level zero, and the
component of a block has the number of holders around it.

Main definitions:

* `Occurrence` — a component as it was declared and as it ends up, its trail so far, and its chain;
* `Occurrence.refusals`, `Occurrence.level?` — the holders that refuse it, and the level of the one
  that takes it, if any does;
* `Script.occurrences` — the occurrences of a script, in the order in which they are declared;
* `landedAt`, `homeless` — the components with a destination at some level, and those without.

Main results:

* `Script.map_declared_occurrences` — the occurrences are the components of the script, one for one.
-/

import ClassFile.Placing

set_option relaxedAutoImplicit false
set_option autoImplicit false

namespace ClassFile

/-! ### One occurrence -/

/-- A component that a script declares at some place. -/
structure Occurrence where
  /-- The component as it is declared. -/
  declared : Component
  /-- The component with what its body adds to it. -/
  final : Component
  /-- The refusals it comes with. -/
  carried : List Refusal
  /-- The shapes of the holders around it, the innermost first. -/
  chain : List Shape

namespace Occurrence

/-- The refusals of the holders before the first that takes the component. -/
def refusals (o : Occurrence) : List Refusal :=
  refuse o.chain
where
  /-- The refusals of the holders of a chain before the first that takes the component. -/
  refuse : List Shape → List Refusal
    | [] => []
    | f :: fs =>
        match f.refusal? o.declared.placement with
        | none => []
        | some reason => ⟨f.scope, reason⟩ :: refuse fs

/-- The level of the first holder that takes the component. -/
def level? (o : Occurrence) : Option Nat :=
  find o.chain
where
  /-- The level of the first holder of a chain that takes the component. -/
  find : List Shape → Option Nat
    | [] => none
    | f :: fs => if (f.refusal? o.declared.placement).isNone then some fs.length else find fs

/-- The component without a home, with the trail that it has then. -/
def stray (settings : Settings) (o : Occurrence) : Stray :=
  ⟨o.final, o.carried ++ if settings.keepTrails then o.refusals else []⟩

end Occurrence

/-- The components whose destination has the given level, as they end up, in order. -/
def landedAt (level : Nat) (os : List Occurrence) : List Component :=
  (os.filter fun o => o.level? = some level).map Occurrence.final

/-- The occurrences without a destination, in order. -/
def homeless (os : List Occurrence) : List Occurrence :=
  os.filter fun o => o.level? = none

/-! ### The occurrences of a script -/

mutual

/-- The occurrences of a declaration inside a chain of holders. -/
def Decl.occurrences (d : Decl) (chain : List Shape) : List Occurrence :=
  match d with
  | .nothing => []
  | .label name => [⟨Component.label name, Component.label name, [], chain⟩]
  | .component c => [⟨c, c, [], chain⟩]
  | .stray s => [⟨s.component, s.component, s.trail, chain⟩]
  | .group ds => Script.occurrences ds chain
  | .block c ds =>
      let inside := Script.occurrences ds (shape c.node :: chain)
      let final := ⟨c.placement, addAll c.node (landedAt chain.length inside)⟩
      ⟨c, final, [], chain⟩ :: inside
termination_by structural d

/-- The occurrences of a script inside a chain of holders. -/
def Script.occurrences (ds : Script) (chain : List Shape) : List Occurrence :=
  match ds with
  | [] => []
  | d :: ds => Decl.occurrences d chain ++ Script.occurrences ds chain
termination_by structural ds

end

mutual

/-- A declaration's occurrences are its components. -/
theorem Decl.map_declared_occurrences (d : Decl) (chain : List Shape) :
    (d.occurrences chain).map Occurrence.declared = d.components := by
  cases d with
  | nothing => rfl
  | label name => rfl
  | component c => rfl
  | stray s => rfl
  | group ds => exact Script.map_declared_occurrences ds chain
  | block c ds =>
      exact congrArg (c :: ·) (Script.map_declared_occurrences ds (shape c.node :: chain))
termination_by structural d

/-- A script's occurrences are its components, in the same order. -/
theorem Script.map_declared_occurrences (ds : Script) (chain : List Shape) :
    (ds.occurrences chain).map Occurrence.declared = ds.components := by
  cases ds with
  | nil => rfl
  | cons d ds =>
      simp only [Script.occurrences, Script.components, List.map_append]
      rw [Decl.map_declared_occurrences d chain, Script.map_declared_occurrences ds chain]
termination_by structural ds

end

end ClassFile
