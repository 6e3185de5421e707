/-
**Assembling classes.**

A class is assembled from a script in full or not at all.  What found no place, in the order of the
script, is the error.

Main definitions:

* `PlacementError`, `PlacementError.message` — the strays of a class, and how they are shown;
* `Class.build` — a fresh class from a script;
* `Class.edit` — the same for a class that has contents, which keeps them in front;
* `sameAssembly` — equality of two results.
-/

import ClassFile.Placing

set_option relaxedAutoImplicit false
set_option autoImplicit false

namespace ClassFile

/-! ### The error -/

/-- The components of a script that found no place in a class. -/
structure PlacementError where
  className : String
  /-- The strays, in the order of the script. -/
  unplaced : List Stray

/-- The scopes of the components without a place. -/
def PlacementError.scopes (e : PlacementError) : List Scope :=
  e.unplaced.map fun s => s.component.scope

/-- The wording of the error, with each stray and its trail. -/
def PlacementError.message (e : PlacementError) : String :=
  "could not place " ++ toString e.unplaced.length ++ " component(s) in class `" ++ e.className ++
    "`: " ++ "; ".intercalate (e.unplaced.map Stray.text)

instance : BEq PlacementError where
  beq e e' := e.className == e'.className && e.unplaced == e'.unplaced

/-! ### Assembling -/

/-- The result of assembling a class, and the events on the way. -/
structure Assembly where
  result : Except PlacementError Class
  log : List Event

/-- Places a script into a class, all or nothing, after announcing it. -/
def Class.assemble (settings : Settings) (announcement : Event) (k : Class) (script : Script) :
    Assembly :=
  let r := Script.place settings script k
  if r.strays.isEmpty then
    ⟨.ok r.holder, announcement :: r.log ++ [.finished r.holder.name]⟩
  else
    ⟨.error ⟨r.holder.name, r.strays⟩, announcement :: r.log⟩

/-- Builds a class from a script. -/
def Class.build (settings : Settings) (k : Class) (script : Script) : Assembly :=
  k.assemble settings (.building k.name script.length) script

/-- Edits a class by a script: what is new comes after what each slot holds. -/
def Class.edit (settings : Settings) (k : Class) (script : Script) : Assembly :=
  k.assemble settings
    (.editing k.name k.methods.length k.fields.length k.constantPool.length script.length) script

/-- Two results are the same: equal classes, or equal errors. -/
def sameAssembly : Except PlacementError Class → Except PlacementError Class → Bool
  | .ok k, .ok k' => k == k'
  | .error e, .error e' => e == e'
  | _, _ => false

end ClassFile
