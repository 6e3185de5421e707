/-
**Sessions.**

A session works on one class over many steps.  Between steps it keeps the class and the strays of
the last placement.

Main definitions:

* `Session`, `Session.start` — the class and the strays;
* `Step`, `Report` — what may be done, and what it shows;
* `Session.perform` — one step; `Session.run` — all steps of a list, in order.

A step that fails to assemble its script leaves the class as it was.

Main results:

* `Session.getElem?_run` — each step of a list is done in the session after those before it;
* `Session.getLastD_run` — a run ends in the session after all of its steps.
-/

import ClassFile.Assembly
import ClassFile.Query

set_option relaxedAutoImplicit false
set_option autoImplicit false

namespace ClassFile

/-- A class at work, and the strays of the last placement. -/
structure Session where
  root : Class
  strays : List Stray

/-- A session with a class and no strays. -/
def Session.start (k : Class) : Session :=
  ⟨k, []⟩

/-- What may be done in a session. -/
inductive Step
  /-- Build from a script. -/
  | build (settings : Settings) (script : Script)
  /-- Edit by a script. -/
  | edit (settings : Settings) (script : Script)
  /-- Place a script, and keep what it leaves over. -/
  | place (settings : Settings) (script : Script)
  /-- Place what was left over once more. -/
  | retry (settings : Settings)
  /-- Offer one component to the class. -/
  | attach (c : Component)
  /-- Ask. -/
  | query (q : Query)

/-- What a step shows. -/
inductive Report
  | assembled (result : Except PlacementError Class)
  | placed (root : Class) (strays : List Stray)
  | attached (root : Class) (residual : Option Component)
  | answered (answer : Option Answer)

/-- A step that was done: the session after it, what it shows, and the events on the way. -/
structure Performed where
  session : Session
  report : Report
  log : List Event

namespace Session

/-- The session after assembling: with the new class, or as it was. -/
def assembled (s : Session) (a : Assembly) : Performed where
  session :=
    match a.result with
    | .ok k => { s with root := k }
    | .error _ => s
  report := .assembled a.result
  log := a.log

/-- The session after placing a script, of which it keeps the strays. -/
def placed (r : Outcome Class) : Performed where
  session := ⟨r.holder, r.strays⟩
  report := .placed r.holder r.strays
  log := r.log

/-- Does a step. -/
def perform (s : Session) : Step → Performed
  | .build settings script => s.assembled (s.root.build settings script)
  | .edit settings script => s.assembled (s.root.edit settings script)
  | .place settings script => placed (Script.place settings script s.root)
  | .retry settings => placed (Script.place settings (s.strays.map .stray) s.root)
  | .attach c =>
      let a := ClassFile.attach s.root c
      ⟨{ s with root := a.holder }, .attached a.holder a.residual, a.log⟩
  | .query q => ⟨s, .answered (s.root.answer? q), []⟩

/-- Does the steps of a list, in order. -/
def run (s : Session) : List Step → List Performed
  | [] => []
  | step :: steps =>
      let p := s.perform step
      p :: run p.session steps

/-- The session after the steps of a list. -/
def after (s : Session) (steps : List Step) : Session :=
  steps.foldl (fun s step => (s.perform step).session) s

/-- Each step of a list is done in the session after those before it. -/
theorem getElem?_run (s : Session) (steps : List Step) (i : Nat) :
    (s.run steps)[i]? = steps[i]?.map (s.after (steps.take i)).perform := by
  induction steps generalizing s i with
  | nil => rfl
  | cons step steps ih =>
      cases i with
      | zero => rfl
      | succ i => exact ih (s.perform step).session i

/-- The session that a run ends in is the one after all of its steps. -/
theorem getLastD_run (s : Session) (steps : List Step) :
    ((s.run steps).map Performed.session).getLastD s = s.after steps := by
  induction steps generalizing s with
  | nil => rfl
  | cons step steps ih => exact (List.getLastD_cons ..).trans (ih (s.perform step).session)

end Session

end ClassFile
