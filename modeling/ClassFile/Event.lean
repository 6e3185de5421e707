/-
**Events.**

What is worth reporting while a class is assembled.  An event records what happened; its level and
its wording are functions of it.

Main definitions:

* `Event` — what is reported;
* `Event.level`, `Event.message` — how important an event is, and how it is worded.
-/

import ClassFile.Refusal

set_option relaxedAutoImplicit false
set_option autoImplicit false

namespace ClassFile

/-- What is reported. -/
inductive Event
  /-- A holder took a component into a slot. -/
  | attached (component : Scope) (slot : Slot) (holder : Scope)
  /-- A holder refused a component. -/
  | rejected (component : Scope) (holder : Scope) (reason : Reason)
  /-- Some components declared inside a component did not stay in it. -/
  | escaped (count : Nat) (component : Scope)
  /-- A class is built from a number of declarations. -/
  | building (name : String) (declarations : Nat)
  /-- A class with so many methods, fields and constants is edited by a number of declarations. -/
  | editing (name : String) (methods fields constants declarations : Nat)
  /-- A class is complete. -/
  | finished (name : String)
  deriving DecidableEq

/-- How important an event is. -/
inductive Level
  | debug
  | trace
  deriving DecidableEq

/-- The name of a level. -/
def Level.text : Level → String
  | .debug => "DEBUG"
  | .trace => "TRACE"

namespace Event

/-- Single offers are traced; what concerns a whole script or component is for debugging. -/
def level : Event → Level
  | attached _ _ _ => .trace
  | rejected _ _ _ => .trace
  | escaped _ _ => .debug
  | building _ _ => .debug
  | editing _ _ _ _ _ => .debug
  | finished _ => .debug

/-- The wording of an event. -/
def message : Event → String
  | attached component slot holder =>
      "Attached " ++ component.text ++ " to `" ++ slot.name ++ "` of " ++ holder.text
  | rejected component holder reason =>
      holder.text ++ " rejected " ++ component.text ++ " (" ++ reason.text ++ ")"
  | escaped count component =>
      toString count ++ " component(s) bubble out of " ++ component.text
  | building name declarations =>
      "Building class `" ++ name ++ "` from " ++ toString declarations ++ " unit(s)"
  | editing name methods fields constants declarations =>
      "Editing class `" ++ name ++ "` (" ++ toString methods ++ " method(s), " ++
        toString fields ++ " field(s), " ++ toString constants ++ " constant(s)) with " ++
        toString declarations ++ " unit(s)"
  | finished name =>
      "Finished class `" ++ name ++ "`"

/-- An event as a line: its level and its message. -/
def text (e : Event) : String :=
  e.level.text ++ " " ++ e.message

end Event

end ClassFile
