/-
**Classes only grow.**

Whatever is done in a session, the class at work only gets more at the end of its slots.  What
stands in it stays where it is and as it is, with all that is below it.  So whatever a walk from
the class has found it finds again at any later time, and a look-up by name or by kind that found
nothing can find only what came in since.

Main definitions:

* `appended` — what stands in a slot after all that was there before;
* `Selector.sought?` — what a selector by name or by kind looks for in a class;
* `AppendOnly` — what is known of a class and of the same class at a later time.

Main results:

* `Session.root_perform`, `Session.root_after` — one step, and all steps, only add components to
  the class;
* `Target.walk?_addAll` — a walk that reaches a node reaches the same node in the grown class;
* `session_appendOnly` — **the history of a class is append-only, and look-ups are stable**.
-/

import ClassFile.Proofs.Kept
import ClassFile.Proofs.LexicalRule

set_option relaxedAutoImplicit false
set_option autoImplicit false

namespace ClassFile

/-! ### Steps only add -/

theorem addAll_append {α : Type} [Holder α] (h : α) (cs ds : List Component) :
    addAll h (cs ++ ds) = addAll (addAll h cs) ds :=
  List.foldl_append

/-- A step adds some components to the class, or none. -/
theorem Session.root_perform (s : Session) (step : Step) :
    ∃ cs, (s.perform step).session.root = addAll s.root cs := by
  have hplace : ∀ (settings : Settings) (ds : Script),
      ∃ cs, (ds.place settings s.root).holder = addAll s.root cs :=
    fun settings ds => ⟨_, Script.holder_place settings ds s.root⟩
  have hassemble : ∀ (settings : Settings) (announcement : Event) (ds : Script),
      ∃ cs, (s.assembled (s.root.assemble settings announcement ds)).session.root =
        addAll s.root cs := by
    intro settings announcement ds
    rw [Session.session_assembled]
    split
    · exact hplace settings ds
    -- what could not be assembled in full leaves no trace
    · exact ⟨[], rfl⟩
  cases step with
  | build settings ds => exact hassemble settings _ ds
  | edit settings ds => exact hassemble settings _ ds
  | place settings ds => exact hplace settings ds
  | retry settings => exact hplace settings (s.strays.map .stray)
  | attach c =>
      cases hr : refusal? s.root c.placement with
      | none => exact ⟨[c], congrArg Attachment.holder (attach_of_accepted hr)⟩
      | some reason => exact ⟨[], congrArg Attachment.holder (attach_of_refusal hr)⟩
  | query q => exact ⟨[], rfl⟩

/-- So do all steps of a session. -/
theorem Session.root_after (s : Session) (steps : List Step) :
    ∃ cs, (s.after steps).root = addAll s.root cs := by
  induction steps generalizing s with
  | nil => exact ⟨[], rfl⟩
  | cons step steps ih =>
      obtain ⟨cs, hcs⟩ := s.root_perform step
      obtain ⟨ds, hds⟩ := ih (s.perform step).session
      refine ⟨cs ++ ds, ?_⟩
      rw [addAll_append, ← hcs]
      exact hds

/-! ### What was appended -/

/-- What stands in a slot of the one holder after as many components as the other has there. -/
def appended {α : Type} [Holder α] (h h' : α) (s : Slot) : List Component :=
  (children h' s).drop (children h s).length

section

variable {α : Type} [Holder α] [LawfulHolder α]

/-- A slot of a grown holder is what it was, and then what was appended to it. -/
theorem slot?_addAll_eq_appended (h : α) (cs : List Component) (s : Slot) :
    Holder.slot? (addAll h cs) s =
      (Holder.slot? h s).map (· ++ appended h (addAll h cs) s) := by
  cases hs : Holder.slot? h s with
  | none => simp [slot?_addAll, hs]
  | some old => simp [appended, children, slot?_addAll, hs]

theorem children_addAll (h : α) (cs : List Component) (s : Slot) :
    children (addAll h cs) s = children h s ++ appended h (addAll h cs) s := by
  rw [children, slot?_addAll_eq_appended]
  cases hs : Holder.slot? h s with
  | none => simp [children, appended, slot?_addAll, hs]
  | some old => simp [children, hs]

end

/-! ### Look-ups -/

/-- What a selector by name or by kind looks for in a class: the slot that it goes through, and
the test that a node there has to pass. -/
def Selector.sought? : Selector → Option (Slot × (Node → Bool))
  | .method name => some (.methods, Node.isMethodNamed name)
  | .field name => some (.fields, Node.isFieldNamed name)
  | .constant label => some (.constantPool, Node.isConstantLabelled label)
  | .attr kind => some (.attributes, Node.isAttributeOf kind)
  | .code => none
  | .child _ _ => none

/-- Such a selector finds the first node of the slot that passes the test. -/
theorem Target.select?_of_sought {sel : Selector} {slot : Slot} {test : Node → Bool}
    (hsel : sel.sought? = some (slot, test)) (k : Class) :
    (Target.root k).select? sel = findNode? test (children k slot) := by
  cases sel <;> simp only [Selector.sought?, Option.some.injEq, Prod.mk.injEq, reduceCtorEq] at hsel
  all_goals
    obtain ⟨rfl, rfl⟩ := hsel
    rfl

theorem findNode?_append (test : Node → Bool) (cs ds : List Component) :
    findNode? test (cs ++ ds) = (findNode? test cs).or (findNode? test ds) := by
  simp [findNode?]

/-- What is found by name or by kind in a grown class is what was found there before, and if
nothing was, the first among what was appended. -/
theorem Target.select?_addAll_of_sought {sel : Selector} {slot : Slot} {test : Node → Bool}
    (hsel : sel.sought? = some (slot, test)) (k : Class) (cs : List Component) :
    (Target.root (addAll k cs)).select? sel =
      ((Target.root k).select? sel).or (findNode? test (appended k (addAll k cs) slot)) := by
  rw [select?_of_sought hsel, select?_of_sought hsel, children_addAll, findNode?_append]

/-- A selector that finds a node finds it in the grown class as well. -/
theorem Target.select?_addAll {k : Class} {sel : Selector} {n : Node}
    (h : (Target.root k).select? sel = some n) (cs : List Component) :
    (Target.root (addAll k cs)).select? sel = some n := by
  cases hsought : sel.sought? with
  | some sought => rw [select?_addAll_of_sought hsought, h, Option.some_or]
  | none =>
      cases sel with
      | code => simp [select?] at h
      | child slot position =>
          -- the positions of what was there before are the same
          obtain ⟨c, hc, rfl⟩ := Option.map_eq_some_iff.1 h
          have hlt : position < (children k slot).length := (List.getElem?_eq_some_iff.1 hc).1
          have hgrown : (children (addAll k cs) slot)[position]? = some c := by
            rw [children_addAll, List.getElem?_append_left hlt]
            exact hc
          exact congrArg (Option.map Component.node) hgrown
      | method name => simp [Selector.sought?] at hsought
      | field name => simp [Selector.sought?] at hsought
      | constant label => simp [Selector.sought?] at hsought
      | attr kind => simp [Selector.sought?] at hsought

/-- A walk that reaches a node reaches the same node in the grown class: its first step finds the
same node, and the rest of the walk is below that. -/
theorem Target.walk?_addAll {k : Class} {path : List Selector} {n : Node}
    (h : (Target.root k).walk? path = some (.node n)) (cs : List Component) :
    (Target.root (addAll k cs)).walk? path = some (.node n) := by
  cases path with
  | nil => simp [walk?] at h
  | cons sel path =>
      obtain ⟨child, hchild, hrest⟩ := Option.bind_eq_some_iff.1 h
      exact Option.bind_eq_some_iff.2 ⟨child, select?_addAll hchild cs, hrest⟩

/-! ### Append-only histories -/

/-- What is known of a class `k`, and of the same class at a later time, `k'`. -/
structure AppendOnly (k k' : Class) : Prop where
  name_eq : k'.name = k.name
  flags_eq : k'.flags = k.flags
  /-- Each slot has what it had, every component with all that is below it, and then more. -/
  slot?_eq : ∀ s, Holder.slot? k' s = (Holder.slot? k s).map (· ++ appended k k' s)
  /-- A walk that reached a node reaches the same node. -/
  walk?_eq : ∀ path n, (Target.root k).walk? path = some (.node n) →
    (Target.root k').walk? path = some (.node n)
  /-- Whatever is asked of such a node has the same answer. -/
  answer?_eq : ∀ q n, (Target.root k).walk? q.path = some (.node n) → k'.answer? q = k.answer? q
  /-- Where nothing was found by name or by kind, the first that passes the test is found of all
  that was appended. -/
  select?_eq : ∀ sel slot test, sel.sought? = some (slot, test) →
    (Target.root k).select? sel = none →
      (Target.root k').select? sel = ((appended k k' slot).map Component.node).find? test

theorem appendOnly_addAll (k : Class) (cs : List Component) : AppendOnly k (addAll k cs) where
  name_eq := (congrArg Class.name (vacated_addAll k cs) :)
  flags_eq := (congrArg Class.flags (vacated_addAll k cs) :)
  slot?_eq := slot?_addAll_eq_appended k cs
  walk?_eq _ _ h := Target.walk?_addAll h cs
  answer?_eq q n h := by
    rw [Class.answer?, Class.answer?, h, Target.walk?_addAll h cs]
  select?_eq sel slot test hsel hnone := by
    rw [Target.select?_addAll_of_sought hsel, hnone, Option.none_or]
    rfl

/-- **The history of a class is append-only, and look-ups are stable**: from any time of any session
on, and after any number of steps. -/
theorem session_appendOnly (s : Session) (steps : List Step) :
    AppendOnly s.root (s.after steps).root := by
  obtain ⟨cs, hcs⟩ := s.root_after steps
  rw [hcs]
  exact appendOnly_addAll s.root cs

/-- Two methods of one name come in one after the other, only the first with code.  The name means
the first one all the time, down to the label in its code, and a constant that nobody had declared
before is found once it is there. -/
theorem session_appendOnly_sameName :
    let method := Component.method ⟨"run", none, [], .empty⟩
    let one := Component.constant "one" (.int 1) []
    let code := Component.attr .code (.int 1, .int 1, ())
    let s := (Session.start (.empty "Foo" .empty)).after
      [.place .usual [.block method [.block code [.label "a"]]]]
    let later := s.after [.edit .usual [.component method], .attach one, .retry .usual]
    let path := [Selector.method "run", .code, .child .code 0]
    AppendOnly s.root later.root ∧
      later.root.methods.length = 2 ∧
      (Target.root s.root).walk? path = some (.node (Component.label "a").node) ∧
      (Target.root later.root).walk? path = some (.node (Component.label "a").node) ∧
      (Target.root s.root).select? (.constant "one") = none ∧
      (Target.root later.root).select? (.constant "one") = some one.node := by
  intro method one code s later path
  have h : AppendOnly s.root later.root := session_appendOnly s _
  have hlabel : (Target.root s.root).walk? path = some (.node (Component.label "a").node) := rfl
  have hnone : (Target.root s.root).select? (.constant "one") = none := rfl
  refine ⟨h, by decide +kernel, hlabel, h.walk?_eq path _ hlabel, hnone, ?_⟩
  rw [h.select?_eq _ _ _ rfl hnone]
  rfl

end ClassFile
