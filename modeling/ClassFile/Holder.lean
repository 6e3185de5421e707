/-
**Holders.**

What holds components in slots: a class, and every other node, though many nodes have no slot.  A
holder is read and written slot by slot.  The laws state both through the list of all its slots: a
look-up finds the first slot of a name, a new component goes to the end of that same slot, and
nothing else changes.

Main definitions:

* `Holder` — the scope, the slots, and adding a component to a slot;
* `LawfulHolder` — the laws;
* `tableSlot?`, `pushTable?` — reading and writing the first table for a slot in a list of tables;
* `addAll` — adding many components, each to the slot it asks for.

Main results:

* `Class` and `Node` are lawful holders;
* `isSome_push?`, `slot?_push?` — a component can be added just where there is a slot, and only
  that slot changes;
* `slot?_addAll`, `vacated_addAll` — the same for many components.
-/

import ClassFile.Tree

set_option relaxedAutoImplicit false
set_option autoImplicit false

namespace ClassFile

/-! ### Tables -/

/-- Slots with their components.  A name may occur more than once. -/
abbrev Tables : Type :=
  List (Slot × List Component)

/-- The components of the first table for a slot. -/
def tableSlot? (tables : Tables) (s : Slot) : Option (List Component) :=
  match tables with
  | [] => none
  | (s', cs) :: ts => if s' = s then some cs else tableSlot? ts s

/-- The tables with a component added at the end of the first table for a slot. -/
def pushTable? (tables : Tables) (s : Slot) (c : Component) : Option Tables :=
  match tables with
  | [] => none
  | (s', cs) :: ts =>
      if s' = s then some ((s', cs ++ [c]) :: ts)
      else (pushTable? ts s c).map ((s', cs) :: ·)

/-- The same tables, all of them empty. -/
def emptyTables (tables : Tables) : Tables :=
  tables.map fun t => (t.1, [])

theorem isSome_pushTable? (tables : Tables) (s : Slot) (c : Component) :
    (pushTable? tables s c).isSome = (tableSlot? tables s).isSome := by
  induction tables with
  | nil => rfl
  | cons t ts ih =>
      simp only [pushTable?, tableSlot?]
      split
      · rfl
      · simp [ih]

theorem emptyTables_pushTable? {tables tables' : Tables} {s : Slot} {c : Component}
    (h : pushTable? tables s c = some tables') : emptyTables tables' = emptyTables tables := by
  induction tables generalizing tables' with
  | nil => simp [pushTable?] at h
  | cons t ts ih =>
      simp only [pushTable?] at h
      split at h
      · cases h
        rfl
      · obtain ⟨ts', hts', rfl⟩ := Option.map_eq_some_iff.mp h
        have key := ih hts'
        simp only [emptyTables] at key
        simp [emptyTables, key]

theorem tableSlot?_pushTable? {tables tables' : Tables} {s : Slot} {c : Component}
    (h : pushTable? tables s c = some tables') (s' : Slot) :
    tableSlot? tables' s' =
      if s' = s then (tableSlot? tables s).map (· ++ [c]) else tableSlot? tables s' := by
  induction tables generalizing tables' with
  | nil => simp [pushTable?] at h
  | cons t ts ih =>
      obtain ⟨s₀, cs⟩ := t
      simp only [pushTable?] at h
      by_cases hs : s₀ = s
      · subst hs
        simp only [if_pos, Option.some.injEq] at h
        subst h
        by_cases hs' : s' = s₀
        · subst hs'
          simp [tableSlot?]
        · simp [tableSlot?, hs', Ne.symm hs']
      · simp only [if_neg hs, Option.map_eq_some_iff] at h
        obtain ⟨ts', hts', rfl⟩ := h
        have key := ih hts'
        by_cases hs' : s' = s
        · subst hs'
          simpa [tableSlot?, hs] using key
        · by_cases h₀ : s₀ = s'
          · subst h₀
            simp [tableSlot?, hs']
          · simpa [tableSlot?, hs', h₀] using key

/-! ### Holders and their laws -/

/-- What holds components in slots. -/
class Holder (α : Type) where
  /-- The kind of the holder. -/
  scope : α → Scope
  /-- All slots in order, also those that no look-up finds because another of the name comes
  first. -/
  slots : α → Tables
  /-- The holder with the same slots, all of them empty. -/
  vacated : α → α
  /-- The components in a slot, if there is such a slot. -/
  slot? : α → Slot → Option (List Component)
  /-- The holder with a component added at the end of a slot, if there is such a slot. -/
  push? : α → Slot → Component → Option α

/-- Whether a holder has a slot. -/
def hasSlot {α : Type} [Holder α] (h : α) (s : Slot) : Bool :=
  (Holder.slot? h s).isSome

/-- The laws of a holder.  Reading and writing find the same slot, writing changes nothing else,
and a holder is no more than its slots and what stays when they are emptied. -/
class LawfulHolder (α : Type) [Holder α] : Prop where
  slot?_eq (h : α) (s : Slot) : Holder.slot? h s = tableSlot? (Holder.slots h) s
  slots_push? (h : α) (s : Slot) (c : Component) :
    (Holder.push? h s c).map Holder.slots = pushTable? (Holder.slots h) s c
  vacated_push? {h h' : α} {s : Slot} {c : Component} :
    Holder.push? h s c = some h' → Holder.vacated h' = Holder.vacated h
  scope_vacated (h : α) : Holder.scope (Holder.vacated h) = Holder.scope h
  slots_vacated (h : α) : Holder.slots (Holder.vacated h) = emptyTables (Holder.slots h)
  eq_of_vacated_of_slots {h h' : α} :
    Holder.vacated h = Holder.vacated h' → Holder.slots h = Holder.slots h' → h = h'

section

variable {α : Type} [Holder α] [LawfulHolder α]

/-- The slots after a component was added. -/
theorem pushTable?_slots {h h' : α} {s : Slot} {c : Component}
    (hp : Holder.push? h s c = some h') :
    pushTable? (Holder.slots h) s c = some (Holder.slots h') := by
  rw [← LawfulHolder.slots_push?, hp]
  rfl

/-- A component can be added just where there is a slot. -/
theorem isSome_push? (h : α) (s : Slot) (c : Component) :
    (Holder.push? h s c).isSome = hasSlot h s := by
  rw [hasSlot, LawfulHolder.slot?_eq, ← isSome_pushTable? _ s c, ← LawfulHolder.slots_push?,
    Option.isSome_map]

/-- A new component stands at the end of its slot, and the other slots are as they were. -/
theorem slot?_push? {h h' : α} {s : Slot} {c : Component} (hp : Holder.push? h s c = some h')
    (s' : Slot) :
    Holder.slot? h' s' =
      if s' = s then (Holder.slot? h s).map (· ++ [c]) else Holder.slot? h s' := by
  simp only [LawfulHolder.slot?_eq]
  exact tableSlot?_pushTable? (pushTable?_slots hp) s'

/-- Adding a component keeps the kind of a holder. -/
theorem scope_push? {h h' : α} {s : Slot} {c : Component} (hp : Holder.push? h s c = some h') :
    Holder.scope h' = Holder.scope h := by
  rw [← LawfulHolder.scope_vacated h', LawfulHolder.vacated_push? hp, LawfulHolder.scope_vacated]

/-- Adding a component keeps what slots there are. -/
theorem hasSlot_push? {h h' : α} {s : Slot} {c : Component} (hp : Holder.push? h s c = some h')
    (s' : Slot) : hasSlot h' s' = hasSlot h s' := by
  simp only [hasSlot, slot?_push? hp]
  split
  · next hs => simp [hs]
  · rfl

end

/-! ### Adding many components -/

section

variable {α : Type} [Holder α]

/-- The holder with a component at the end of the slot it asks for, if there is such a slot. -/
def add (h : α) (c : Component) : α :=
  (Holder.push? h c.placement.slot c).getD h

/-- The holder with each of some components, in order, at the end of the slot it asks for. -/
def addAll (h : α) (cs : List Component) : α :=
  cs.foldl add h

variable [LawfulHolder α]

theorem vacated_add (h : α) (c : Component) : Holder.vacated (add h c) = Holder.vacated h := by
  cases hp : Holder.push? h c.placement.slot c with
  | none => simp [add, hp]
  | some h' => simpa [add, hp] using LawfulHolder.vacated_push? hp

theorem slot?_add (h : α) (c : Component) (s : Slot) :
    Holder.slot? (add h c) s =
      if s = c.placement.slot then (Holder.slot? h s).map (· ++ [c]) else Holder.slot? h s := by
  cases hp : Holder.push? h c.placement.slot c with
  | none =>
      have hs : Holder.slot? h c.placement.slot = none := by
        have key := isSome_push? h c.placement.slot c
        simpa [hp, hasSlot] using key.symm
      split
      · next he => simp [add, hp, he, hs]
      · simp [add, hp]
  | some h' =>
      simp only [add, hp, Option.getD_some, slot?_push? hp]
      split
      · next he => rw [he]
      · rfl

/-- Nothing changes but the slots. -/
theorem vacated_addAll (h : α) (cs : List Component) :
    Holder.vacated (addAll h cs) = Holder.vacated h := by
  induction cs generalizing h with
  | nil => rfl
  | cons c cs ih => exact (ih (add h c)).trans (vacated_add h c)

/-- Each slot has what it had, and then the components that ask for it, in order. -/
theorem slot?_addAll (h : α) (cs : List Component) (s : Slot) :
    Holder.slot? (addAll h cs) s =
      (Holder.slot? h s).map (· ++ cs.filter fun c => c.placement.slot = s) := by
  induction cs generalizing h with
  | nil => simp [addAll]
  | cons c cs ih =>
      have key := ih (add h c)
      rw [addAll, List.foldl_cons]
      rw [addAll] at key
      rw [key, slot?_add]
      by_cases hs : s = c.placement.slot
      · simp [hs, Option.map_map, Function.comp_def]
      · simp [hs, Ne.symm hs]

end

/-! ### Nodes -/

/-- All slots of a node. -/
def Node.slots : Node → Tables
  | .method _ as => [(.attributes, as)]
  | .field _ as => [(.attributes, as)]
  | .attr _ _ as ts => (.attributes, as) :: ts
  | .instruction _ _ => []
  | .constant _ _ _ => []
  | .entry _ _ => []

/-- The node with all its slots empty. -/
def Node.vacated : Node → Node
  | .method header _ => .method header []
  | .field header _ => .field header []
  | .attr kind args _ ts => .attr kind args [] (emptyTables ts)
  | .instruction opcode args => .instruction opcode args
  | .constant label tag values => .constant label tag values
  | .entry kind args => .entry kind args

/-- The components in a slot of a node.  Of an attribute, `attributes` names the attributes nested
in it, and any other name its first table of that name. -/
def Node.slot? (n : Node) (s : Slot) : Option (List Component) :=
  match n with
  | .method _ as => if s = .attributes then some as else none
  | .field _ as => if s = .attributes then some as else none
  | .attr _ _ as ts => if s = .attributes then some as else tableSlot? ts s
  | .instruction _ _ => none
  | .constant _ _ _ => none
  | .entry _ _ => none

/-- The node with a component added at the end of a slot. -/
def Node.push? (n : Node) (s : Slot) (c : Component) : Option Node :=
  match n with
  | .method header as => if s = .attributes then some (.method header (as ++ [c])) else none
  | .field header as => if s = .attributes then some (.field header (as ++ [c])) else none
  | .attr kind args as ts =>
      if s = .attributes then some (.attr kind args (as ++ [c]) ts)
      else (pushTable? ts s c).map (.attr kind args as)
  | .instruction _ _ => none
  | .constant _ _ _ => none
  | .entry _ _ => none

instance : Holder Node where
  scope := Node.scope
  slots := Node.slots
  vacated := Node.vacated
  slot? := Node.slot?
  push? := Node.push?

theorem Node.slots_push? (n : Node) (s : Slot) (c : Component) :
    (n.push? s c).map Node.slots = pushTable? n.slots s c := by
  cases n with
  | method header as =>
      by_cases hs : s = .attributes <;> simp [Node.push?, Node.slots, pushTable?, hs, eq_comm]
  | field header as =>
      by_cases hs : s = .attributes <;> simp [Node.push?, Node.slots, pushTable?, hs, eq_comm]
  | attr kind args as ts =>
      by_cases hs : s = .attributes
      · simp [Node.push?, Node.slots, pushTable?, hs]
      · simp only [Node.push?, Node.slots, pushTable?, hs, Ne.symm hs, if_false, Option.map_map]
        rfl
  | instruction opcode args => rfl
  | constant label tag values => rfl
  | entry kind args => rfl

theorem Node.vacated_push? {n n' : Node} {s : Slot} {c : Component} (h : n.push? s c = some n') :
    n'.vacated = n.vacated := by
  cases n <;> simp only [Node.push?, reduceCtorEq] at h
  case attr =>
    split at h
    · cases h
      rfl
    · obtain ⟨ts, hts, rfl⟩ := Option.map_eq_some_iff.mp h
      simp [Node.vacated, emptyTables_pushTable? hts]
  all_goals
    split at h
    · cases h
      rfl
    · cases h

theorem Node.eq_of_vacated_of_slots {n n' : Node} (hv : n.vacated = n'.vacated)
    (hs : n.slots = n'.slots) : n = n' := by
  cases n <;> cases n' <;> simp_all [Node.vacated, Node.slots]

instance : LawfulHolder Node where
  slot?_eq n s := by
    cases n <;> simp [Holder.slot?, Holder.slots, Node.slot?, Node.slots, tableSlot?, eq_comm]
  slots_push? := Node.slots_push?
  vacated_push? := Node.vacated_push?
  scope_vacated n := by
    cases n <;> rfl
  slots_vacated n := by
    cases n <;> rfl
  eq_of_vacated_of_slots := Node.eq_of_vacated_of_slots

/-! ### Classes -/

/-- All slots of a class. -/
def Class.slots (k : Class) : Tables :=
  [(.methods, k.methods), (.fields, k.fields), (.constantPool, k.constantPool),
   (.attributes, k.attributes)]

/-- The components in a slot of a class. -/
def Class.slot? (k : Class) (s : Slot) : Option (List Component) :=
  match s with
  | .methods => some k.methods
  | .fields => some k.fields
  | .constantPool => some k.constantPool
  | .attributes => some k.attributes
  | _ => none

/-- The class with a component added at the end of a slot. -/
def Class.push? (k : Class) (s : Slot) (c : Component) : Option Class :=
  match s with
  | .methods => some { k with methods := k.methods ++ [c] }
  | .fields => some { k with fields := k.fields ++ [c] }
  | .constantPool => some { k with constantPool := k.constantPool ++ [c] }
  | .attributes => some { k with attributes := k.attributes ++ [c] }
  | _ => none

instance : Holder Class where
  scope _ := .root
  slots := Class.slots
  vacated k := .empty k.name k.flags
  slot? := Class.slot?
  push? := Class.push?

instance : LawfulHolder Class where
  slot?_eq k s := by
    cases s <;> rfl
  slots_push? k s c := by
    cases s <;> rfl
  vacated_push? := by
    intro k k' s c h
    cases s <;> simp only [Holder.push?, Class.push?, reduceCtorEq, Option.some.injEq] at h <;>
      subst h <;> rfl
  scope_vacated _ := rfl
  slots_vacated _ := rfl
  eq_of_vacated_of_slots := by
    intro k k' hv hs
    cases k
    cases k'
    simp_all [Holder.vacated, Holder.slots, Class.slots, Class.empty]

end ClassFile
