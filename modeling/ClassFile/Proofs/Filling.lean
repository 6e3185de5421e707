/-
**Filled holders.**

What a holder looks like once some components went into it: every slot has what it had and then
the newcomers that ask for it, in order, and nothing else is different.  A holder may have two
slots of one name, of which no look-up finds the second; that one counts among the rest, and keeps
what it has.

Main definitions:

* `growTables` — more components at the end of the slots that a look-up finds;
* `FilledWith` — one holder is another with some components in it.

Main results:

* `filledWith_addAll` — adding components one by one fills a holder with them;
* `FilledWith.eq_addAll` — there is just one way in which a holder can be filled with some
  components.
-/

import ClassFile.Holder

set_option relaxedAutoImplicit false
set_option autoImplicit false

namespace ClassFile

/-! ### Grown tables -/

/-- The tables with more components at the end of each slot.  The first table of a name is the one
that a look-up finds, so it takes them all, and a later one of the same name takes none. -/
def growTables (more : Slot → List Component) : Tables → Tables
  | [] => []
  | (s, cs) :: ts => (s, cs ++ more s) :: growTables (fun s' => if s' = s then [] else more s') ts

theorem growTables_nil (tables : Tables) : growTables (fun _ => []) tables = tables := by
  induction tables with
  | nil => rfl
  | cons t ts ih => simp [growTables, ih]

/-- Growing twice is growing once by both. -/
theorem growTables_growTables (more more' : Slot → List Component) (tables : Tables) :
    growTables more' (growTables more tables) =
      growTables (fun s => more s ++ more' s) tables := by
  induction tables generalizing more more' with
  | nil => rfl
  | cons t ts ih =>
      obtain ⟨s, cs⟩ := t
      have hmore : (fun s' => (if s' = s then [] else more s') ++ if s' = s then [] else more' s')
          = fun s' => if s' = s then [] else more s' ++ more' s' := by
        funext s'
        split <;> rfl
      simp only [growTables, List.append_assoc]
      rw [ih, hmore]

/-- Adding one component to a slot grows that slot by it; without such a slot nothing grows. -/
theorem getD_pushTable? (tables : Tables) (s : Slot) (c : Component) :
    (pushTable? tables s c).getD tables =
      growTables (fun s' => if s' = s then [c] else []) tables := by
  induction tables with
  | nil => rfl
  | cons t ts ih =>
      obtain ⟨s₀, cs⟩ := t
      by_cases hs : s₀ = s
      · subst hs
        -- this is the slot, and a later one of the same name takes nothing more
        have hrest : (fun s' => if s' = s₀ then [] else if s' = s₀ then [c] else [])
            = fun _ => ([] : List Component) := by
          funext s'
          split <;> rfl
        simp [pushTable?, growTables, hrest, growTables_nil]
      · -- another slot comes first and takes nothing, so what is to come stays to come
        have hrest : (fun s' => if s' = s₀ then [] else if s' = s then [c] else [])
            = fun s' => if s' = s then [c] else [] := by
          funext s'
          by_cases hs' : s' = s₀
          · simp [hs', hs]
          · simp [hs']
        simp only [pushTable?, growTables, if_neg hs, List.append_nil, hrest, ← ih]
        cases pushTable? ts s c <;> rfl

/-! ### Filled holders -/

/-- The holder is as the other one with some components in it: each of them stands at the end of
the slot it asks for, in order. -/
structure FilledWith {α : Type} [Holder α] (h : α) (cs : List Component) (h' : α) : Prop where
  /-- A slot has what it had, and then what asks for it. -/
  slot?_eq (s : Slot) :
    Holder.slot? h' s = (Holder.slot? h s).map (· ++ cs.filter fun c => c.placement.slot = s)
  /-- The slots are the same, and those that no look-up finds have what they had. -/
  slots_eq :
    Holder.slots h' =
      growTables (fun s => cs.filter fun c => c.placement.slot = s) (Holder.slots h)
  /-- All else is the same. -/
  vacated_eq : Holder.vacated h' = Holder.vacated h

section

variable {α : Type} [Holder α] [LawfulHolder α]

/-- All slots after one component was added. -/
theorem slots_add (h : α) (c : Component) :
    Holder.slots (add h c) =
      growTables (fun s => if s = c.placement.slot then [c] else []) (Holder.slots h) := by
  rw [← getD_pushTable?, ← LawfulHolder.slots_push?, add]
  cases Holder.push? h c.placement.slot c <;> rfl

/-- All slots after some components were added. -/
theorem slots_addAll (h : α) (cs : List Component) :
    Holder.slots (addAll h cs) =
      growTables (fun s => cs.filter fun c => c.placement.slot = s) (Holder.slots h) := by
  induction cs generalizing h with
  | nil => exact (growTables_nil _).symm
  | cons c cs ih =>
      have hmore : (fun s => (if s = c.placement.slot then [c] else []) ++
          cs.filter fun c' => c'.placement.slot = s)
          = fun s => (c :: cs).filter fun c' => c'.placement.slot = s := by
        funext s
        by_cases hs : s = c.placement.slot
        · simp [hs]
        · simp [hs, Ne.symm hs]
      calc Holder.slots (addAll (add h c) cs)
          = growTables (fun s => cs.filter fun c' => c'.placement.slot = s)
              (Holder.slots (add h c)) := ih (add h c)
        _ = growTables (fun s => (c :: cs).filter fun c' => c'.placement.slot = s)
              (Holder.slots h) := by
            rw [slots_add, growTables_growTables, hmore]

/-- **Adding components one by one fills a holder with them.** -/
theorem filledWith_addAll (h : α) (cs : List Component) : FilledWith h cs (addAll h cs) where
  slot?_eq := slot?_addAll h cs
  slots_eq := slots_addAll h cs
  vacated_eq := vacated_addAll h cs

/-- **Being filled with some components determines the holder.** -/
theorem FilledWith.eq_addAll {h h' : α} {cs : List Component} (hf : FilledWith h cs h') :
    h' = addAll h cs := by
  refine LawfulHolder.eq_of_vacated_of_slots ?_ ?_
  · rw [hf.vacated_eq, vacated_addAll]
  · rw [hf.slots_eq, slots_addAll]

theorem scope_addAll (h : α) (cs : List Component) :
    Holder.scope (addAll h cs) = Holder.scope h := by
  rw [← LawfulHolder.scope_vacated, vacated_addAll, LawfulHolder.scope_vacated]

end

end ClassFile
