/-
**Trying again is no use.**

What a script leaves over may be placed once more into the same holder.  It is refused again, for
the same reason, since the holder has kept its shape all along: neither what came into it after a
refusal, nor what came out of a block, gives it a slot or a scope that it did not have.  So placing
is done once; trying again, however often, changes neither the holder nor the strays, and only adds
to the trails.

Main definitions:

* `Outcome.retry`, `Outcome.retries` — what is left over, placed once more, and again and again;
* `Outcome.Settled` — the holder takes none of what is left over;
* `Shape.turnAwayTimes` — a stray after some more refusals by one holder.

Main results:

* `Script.settled_place` — **a placement is settled**;
* `Outcome.Settled.retry_eq`, `Outcome.Settled.retries_eq` — one more attempt, and any number;
* `Session.after_retries` — the same attempts, as steps of a session;
* `retries_changeNothing` — **no attempt changes more than the trails**.
-/

import ClassFile.Proofs.Independence
import ClassFile.Session

set_option relaxedAutoImplicit false
set_option autoImplicit false

namespace ClassFile

section

variable {α : Type} [Holder α]

/-- What was left over is placed once more, into the holder that did not take it. -/
def Outcome.retry (settings : Settings) (r : Outcome α) : Outcome α :=
  Script.place settings (r.strays.map .stray) r.holder

/-- What was left over is placed again and again, each time with settings of its own. -/
def Outcome.retries (r : Outcome α) (attempts : List Settings) : Outcome α :=
  attempts.foldl (fun r settings => r.retry settings) r

/-- The holder takes nothing of what is left over. -/
def Outcome.Settled (r : Outcome α) : Prop :=
  ∀ s ∈ r.strays, ¬(shape r.holder).Takes s.component.placement

end

/-! ### Refusals by one holder -/

/-- The refusal of a component by a holder of this shape. -/
def Shape.refusalOf (f : Shape) (c : Component) : Refusal :=
  ⟨f.scope, f.objection c.placement⟩

/-- A stray after some more refusals by a holder of this shape. -/
def Shape.turnAwayTimes (n : Nat) (f : Shape) (s : Stray) : Stray :=
  ⟨s.component, s.trail ++ List.replicate n (f.refusalOf s.component)⟩

/-- Being refused once more adds a refusal if trails are kept. -/
theorem Shape.turnAway_eq_turnAwayTimes (settings : Settings) (f : Shape) :
    f.turnAway settings = f.turnAwayTimes (if settings.keepTrails then 1 else 0) := by
  funext s
  rw [turnAway, turnAwayTimes, refusalOf]
  cases settings.keepTrails <;> rfl

theorem Shape.turnAwayTimes_zero (f : Shape) : f.turnAwayTimes 0 = id := by
  funext s
  exact congrArg (Stray.mk s.component) (List.append_nil s.trail)

/-- Some refusals and then some more are all of them together. -/
theorem Shape.turnAwayTimes_add (n m : Nat) (f : Shape) (s : Stray) :
    f.turnAwayTimes m (f.turnAwayTimes n s) = f.turnAwayTimes (n + m) s := by
  simp only [turnAwayTimes, List.append_assoc, List.replicate_append_replicate]

/-! ### Settled outcomes -/

section

variable {α : Type} [Holder α] [LawfulHolder α]

/-- What a script leaves over was refused by the holder at the end. -/
theorem Script.strays_place_eq_map_turnAway (settings : Settings) (ds : Script) (h : α) :
    (ds.place settings h).strays =
      ((ds.offers settings).filter fun s => ¬(shape h).Takes s.component.placement).map
        ((shape h).turnAway settings) := by
  rw [Script.strays_place_eq_refused, Shape.refused_eq_map_turnAway]

/-- **A placement is settled**: the holder has the shape that it had when it refused. -/
theorem Script.settled_place (settings : Settings) (ds : Script) (h : α) :
    (ds.place settings h).Settled := by
  intro s hs
  rw [Script.strays_place_eq_map_turnAway] at hs
  obtain ⟨s', hs', rfl⟩ := List.mem_map.1 hs
  rw [Script.shape_place]
  exact of_decide_eq_true (List.mem_filter.1 hs').2

/-- With trails, the last refusal of what is left over is that of the holder. -/
theorem Script.getLast?_trail_of_mem_strays {settings : Settings} (hk : settings.keepTrails = true)
    (ds : Script) (h : α) :
    ∀ s ∈ (ds.place settings h).strays,
      s.trail.getLast? = some ((shape (ds.place settings h).holder).refusalOf s.component) := by
  intro s hs
  rw [Script.strays_place_eq_map_turnAway] at hs
  obtain ⟨s', -, rfl⟩ := List.mem_map.1 hs
  rw [Script.shape_place, Shape.turnAway, if_pos hk]
  exact List.getLast?_concat

theorem Outcome.settled_retry (settings : Settings) (r : Outcome α) :
    (r.retry settings).Settled :=
  Script.settled_place settings _ r.holder

namespace Outcome.Settled

variable {r : Outcome α}

/-- **One more attempt** changes nothing of a settled outcome but the trails. -/
theorem retry_eq (hr : r.Settled) (settings : Settings) :
    (r.retry settings).holder = r.holder ∧
      (r.retry settings).strays = r.strays.map ((shape r.holder).turnAway settings) := by
  constructor
  · rw [Outcome.retry, Script.place_map_stray, holder_offerAll, Shape.taken_eq_nil hr]
    rfl
  · rw [Outcome.retry, Script.place_map_stray, strays_offerAll, Shape.refused_eq_map settings hr]

/-- **Any number of attempts** changes nothing of a settled outcome but the trails, to which each
attempt that keeps trails adds one refusal. -/
theorem retries_eq (hr : r.Settled) (attempts : List Settings) :
    (r.retries attempts).holder = r.holder ∧
      (r.retries attempts).strays =
        r.strays.map ((shape r.holder).turnAwayTimes (attempts.countP Settings.keepTrails)) := by
  induction attempts generalizing r with
  | nil =>
      rw [List.countP_nil, Shape.turnAwayTimes_zero, List.map_id]
      exact ⟨rfl, rfl⟩
  | cons settings attempts ih =>
      obtain ⟨hholder, hstrays⟩ := hr.retry_eq settings
      obtain ⟨hholder', hstrays'⟩ := ih (Outcome.settled_retry settings r)
      rw [hholder] at hholder' hstrays'
      refine ⟨hholder', hstrays'.trans ?_⟩
      rw [hstrays, List.map_map, Shape.turnAway_eq_turnAwayTimes]
      refine List.map_congr_left fun s _ => ?_
      rw [Function.comp_apply, Shape.turnAwayTimes_add, List.countP_cons, Nat.add_comm]

end Outcome.Settled

end

/-- Trying again in a session is trying again what the last placement left over. -/
theorem Session.after_retries (r : Outcome Class) (attempts : List Settings) :
    (Session.mk r.holder r.strays).after (attempts.map .retry) =
      ⟨(r.retries attempts).holder, (r.retries attempts).strays⟩ := by
  induction attempts generalizing r with
  | nil => rfl
  | cons settings attempts ih => exact ih (r.retry settings)

/-- **No attempt to place what is left over changes more than the trails.**  If all trails are kept,
each grows by as many copies of its last refusal as there are attempts, and if none is kept in
these, all stay as they are. -/
theorem retries_changeNothing {α : Type} [Holder α] [LawfulHolder α] (settings : Settings)
    (ds : Script) (top : α) (attempts : List Settings) :
    let r := ds.place settings top
    let last : Stray → Refusal := fun s => (shape r.holder).refusalOf s.component
    (r.retries attempts).holder = r.holder ∧
      (r.retries attempts).strays.map Stray.component = r.strays.map Stray.component ∧
      ((settings.keepTrails = true ∧ ∀ a ∈ attempts, a.keepTrails = true) →
        (∀ s ∈ r.strays, s.trail.getLast? = some (last s) ∧
          refusal? r.holder s.component.placement = some (last s).reason) ∧
        (r.retries attempts).strays =
          r.strays.map fun s =>
            ⟨s.component, s.trail ++ List.replicate attempts.length (last s)⟩) ∧
      ((∀ a ∈ attempts, a.keepTrails = false) → (r.retries attempts).strays = r.strays) := by
  intro r last
  have hsettled : r.Settled := Script.settled_place settings ds top
  obtain ⟨hholder, hstrays⟩ := hsettled.retries_eq attempts
  refine ⟨hholder, ?_, ?_, ?_⟩
  · rw [hstrays, List.map_map]
    rfl
  · rintro ⟨hk, hall⟩
    refine ⟨fun s hs => ⟨Script.getLast?_trail_of_mem_strays hk ds top s hs, ?_⟩, ?_⟩
    · exact Shape.refusal?_of_not_takes (hsettled s hs)
    · rw [hstrays, List.countP_eq_length.2 hall]
      rfl
  · intro hnone
    rw [hstrays, List.countP_eq_zero.2 (by simpa using hnone), Shape.turnAwayTimes_zero,
      List.map_id]

/-- A constant and a label in a method, of which the class takes the constant only.  Tried three
more times, the label is refused three more times by the class. -/
theorem retries_changeNothing_threeTimes :
    let k := Class.empty "Foo" .empty
    let ds : Script := [.block (.method ⟨"run", none, [], .empty⟩)
      [.label "a", .component (.constant "one" (.int 1) [])]]
    let r := ds.place .usual k
    (r.retries [.usual, .usual, .usual]).holder = r.holder ∧
      (r.retries [.usual, .usual, .usual]).strays =
        [⟨.label "a", ⟨.method, .missingSlotAndScopeMismatch⟩ ::
          List.replicate 4 ⟨.root, .missingSlotAndScopeMismatch⟩⟩] ∧
      (r.retries [⟨false⟩, ⟨false⟩]).strays = r.strays := by
  intro k ds r
  obtain ⟨hholder, -, hkept, -⟩ := retries_changeNothing .usual ds k [.usual, .usual, .usual]
  obtain ⟨-, -, -, hbare⟩ := retries_changeNothing .usual ds k [⟨false⟩, ⟨false⟩]
  refine ⟨hholder, ?_, hbare (by decide)⟩
  exact (hkept ⟨rfl, by decide⟩).2

end ClassFile
