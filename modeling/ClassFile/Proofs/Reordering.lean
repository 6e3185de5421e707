/-
**Declarations out of order.**

Each slot of a holder keeps the order in which its components are declared, and that is all the
order there is.  So two declarations that come one after the other may change places if no slot
receives something from both, and a script may be put into any order that keeps the declarations
which meet in a slot as they were.  The holder does not show it.  Among the strays, what each
declaration leaves over stays together, and goes where the declaration goes.

Main definitions:

* `Decl.contribution` — what a slot of a holder receives from a declaration;
* `Receives`, `Apart` — a slot receives something, and no slot does from both of two declarations;
* `Script.reorder`, `KeepsOrder` — a script in another order, in which declarations that meet in a
  slot come as before.

Main results:

* `receives_iff` — a slot without a contribution is as it was, and no other is;
* `Script.holder_place_eq_of_contributions` — the contributions to its slots decide the holder;
* `Script.holder_place_swap`, `Script.holder_place_reorder` — **two declarations change places, and
  a whole script its order**;
* `place_commutes` — both, with what is left over, and for assembling classes.
-/

import ClassFile.Proofs.Parts
import Mathlib.Data.List.FinRange
import Mathlib.Data.List.Sort

set_option relaxedAutoImplicit false
set_option autoImplicit false

namespace ClassFile

/-! ### What a slot receives -/

/-- What a slot of a holder of this shape receives from a declaration. -/
def Decl.contribution (settings : Settings) (d : Decl) (f : Shape) (s : Slot) : List Component :=
  asking (f.taken (d.offers settings)) s

theorem asking_append (cs cs' : List Component) (s : Slot) :
    asking (cs ++ cs') s = asking cs s ++ asking cs' s :=
  List.filter_append cs cs'

/-- What a slot receives from a script, it receives from its declarations, one after the other. -/
theorem Script.asking_taken_offers (settings : Settings) (ds : Script) (f : Shape) (s : Slot) :
    asking (f.taken (ds.offers settings)) s =
      ds.flatMap fun d => d.contribution settings f s := by
  induction ds with
  | nil => rfl
  | cons d ds ih =>
      rw [Script.offers_cons, Shape.taken_append, asking_append, ih, List.flatMap_cons]
      rfl

section

variable {α : Type} [Holder α]

/-- The slot receives something when the declaration is placed: it is not as it was. -/
def Receives (settings : Settings) (h : α) (d : Decl) (s : Slot) : Prop :=
  Holder.slot? (d.place settings h).holder s ≠ Holder.slot? h s

/-- No slot receives something from both declarations. -/
def Apart (settings : Settings) (h : α) (u v : Decl) : Prop :=
  ∀ s, ¬(Receives settings h u s ∧ Receives settings h v s)

variable [LawfulHolder α] (settings : Settings)

/-- A slot has what it had, and then the contribution of the declaration. -/
theorem Decl.slot?_place (d : Decl) (h : α) (s : Slot) :
    Holder.slot? (d.place settings h).holder s =
      (Holder.slot? h s).map (· ++ d.contribution settings (shape h) s) := by
  rw [(Decl.place_eq_offers settings d h).1, holder_offerAll, slot?_addAll]
  rfl

/-- What a holder takes has a slot there. -/
theorem Decl.hasSlot_of_mem_contribution {d : Decl} {f : Shape} {s : Slot} {c : Component}
    (hc : c ∈ d.contribution settings f s) : f.hasSlot s = true := by
  obtain ⟨htaken, hslot⟩ := List.mem_filter.1 hc
  obtain ⟨x, hx, rfl⟩ := List.mem_map.1 htaken
  have hrefusal := of_decide_eq_true (List.mem_filter.1 hx).2
  rw [← of_decide_eq_true hslot]
  exact (Shape.refusal?_eq_none_iff.1 hrefusal).1

/-- **A slot receives something if there is a contribution to it**: a slot without one is as it was,
and a contribution never comes without a slot. -/
theorem receives_iff (d : Decl) (h : α) (s : Slot) :
    Receives settings h d s ↔ d.contribution settings (shape h) s ≠ [] := by
  rw [Receives, Decl.slot?_place]
  refine not_congr ⟨?_, ?_⟩
  · intro heq
    cases hs : Holder.slot? h s with
    | none =>
        rw [List.eq_nil_iff_forall_not_mem]
        intro c hc
        have hslot : hasSlot h s = true := Decl.hasSlot_of_mem_contribution settings hc
        simp [hasSlot, hs] at hslot
    | some old =>
        rw [hs, Option.map_some, Option.some.injEq] at heq
        exact List.self_eq_append_right.1 heq.symm
  · intro hnil
    cases hs : Holder.slot? h s with
    | none => rfl
    | some old => rw [hnil, Option.map_some, List.append_nil]

theorem contribution_eq_nil {d : Decl} {h : α} {s : Slot} (hd : ¬Receives settings h d s) :
    d.contribution settings (shape h) s = [] := by
  rw [receives_iff, not_not] at hd
  exact hd

instance (h : α) (d : Decl) (s : Slot) : Decidable (Receives settings h d s) :=
  decidable_of_iff _ (receives_iff settings d h s).symm

instance (h : α) (u v : Decl) : Decidable (Apart settings h u v) :=
  inferInstanceAs (Decidable (∀ s, ¬(Receives settings h u s ∧ Receives settings h v s)))

/-- Holders that have the same for each slot added to them are the same. -/
theorem addAll_eq_of_asking (h : α) {cs cs' : List Component}
    (hcs : ∀ s, asking cs s = asking cs' s) : addAll h cs = addAll h cs' := by
  refine LawfulHolder.eq_of_vacated_of_slots ?_ ?_
  · rw [vacated_addAll, vacated_addAll]
  · rw [slots_addAll, slots_addAll]
    exact congrArg (growTables · (Holder.slots h)) (funext hcs)

/-- **The contributions to its slots decide the holder.** -/
theorem Script.holder_place_eq_of_contributions (h : α) {ds es : Script}
    (hcs : ∀ s, (ds.flatMap fun d => d.contribution settings (shape h) s) =
      es.flatMap fun d => d.contribution settings (shape h) s) :
    (ds.place settings h).holder = (es.place settings h).holder := by
  rw [Script.holder_place_eq_taken, Script.holder_place_eq_taken]
  refine addAll_eq_of_asking h ?_
  intro s
  rw [Script.asking_taken_offers, Script.asking_taken_offers, hcs s]

/-- A script leaves over what its declarations leave over, each by itself, one after the other. -/
theorem Script.strays_place_eq_flatMap (ds : Script) (h : α) :
    (ds.place settings h).strays = ds.flatMap fun d => (d.place settings h).strays := by
  induction ds with
  | nil => rfl
  | cons d ds ih =>
      rw [List.flatMap_cons, ← ih]
      exact congrArg (_ ++ ·) (Script.strays_place_after settings [d] ds h)

/-! ### Two declarations change places -/

/-- **Two declarations that meet in no slot may change places.** -/
theorem Script.holder_place_swap {h : α} {u v : Decl} (huv : Apart settings h u v)
    (xs ys : Script) :
    (Script.place settings (xs ++ [u, v] ++ ys) h).holder =
      (Script.place settings (xs ++ [v, u] ++ ys) h).holder := by
  refine Script.holder_place_eq_of_contributions settings h ?_
  intro s
  simp only [List.flatMap_append, List.flatMap_cons, List.flatMap_nil, List.append_nil]
  -- one of the two contributes nothing to this slot
  rcases not_and_or.1 (huv s) with hu | hv
  · rw [contribution_eq_nil settings hu, List.nil_append, List.append_nil]
  · rw [contribution_eq_nil settings hv, List.nil_append, List.append_nil]

end

/-! ### Scripts in another order -/

/-- The script with its declarations in another order; each place gets the declaration from the
place that is given for it. -/
def Script.reorder (ds : Script) (σ : Equiv.Perm (Fin ds.length)) : Script :=
  (List.finRange ds.length).map fun i => ds.get (σ i)

theorem Script.reorder_perm (ds : Script) (σ : Equiv.Perm (Fin ds.length)) :
    (ds.reorder σ).Perm ds := by
  have hperm := σ.map_finRange_perm.map ds.get
  rw [List.map_map, List.map_get_finRange] at hperm
  exact hperm

/-- Declarations that meet in a slot of the holder come in the order in which they came. -/
def KeepsOrder {α : Type} [Holder α] (settings : Settings) (h : α) (ds : Script)
    (σ : Equiv.Perm (Fin ds.length)) : Prop :=
  ∀ i j, i < j → ∀ s, Receives settings h (ds.get (σ i)) s → Receives settings h (ds.get (σ j)) s →
    σ i < σ j

instance {α : Type} [Holder α] [LawfulHolder α] (settings : Settings) (h : α) (ds : Script)
    (σ : Equiv.Perm (Fin ds.length)) : Decidable (KeepsOrder settings h ds σ) :=
  inferInstanceAs (Decidable (∀ i j, i < j → ∀ s, Receives settings h (ds.get (σ i)) s →
    Receives settings h (ds.get (σ j)) s → σ i < σ j))

/-- Empty lists do not count when lists are joined. -/
theorem flatMap_filter_ne_nil {ι β : Type} (g : ι → List β) (is : List ι) :
    (is.filter (g · ≠ [])).flatMap g = is.flatMap g := by
  induction is with
  | nil => rfl
  | cons i is ih =>
      by_cases hi : g i = []
      · rw [List.filter_cons_of_neg (by simpa using hi), List.flatMap_cons, hi, List.nil_append, ih]
      · rw [List.filter_cons_of_pos (by simpa using hi), List.flatMap_cons, List.flatMap_cons, ih]

/-- Lists that are joined may come in another order if those that are not empty come as before. -/
theorem flatMap_finRange_perm {β : Type} {n : Nat} (g : Fin n → List β) (σ : Equiv.Perm (Fin n))
    (hσ : ∀ i j, i < j → g (σ i) ≠ [] → g (σ j) ≠ [] → σ i < σ j) :
    ((List.finRange n).flatMap fun i => g (σ i)) = (List.finRange n).flatMap g := by
  -- both are the positions of lists that are not empty, from the first to the last
  have hsorted : ((List.finRange n).filter (g · ≠ [])).SortedLT :=
    ((List.sortedLT_finRange n).pairwise.filter _).sortedLT
  have hsorted' : (((List.finRange n).map σ).filter (g · ≠ [])).SortedLT := by
    refine List.Pairwise.sortedLT (List.pairwise_filter.2 (List.pairwise_map.2 ?_))
    refine (List.sortedLT_finRange n).pairwise.imp ?_
    intro i j hij hi hj
    exact hσ i j hij (of_decide_eq_true hi) (of_decide_eq_true hj)
  have hsame : ((List.finRange n).map σ).filter (g · ≠ []) =
      (List.finRange n).filter (g · ≠ []) := by
    refine hsorted'.eq_of_mem_iff hsorted ?_
    intro i
    rw [List.mem_filter, List.mem_filter, σ.map_finRange_perm.mem_iff]
  calc ((List.finRange n).flatMap fun i => g (σ i))
      = ((List.finRange n).map σ).flatMap g := (List.flatMap_map σ g _).symm
    _ = (((List.finRange n).map σ).filter (g · ≠ [])).flatMap g :=
        (flatMap_filter_ne_nil g _).symm
    _ = (List.finRange n).flatMap g := by rw [hsame, flatMap_filter_ne_nil]

section

variable {α : Type} [Holder α] [LawfulHolder α] (settings : Settings)

/-- **A script may be put into another order** if declarations that meet in a slot come as
before. -/
theorem Script.holder_place_reorder {h : α} {ds : Script} {σ : Equiv.Perm (Fin ds.length)}
    (hσ : KeepsOrder settings h ds σ) :
    ((ds.reorder σ).place settings h).holder = (ds.place settings h).holder := by
  refine Script.holder_place_eq_of_contributions settings h ?_
  intro s
  have hds : ds.flatMap (fun d => d.contribution settings (shape h) s) =
      (List.finRange ds.length).flatMap fun i =>
        (ds.get i).contribution settings (shape h) s := by
    conv_lhs => rw [← List.map_get_finRange ds, List.flatMap_map]
  rw [Script.reorder, List.flatMap_map, hds]
  refine flatMap_finRange_perm (fun i => (ds.get i).contribution settings (shape h) s) σ ?_
  intro i j hij hi hj
  exact hσ i j hij s ((receives_iff settings _ h s).2 hi) ((receives_iff settings _ h s).2 hj)

/-- In another order, a script leaves over the same strays in another order. -/
theorem Script.strays_place_reorder (h : α) (ds : Script) (σ : Equiv.Perm (Fin ds.length)) :
    ((ds.reorder σ).place settings h).strays.Perm (ds.place settings h).strays := by
  rw [Script.strays_place_eq_flatMap, Script.strays_place_eq_flatMap]
  exact (ds.reorder_perm σ).flatMap_right _

end

/-- **A class is assembled from a script in another order** just if it is from the script as it was,
and it is the same class. -/
theorem Class.result_assemble_reorder_eq_ok_iff {settings : Settings} {k : Class} {ds : Script}
    {σ : Equiv.Perm (Fin ds.length)} (hσ : KeepsOrder settings k ds σ)
    (announcement announcement' : Event) (d : Class) :
    (k.assemble settings announcement (ds.reorder σ)).result = .ok d ↔
      (k.assemble settings announcement' ds).result = .ok d := by
  have hstrays := Script.strays_place_reorder settings k ds σ
  rw [Class.result_assemble_eq_ok_iff, Class.result_assemble_eq_ok_iff,
    Script.holder_place_reorder settings hσ]
  refine and_congr_left fun _ => ?_
  constructor
  · intro hnil
    rw [hnil] at hstrays
    exact hstrays.nil_eq.symm
  · intro hnil
    rw [hnil] at hstrays
    exact hstrays.eq_nil

/-- **Declarations that meet in no slot commute.** -/
theorem place_commutes {α : Type} [Holder α] [LawfulHolder α] (settings : Settings) (top : α) :
    (∀ (xs ys : Script) (u v : Decl), Apart settings top u v →
      (Script.place settings (xs ++ [u, v] ++ ys) top).holder =
          (Script.place settings (xs ++ [v, u] ++ ys) top).holder ∧
        (Script.place settings (xs ++ [u, v] ++ ys) top).strays =
          (xs.place settings top).strays ++
            ((u.place settings top).strays ++ (v.place settings top).strays) ++
            (ys.place settings top).strays ∧
        (Script.place settings (xs ++ [v, u] ++ ys) top).strays =
          (xs.place settings top).strays ++
            ((v.place settings top).strays ++ (u.place settings top).strays) ++
            (ys.place settings top).strays) ∧
      (∀ (ds : Script) (σ : Equiv.Perm (Fin ds.length)), KeepsOrder settings top ds σ →
        ((ds.reorder σ).place settings top).holder = (ds.place settings top).holder ∧
          ((ds.reorder σ).place settings top).strays.Perm (ds.place settings top).strays) ∧
      ∀ (k : Class) (ds : Script) (σ : Equiv.Perm (Fin ds.length)), KeepsOrder settings k ds σ →
        ∀ d, ((k.build settings (ds.reorder σ)).result = .ok d ↔
            (k.build settings ds).result = .ok d) ∧
          ((k.edit settings (ds.reorder σ)).result = .ok d ↔
            (k.edit settings ds).result = .ok d) := by
  have hstrays : ∀ (xs ys : Script) (u v : Decl),
      (Script.place settings (xs ++ [u, v] ++ ys) top).strays =
        (xs.place settings top).strays ++
          ((u.place settings top).strays ++ (v.place settings top).strays) ++
          (ys.place settings top).strays := by
    intro xs ys u v
    simp only [Script.strays_place_eq_flatMap, List.flatMap_append, List.flatMap_cons,
      List.flatMap_nil, List.append_nil]
  refine ⟨?_, ?_, ?_⟩
  · intro xs ys u v huv
    exact ⟨Script.holder_place_swap settings huv xs ys, hstrays xs ys u v, hstrays xs ys v u⟩
  · intro ds σ hσ
    exact ⟨Script.holder_place_reorder settings hσ, Script.strays_place_reorder settings top ds σ⟩
  · intro k ds σ hσ d
    exact ⟨Class.result_assemble_reorder_eq_ok_iff hσ _ _ d,
      Class.result_assemble_reorder_eq_ok_iff hσ _ _ d⟩

/-- A method with a constant in it, a field, and a second constant.  The method and the field meet
in no slot and may change places, with the label and the instruction that they leave over; the
constants meet in the pool, so the second one stays after the method. -/
theorem place_commutes_methodAndField :
    let k := Class.empty "Foo" .empty
    let u : Decl := .block (.method ⟨"run", none, [], .empty⟩)
      [.component (.constant "one" (.int 1) []), .label "a"]
    let v : Decl := .block (.field ⟨"count", .base .int, .empty⟩)
      [.component (.attr .deprecated ()), .component (.instruction .returnVoid ())]
    let w : Decl := .component (.constant "two" (.int 2) [])
    let ds : Script := [u, v, w]
    let σ : Equiv.Perm (Fin ds.length) := Equiv.swap 0 1
    (Apart .usual k u v ∧ KeepsOrder .usual k ds σ ∧ ¬Apart .usual k u w) ∧
      (Script.place .usual ([w] ++ [u, v] ++ []) k).holder =
        (Script.place .usual ([w] ++ [v, u] ++ []) k).holder ∧
      ((ds.reorder σ).place .usual k).holder = (ds.place .usual k).holder ∧
      (ds.place .usual k).strays.map Stray.component = [.label "a", .instruction .returnVoid ()] ∧
      ((ds.reorder σ).place .usual k).strays.map Stray.component =
        [.instruction .returnVoid (), .label "a"] := by
  intro k u v w ds σ
  have huv : Apart .usual k u v := by decide
  have hσ : KeepsOrder .usual k ds σ := by decide
  obtain ⟨hswap, hreorder, -⟩ := place_commutes .usual k
  exact ⟨⟨huv, hσ, by decide⟩, (hswap [w] [] u v huv).1, (hreorder ds σ hσ).1, rfl, rfl⟩

end ClassFile
