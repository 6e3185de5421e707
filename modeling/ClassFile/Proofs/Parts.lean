/-
**Scripts in parts.**

A script may be run on a class as a whole, or in parts that are run one after another, each on the
class that the part before it leaves.  The class in between has more in it than the one at the
start, and the same shape; so a part leaves over just what it leaves over when it is run by
itself.  Hence it makes no difference where a script is cut: the whole succeeds if all parts do,
with the same class, and otherwise it fails with all that any of its parts would leave over.

Main definitions:

* `Assembly.unplaced` — the strays of an assembly, none if it succeeds;
* `Class.edits` — a class edited by several scripts, one after another.

Main results:

* `Script.strays_place_append` — each part of a script leaves over what it leaves over by itself;
* `Class.result_assemble_append_eq_ok_iff`, `Class.unplaced_assemble_append` — a script in two
  parts;
* `Class.result_assemble_flatten_eq_ok_iff`, `Class.unplaced_assemble_flatten` — a script in any
  number of parts;
* `build_append` — **a script may be cut in two**, whether it succeeds or fails.
-/

import ClassFile.Proofs.Independence

set_option relaxedAutoImplicit false
set_option autoImplicit false

namespace ClassFile

/-! ### Placing in parts -/

section

variable {α : Type} [Holder α] [LawfulHolder α] (settings : Settings)

/-- What a script leaves over does not depend on what was placed before. -/
theorem Script.strays_place_after (us vs : Script) (h : α) :
    (vs.place settings (us.place settings h).holder).strays = (vs.place settings h).strays :=
  (Script.place_of_shape_eq settings vs (Script.shape_place settings us h)).1

/-- **Each part of a script leaves over what it leaves over by itself.** -/
theorem Script.strays_place_append (us vs : Script) (h : α) :
    ((us ++ vs).place settings h).strays =
      (us.place settings h).strays ++ (vs.place settings h).strays := by
  rw [Script.place_append, Outcome.andThen, Script.strays_place_after]

end

/-! ### Assembling in parts -/

/-- The strays of an assembly: those of its error, and none if it succeeds. -/
def Assembly.unplaced (a : Assembly) : List Stray :=
  match a.result with
  | .ok _ => []
  | .error e => e.unplaced

/-- A class edited by several scripts, one after another, up to the first that fails. -/
def Class.edits (settings : Settings) (k : Class) (parts : List Script) :
    Except PlacementError Class :=
  parts.foldlM (fun m ds => (m.edit settings ds).result) k

namespace Class

variable (settings : Settings) (announcement : Event) (k : Class)

theorem result_assemble_eq_ok_iff (ds : Script) (d : Class) :
    (k.assemble settings announcement ds).result = .ok d ↔
      (ds.place settings k).strays = [] ∧ (ds.place settings k).holder = d := by
  rw [result_assemble_eq_ite]
  by_cases h : (ds.place settings k).strays = []
  · rw [if_pos h, Except.ok.injEq, and_iff_right h]
  · rw [if_neg h]
    simp [h]

/-- The strays of an assembly are those of its script. -/
theorem unplaced_assemble (ds : Script) :
    (k.assemble settings announcement ds).unplaced = (ds.place settings k).strays := by
  rw [Assembly.unplaced, result_assemble_eq_ite]
  by_cases h : (ds.place settings k).strays = []
  · rw [if_pos h, h]
  · rw [if_neg h]

/-- **A script in two parts succeeds** if the first part does, and the second does on the class that
the first one leaves; and it ends up with the same class. -/
theorem result_assemble_append_eq_ok_iff (announcement' : Event) (us vs : Script) (d : Class) :
    (k.assemble settings announcement (us ++ vs)).result = .ok d ↔
      ∃ m, (k.assemble settings announcement' us).result = .ok m ∧
        (m.edit settings vs).result = .ok d := by
  rw [result_assemble_eq_ok_iff, Script.strays_place_append, List.append_eq_nil_iff]
  have hwhole : ((us ++ vs).place settings k).holder =
      (vs.place settings (us.place settings k).holder).holder := by
    rw [Script.place_append, Outcome.andThen]
  rw [hwhole]
  constructor
  · rintro ⟨⟨hus, hvs⟩, hd⟩
    refine ⟨(us.place settings k).holder, ?_, ?_⟩
    · exact (result_assemble_eq_ok_iff settings announcement' k us _).2 ⟨hus, rfl⟩
    · rw [← Script.strays_place_after settings us vs k] at hvs
      exact (result_assemble_eq_ok_iff settings _ _ vs d).2 ⟨hvs, hd⟩
  · rintro ⟨m, hm, hd⟩
    obtain ⟨hus, rfl⟩ := (result_assemble_eq_ok_iff settings announcement' k us m).1 hm
    obtain ⟨hvs, hd⟩ := (result_assemble_eq_ok_iff settings _ _ vs d).1 hd
    rw [Script.strays_place_after] at hvs
    exact ⟨⟨hus, hvs⟩, hd⟩

/-- **A script in two parts leaves over** what each part leaves over by itself. -/
theorem unplaced_assemble_append (announcement' announcement'' : Event) (us vs : Script) :
    (k.assemble settings announcement (us ++ vs)).unplaced =
      (k.assemble settings announcement' us).unplaced ++
        (k.assemble settings announcement'' vs).unplaced := by
  rw [unplaced_assemble, unplaced_assemble, unplaced_assemble, Script.strays_place_append]

/-- An assembly that does not succeed is an error with the name of the class. -/
theorem result_assemble_eq_error {ds : Script}
    (h : ∀ d, (k.assemble settings announcement ds).result ≠ .ok d) :
    (k.assemble settings announcement ds).result =
      .error ⟨k.name, (k.assemble settings announcement ds).unplaced⟩ := by
  have hstrays : (ds.place settings k).strays ≠ [] := fun hnil =>
    h _ ((result_assemble_eq_ok_iff settings announcement k ds _).2 ⟨hnil, rfl⟩)
  rw [unplaced_assemble, result_assemble_eq_ite, if_neg hstrays]

/-- Edits succeed one by one. -/
theorem edits_cons_eq_ok_iff (ds : Script) (parts : List Script) (d : Class) :
    k.edits settings (ds :: parts) = .ok d ↔
      ∃ m, (k.edit settings ds).result = .ok m ∧ m.edits settings parts = .ok d := by
  have hcons : k.edits settings (ds :: parts) =
      (k.edit settings ds).result.bind fun m => m.edits settings parts := rfl
  rw [hcons]
  cases (k.edit settings ds).result with
  | error e => simp [Except.bind]
  | ok m => simp [Except.bind]

/-- **A script in any number of parts succeeds** if the edits by its parts do, one after another. -/
theorem result_assemble_flatten_eq_ok_iff (parts : List Script) (d : Class) :
    (k.assemble settings announcement parts.flatten).result = .ok d ↔
      k.edits settings parts = .ok d := by
  induction parts generalizing k announcement with
  | nil => rfl
  | cons ds parts ih =>
      rw [List.flatten_cons, edits_cons_eq_ok_iff,
        result_assemble_append_eq_ok_iff settings announcement k _ ds parts.flatten d]
      exact exists_congr fun m => and_congr_right fun _ => ih _ m

/-- **A script in any number of parts leaves over** what each part leaves over by itself. -/
theorem unplaced_assemble_flatten (parts : List Script) :
    (k.assemble settings announcement parts.flatten).unplaced =
      parts.flatMap fun ds => (k.edit settings ds).unplaced := by
  induction parts with
  | nil => rfl
  | cons ds parts ih =>
      rw [List.flatten_cons, List.flatMap_cons, ← ih]
      exact unplaced_assemble_append settings announcement k _ announcement ds parts.flatten

end Class

/-- **A script may be cut in two.** -/
theorem build_append (settings : Settings) (k : Class) (us vs : Script) :
    (∀ d, (k.build settings (us ++ vs)).result = .ok d ↔
        ∃ m, (k.build settings us).result = .ok m ∧ (m.edit settings vs).result = .ok d) ∧
      ((¬∃ m d, (k.build settings us).result = .ok m ∧ (m.edit settings vs).result = .ok d) →
        (k.build settings (us ++ vs)).result =
          .error ⟨k.name, (k.build settings us).unplaced ++ (k.build settings vs).unplaced⟩) := by
  have hok : ∀ d, (k.build settings (us ++ vs)).result = .ok d ↔
      ∃ m, (k.build settings us).result = .ok m ∧ (m.edit settings vs).result = .ok d :=
    Class.result_assemble_append_eq_ok_iff settings _ k _ us vs
  refine ⟨hok, fun hnone => ?_⟩
  have hfails : ∀ d, (k.build settings (us ++ vs)).result ≠ .ok d := by
    intro d hd
    obtain ⟨m, hm⟩ := (hok d).1 hd
    exact hnone ⟨m, d, hm⟩
  have hunplaced : (k.build settings (us ++ vs)).unplaced =
      (k.build settings us).unplaced ++ (k.build settings vs).unplaced :=
    Class.unplaced_assemble_append settings _ k _ _ us vs
  rw [← hunplaced]
  exact Class.result_assemble_eq_error settings _ k hfails

/-- Neither a label nor an instruction has a place in a class.  With one of them in each part,
beside a method and a constant that are taken, the whole reports the two in order. -/
theorem build_append_bothFail :
    let k := Class.empty "Foo" .empty
    let us : Script := [.label "a", .component (.method ⟨"run", none, [], .empty⟩)]
    let vs : Script := [.component (.constant "one" (.int 1) []),
      .component (.instruction .returnVoid ())]
    (¬∃ m d, (k.build .usual us).result = .ok m ∧ (m.edit .usual vs).result = .ok d) ∧
      (k.build .usual (us ++ vs)).result =
        .error ⟨"Foo", [⟨.label "a", [⟨.root, .missingSlotAndScopeMismatch⟩]⟩,
          ⟨.instruction .returnVoid (), [⟨.root, .missingSlotAndScopeMismatch⟩]⟩]⟩ := by
  intro k us vs
  have hus : (k.build .usual us).result =
      .error ⟨"Foo", [⟨.label "a", [⟨.root, .missingSlotAndScopeMismatch⟩]⟩]⟩ := rfl
  have hnone : ¬∃ m d, (k.build .usual us).result = .ok m ∧ (m.edit .usual vs).result = .ok d := by
    rintro ⟨m, d, hm, -⟩
    rw [hus] at hm
    cases hm
  exact ⟨hnone, (build_append .usual k us vs).2 hnone⟩

end ClassFile
