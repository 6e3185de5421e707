/-
**Placing never looks at payloads.**

What a tree says, its names, flags, types, labels and values, has no part in where components go: a
verdict depends on scopes, slots and placements, and these a relabelling keeps.  So a relabelling
may be done before a script is placed or after, and it comes to the same.  The holder may be
anything that is relabelled along with the components that go into it; a block needs this of nodes
while the script around it may be for a class.

Main definitions:

* `Relabels` — a map between holders that goes along with a relabelling of components;
* `Outcome.relabel` — the outcome of a placement with its payloads changed;
* `Class.relabelResult` — the result of assembling a class with its payloads changed.

Main results:

* `Node.relabels`, `Class.relabels`, `Target.relabels` — all holders are relabelled in this way;
* `Script.place_relabels` — **relabelling goes along with placing**, for any holder;
* `place_relabel` — the same for classes and nodes, and for assembling classes.
-/

import ClassFile.Proofs.Trails
import ClassFile.Script.Relabelling

set_option relaxedAutoImplicit false
set_option autoImplicit false

namespace ClassFile

variable (r : Relabelling)

/-! ### Components and tables -/

theorem Component.placement_relabel (c : Component) : (c.relabel r).placement = c.placement := by
  cases c
  rfl

theorem Component.node_relabel (c : Component) : (c.relabel r).node = c.node.relabel r := by
  cases c
  rfl

/-- A label given by its name alone is relabelled as the label that it stands for. -/
theorem Component.relabel_label (name : String) :
    (Component.label name).relabel r = Component.label (r.label name) := by
  have hargs := r.labelArgs_label name
  simp [Component.label, Component.usual, Component.of, Component.relabel, Node.relabel, hargs,
    Node.scope, Node.usualSlot, Node.usualParents]

theorem relabelAll_append (cs ds : List Component) :
    relabelAll r (cs ++ ds) = relabelAll r cs ++ relabelAll r ds := by
  induction cs with
  | nil => rfl
  | cons c cs ih => simp [relabelAll, ih]

theorem relabelAll_concat (cs : List Component) (c : Component) :
    relabelAll r (cs ++ [c]) = relabelAll r cs ++ [c.relabel r] :=
  relabelAll_append r cs [c]

/-- A component goes to the same table, relabelled or not. -/
theorem pushTable?_relabelTables (tables : Tables) (s : Slot) (c : Component) :
    pushTable? (relabelTables r tables) s (c.relabel r) =
      (pushTable? tables s c).map (relabelTables r) := by
  induction tables with
  | nil => rfl
  | cons t ts ih =>
      obtain ⟨s', cs⟩ := t
      by_cases hs : s' = s
      · simp [pushTable?, relabelTables, hs, relabelAll_concat]
      · simp only [pushTable?, relabelTables, if_neg hs, ih, Option.map_map]
        rfl

/-! ### Holders -/

/-- The map between holders changes payloads at most, and goes along with the relabelling of what is
added to a holder. -/
structure Relabels {α β : Type} [Holder α] [Holder β] (f : α → β) : Prop where
  /-- The kind of a holder stays. -/
  scope_eq (h : α) : Holder.scope (f h) = Holder.scope h
  /-- A component may be relabelled before it is added, or along with the holder after. -/
  push?_eq (h : α) (s : Slot) (c : Component) :
    Holder.push? (f h) s (c.relabel r) = (Holder.push? h s c).map f

theorem Node.relabels : Relabels r (Node.relabel r) where
  scope_eq := Node.scope_relabel r
  push?_eq n s c := by
    cases n with
    | method header as =>
        by_cases hs : s = .attributes <;>
          simp [Holder.push?, Node.push?, Node.relabel, hs, relabelAll_concat]
    | field header as =>
        by_cases hs : s = .attributes <;>
          simp [Holder.push?, Node.push?, Node.relabel, hs, relabelAll_concat]
    | attr kind args as ts =>
        by_cases hs : s = .attributes
        · simp [Holder.push?, Node.push?, Node.relabel, hs, relabelAll_concat]
        · simp only [Holder.push?, Node.push?, Node.relabel, if_neg hs,
            pushTable?_relabelTables, Option.map_map]
          rfl
    | instruction opcode args => cases opcode <;> rfl
    | constant label tag values => rfl
    | entry kind args => rfl

theorem Class.relabels : Relabels r (Class.relabel r) where
  scope_eq _ := rfl
  push?_eq k s c := by
    cases s <;> simp [Holder.push?, Class.push?, Class.relabel, relabelAll_concat]

theorem Target.relabels : Relabels r (Target.relabel r) where
  scope_eq t := by
    cases t with
    | root k => exact (Class.relabels r).scope_eq k
    | node n => exact (Node.relabels r).scope_eq n
  push?_eq t s c := by
    cases t with
    | root k =>
        have hpush := (Class.relabels r).push?_eq k s c
        simp only [Holder.push?, Target.relabel] at hpush ⊢
        rw [hpush, Option.map_map, Option.map_map]
        rfl
    | node n =>
        have hpush := (Node.relabels r).push?_eq n s c
        simp only [Holder.push?, Target.relabel] at hpush ⊢
        rw [hpush, Option.map_map, Option.map_map]
        rfl

/-! ### Placing -/

/-- The outcome with its payloads changed: the holder by the given map, the strays by the
relabelling; the events have no payloads. -/
def Outcome.relabel {α β : Type} (f : α → β) (o : Outcome α) : Outcome β :=
  ⟨f o.holder, o.strays.map (Stray.relabel r), o.log⟩

variable {r}

namespace Relabels

variable {α β : Type} [Holder α] [Holder β] {f : α → β}

theorem add_eq (hf : Relabels r f) (h : α) (c : Component) :
    add (f h) (c.relabel r) = f (add h c) := by
  rw [add, add, Component.placement_relabel, hf.push?_eq]
  cases Holder.push? h c.placement.slot c <;> rfl

variable [LawfulHolder α] [LawfulHolder β]

/-- The slots of a holder stay. -/
theorem hasSlot_eq (hf : Relabels r f) (h : α) (s : Slot) : hasSlot (f h) s = hasSlot h s := by
  -- any component will do to try a slot
  have hpush := hf.push?_eq h s (Component.label "")
  rw [← isSome_push? (f h) s, hpush, Option.isSome_map, isSome_push?]

theorem refusal?_eq (hf : Relabels r f) (h : α) (p : Placement) :
    refusal? (f h) p = refusal? h p := by
  have hshape : shape (f h) = shape h := by
    rw [shape, shape, hf.scope_eq, funext (hf.hasSlot_eq h)]
  rw [refusal?, refusal?, hshape]

theorem offer_eq (hf : Relabels r f) (settings : Settings) (h : α) (s : Stray) :
    offer settings (f h) (s.relabel r) = (offer settings h s).relabel r f := by
  have hplacement : (s.relabel r).component.placement = s.component.placement :=
    Component.placement_relabel r s.component
  have hscope : (s.relabel r).component.scope = s.component.scope :=
    congrArg Placement.scope hplacement
  cases hr : refusal? h s.component.placement with
  | none =>
      have hr' : refusal? (f h) (s.relabel r).component.placement = none := by
        rw [hplacement, hf.refusal?_eq, hr]
      have hadd : add (f h) (s.relabel r).component = f (add h s.component) :=
        hf.add_eq h s.component
      rw [offer_of_accepted hr, offer_of_accepted hr', hadd, hscope, hplacement, hf.scope_eq]
      rfl
  | some reason =>
      have hr' : refusal? (f h) (s.relabel r).component.placement = some reason := by
        rw [hplacement, hf.refusal?_eq, hr]
      rw [offer_of_refusal hr, offer_of_refusal hr', hscope, hf.scope_eq]
      rfl

theorem offerAll_eq (hf : Relabels r f) (settings : Settings) (h : α) (ss : List Stray) :
    offerAll settings (f h) (ss.map (Stray.relabel r)) =
      (offerAll settings h ss).relabel r f := by
  induction ss generalizing h with
  | nil => rfl
  | cons s ss ih =>
      simp only [List.map_cons, offerAll, Outcome.andThen, hf.offer_eq, Outcome.relabel] at ih ⊢
      rw [ih]
      simp

end Relabels

/-- The report on what leaves a component has no payloads. -/
theorem escapes_map_relabel (ss : List Stray) (component : Scope) :
    escapes (ss.map (Stray.relabel r)) component = escapes ss component := by
  simp [escapes]

theorem blockOffers_relabel (p : Placement) (body : Outcome Node) :
    blockOffers p (body.relabel r (Node.relabel r)) =
      (blockOffers p body).map (Stray.relabel r) := rfl

mutual

theorem Decl.place_relabels {α β : Type} [Holder α] [LawfulHolder α] [Holder β] [LawfulHolder β]
    {f : α → β} (hf : Relabels r f) (settings : Settings) (d : Decl) (h : α) :
    (d.relabel r).place settings (f h) = (d.place settings h).relabel r f := by
  cases d with
  | nothing => rfl
  | label name =>
      have hlabel : (Component.label (r.label name)).unrefused =
          (Component.label name).unrefused.relabel r :=
        congrArg Component.unrefused (Component.relabel_label r name).symm
      simp only [Decl.relabel, Decl.place]
      rw [hlabel]
      exact hf.offer_eq settings h _
  | component c => exact hf.offer_eq settings h c.unrefused
  | stray s => exact hf.offer_eq settings h s
  | group ds => exact Script.place_relabels hf settings ds h
  | block c ds =>
      -- the body is placed into a node, whatever the block is placed into
      have hbody := Script.place_relabels (Node.relabels r) settings ds c.node
      rw [← Component.node_relabel] at hbody
      have hscope : (c.relabel r).scope = c.scope :=
        congrArg Placement.scope (Component.placement_relabel r c)
      have haround := hf.offerAll_eq settings h
        (blockOffers c.placement (Script.place settings ds c.node))
      rw [← blockOffers_relabel] at haround
      simp only [Decl.relabel, Decl.place, hbody, hscope, Component.placement_relabel, haround]
      simp only [Outcome.relabel, escapes_map_relabel]
termination_by structural d

/-- **Relabelling goes along with placing.** -/
theorem Script.place_relabels {α β : Type} [Holder α] [LawfulHolder α] [Holder β]
    [LawfulHolder β] {f : α → β} (hf : Relabels r f) (settings : Settings) (ds : Script) (h : α) :
    (Script.relabel r ds).place settings (f h) = (ds.place settings h).relabel r f := by
  cases ds with
  | nil => rfl
  | cons d ds =>
      have hd := Decl.place_relabels hf settings d h
      have hds := Script.place_relabels hf settings ds (d.place settings h).holder
      simp only [Script.relabel, Script.place, Outcome.andThen, hd, Outcome.relabel] at hds ⊢
      rw [hds]
      simp
termination_by structural ds

end

/-! ### Assembling -/

variable (r)

/-- The result of assembling the class with its payloads changed: a class or the strays of an error,
where the error has the changed name of the class. -/
def Class.relabelResult (k : Class) :
    Except PlacementError Class → Except PlacementError Class
  | .ok d => .ok (d.relabel r)
  | .error e => .error ⟨(k.relabel r).name, e.unplaced.map (Stray.relabel r)⟩

/-- **Relabelling goes along with assembling.** -/
theorem Class.result_assemble_relabel (settings : Settings) (announcement announcement' : Event)
    (k : Class) (ds : Script) :
    ((k.relabel r).assemble settings announcement' (Script.relabel r ds)).result =
      k.relabelResult r (k.assemble settings announcement ds).result := by
  have hplace := Script.place_relabels (Class.relabels r) settings ds k
  have hnil : ((ds.place settings k).relabel r (Class.relabel r)).strays = [] ↔
      (ds.place settings k).strays = [] := List.map_eq_nil_iff
  rw [Class.result_assemble_eq_ite, Class.result_assemble_eq_ite, hplace]
  by_cases h : (ds.place settings k).strays = []
  · rw [if_pos h, if_pos (hnil.2 h)]
    rfl
  · rw [if_neg h, if_neg (mt hnil.1 h)]
    rfl

/-- **Placing never looks at payloads**: relabelling first and then placing a script comes to
relabelling what comes of placing it, trails and events unchanged; and a class is assembled just if
the relabelled one is. -/
theorem place_relabel (settings : Settings) (ds : Script) :
    (∀ t : Target, (Script.relabel r ds).place settings (t.relabel r) =
        (ds.place settings t).relabel r (Target.relabel r)) ∧
      (∀ t : Target, ((Script.relabel r ds).place settings (t.relabel r)).strays.map Stray.trail =
        (ds.place settings t).strays.map Stray.trail) ∧
      ∀ k : Class,
        ((k.relabel r).build settings (Script.relabel r ds)).result =
            k.relabelResult r (k.build settings ds).result ∧
          ((k.relabel r).edit settings (Script.relabel r ds)).result =
            k.relabelResult r (k.edit settings ds).result := by
  have hplace : ∀ t : Target, (Script.relabel r ds).place settings (t.relabel r) =
      (ds.place settings t).relabel r (Target.relabel r) :=
    Script.place_relabels (Target.relabels r) settings ds
  refine ⟨hplace, fun t => ?_, fun k => ?_⟩
  · rw [hplace t, Outcome.relabel, List.map_map]
    rfl
  · exact ⟨Class.result_assemble_relabel r settings _ _ k ds,
      Class.result_assemble_relabel r settings _ _ k ds⟩

/-- Names of labels get longer and all other payloads go.  As before, the code takes the label and
not the field, and a class cannot be edited by the two because of the label. -/
theorem place_relabel_shorn :
    let shorn : Relabelling :=
      { root := fun _ => ("", .empty), method := fun _ => ⟨"", none, [], .empty⟩
        field := fun _ => ⟨"", .base .int, .empty⟩, constant := fun _ => ("", .int 0, [])
        attr := fun _ _ => [], entry := fun _ _ => [], instruction := fun _ _ => []
        label := fun name => "L" ++ name
        labelArgs := fun args => match args with
          | [.label name] => [.label ("L" ++ name)]
          | _ => []
        labelArgs_label := fun _ => rfl }
    let code := Target.node (Component.attr .code (.int 1, .int 1, ())).node
    let ds : Script := [.label "a", .component (.field ⟨"count", .base .long, .empty⟩)]
    let o := (Script.relabel shorn ds).place .usual (code.relabel shorn)
    let k := Class.empty "Foo" .empty
    o = (ds.place .usual code).relabel shorn (Target.relabel shorn) ∧
      o.holder = .node (.attr .code [] [] [(.code, [.label "La"]), (.exceptionTable, [])]) ∧
      o.strays = [⟨.field ⟨"", .base .int, .empty⟩, [⟨.code, .missingSlotAndScopeMismatch⟩]⟩] ∧
      ((k.relabel shorn).edit .usual (Script.relabel shorn ds)).result =
        k.relabelResult shorn (k.edit .usual ds).result := by
  intro shorn code ds o k
  obtain ⟨hplace, -, hassemble⟩ := place_relabel shorn .usual ds
  exact ⟨hplace code, rfl, rfl, (hassemble k).2⟩

end ClassFile
