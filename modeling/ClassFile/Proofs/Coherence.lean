/-
**The tables of the schema fit together.**

What a component asks for is in one table, and what slots its holders have in another, and yet a
holder in which a component of the schema may stand always has the slot that the component asks
for.  So nothing is ever refused for a missing slot alone, and what may stand in a class finds its
way there from any depth.  In particular all constants of a script end up in the class, in the
order of their declaration, and nowhere else.

Main definitions:

* `Orderly` — a holder that has the slots that the schema expects, and no constant where the schema
  expects none;
* `Component.Regular` — a component that asks for what the schema admits, with an orderly node;
* `TablesAgree` — what the tables promise about placing a script into a class.

Main results:

* `Component.OfSchema.orderly` — **the cross-check of the tables**: each component of the schema has
  all the slots in which the schema lets something stand;
* `kept_orderly` — placing keeps holders orderly, and components regular;
* `place_tablesAgree` — **the tables agree about every script**.
-/

import ClassFile.Proofs.Conformance
import ClassFile.Proofs.Reported
import ClassFile.Tree.Census

set_option relaxedAutoImplicit false
set_option autoImplicit false

namespace ClassFile

/-! ### The cross-check of the tables -/

/-- The slots in which the schema lets something stand, by the scope of their holder. -/
theorem mem_of_admits {holder child : Scope} {s : Slot} (h : admits holder s child = true) :
    (holder = .root ∧ s ∈ [Slot.methods, .fields, .constantPool, .attributes]) ∨
      ((holder = .method ∨ holder = .field) ∧ s = .attributes) ∨
      ∃ kind, holder = .attr kind ∧ (s = .attributes ∨ s ∈ kind.tables) := by
  cases child with
  | root => simp [admits] at h
  | method => simp_all [admits]
  | field => simp_all [admits]
  | constant => simp_all [admits]
  | label =>
      obtain ⟨rfl, rfl⟩ : s = .code ∧ holder = .code := by simpa [admits] using h
      exact .inr (.inr ⟨.code, rfl, .inr (by decide)⟩)
  | instruction opcode =>
      obtain ⟨rfl, rfl⟩ : s = .code ∧ holder = .code := by simpa [admits] using h
      exact .inr (.inr ⟨.code, rfl, .inr (by decide)⟩)
  | attr kind =>
      obtain ⟨rfl, hholder⟩ : s = .attributes ∧ holder ∈ kind.parents := by
        simpa [admits] using h
      rcases AttributeKind.eq_of_mem_parents hholder with rfl | rfl | rfl | rfl
      · exact .inl ⟨rfl, by decide⟩
      · exact .inr (.inl ⟨.inl rfl, rfl⟩)
      · exact .inr (.inl ⟨.inr rfl, rfl⟩)
      · exact .inr (.inr ⟨.code, rfl, .inl rfl⟩)
  | entry kind =>
      obtain ⟨rfl, rfl⟩ : s = kind.slot ∧ holder = .attr kind.row.owner := by
        simpa [admits] using h
      exact .inr (.inr ⟨_, rfl, .inr kind.slot_mem_tables⟩)

/-- The holder has every slot in which the schema lets something stand in it, and there is no
constant below it, unless it is a class. -/
structure Orderly {α : Type} [Holder α] (h : α) : Prop where
  hasSlot_of_admits : ∀ s child, admits (Holder.scope h) s child = true → hasSlot h s = true
  noConstant : Holder.scope h ≠ .root → ∀ x ∈ census h, x.node.scope ≠ .constant

theorem Vacant.census_eq_nil {α : Type} [Holder α] {h : α} (hh : Vacant h) : census h = [] := by
  refine List.eq_nil_iff_forall_not_mem.2 fun x hx => ?_
  obtain ⟨t, ht, c, hc, -⟩ := mem_census.1 hx
  exact hh.not_mem ht c hc

theorem isSome_tableSlot?_iff {tables : Tables} {s : Slot} :
    (tableSlot? tables s).isSome = true ↔ s ∈ tables.map Prod.fst := by
  induction tables with
  | nil => simp [tableSlot?]
  | cons t ts ih =>
      simp only [tableSlot?, List.map_cons, List.mem_cons]
      split
      · next hs => simp [hs]
      · next hs => simp [ih, Ne.symm hs]

/-- A holder has the slots that are listed among its slots. -/
theorem hasSlot_iff {α : Type} [Holder α] [LawfulHolder α] {h : α} {s : Slot} :
    hasSlot h s = true ↔ s ∈ (Holder.slots h).map Prod.fst := by
  rw [hasSlot, LawfulHolder.slot?_eq, isSome_tableSlot?_iff]

theorem Class.orderly (k : Class) : Orderly k where
  hasSlot_of_admits s child h := by
    rcases mem_of_admits h with ⟨-, hs⟩ | ⟨hscope, -⟩ | ⟨kind, hscope, -⟩
    · exact hasSlot_iff.2 hs
    · simp [Holder.scope] at hscope
    · simp [Holder.scope] at hscope
  noConstant h := absurd rfl h

/-- **The cross-check of the tables**: each component of the schema has all the slots in which the
schema lets something stand. -/
theorem Component.OfSchema.orderly {c : Component} (hc : c.OfSchema) : Orderly c.node where
  hasSlot_of_admits s child h := by
    cases hc with
    | method header =>
        have h : admits .method s child = true := h
        obtain rfl : s = .attributes := by simpa using mem_of_admits h
        rfl
    | field header =>
        have h : admits .field s child = true := h
        obtain rfl : s = .attributes := by simpa using mem_of_admits h
        rfl
    | attr kind args =>
        have h : admits (.attr kind) s child = true := h
        have hs : s = .attributes ∨ s ∈ kind.tables := by simpa using mem_of_admits h
        exact hasSlot_iff.2 (by simpa [Holder.slots, Node.slots, Component.attr, Component.usual,
          Component.of, Function.comp_def] using hs)
    | constant label tag values =>
        have h : admits .constant s child = true := h
        simpa using mem_of_admits h
    | label name =>
        have h : admits .label s child = true := h
        simpa using mem_of_admits h
    | instruction opcode args =>
        have h : admits (.instruction opcode) s child = true := h
        simpa using mem_of_admits h
    | entry kind args =>
        have h : admits (.entry kind) s child = true := h
        simpa using mem_of_admits h
  noConstant _ x hx := by simp [hc.vacant.census_eq_nil] at hx

/-! ### Orderly trees stay so -/

/-- The component asks for just what the schema admits, and its node is orderly. -/
structure Component.Regular (c : Component) : Prop where
  admits_iff : ∀ s holder, admits holder s c.node.scope = true ↔
    s = c.placement.slot ∧ holder ∈ c.placement.parents
  orderly : Orderly c.node

theorem Component.OfSchema.regular {c : Component} (hc : c.OfSchema) : c.Regular where
  admits_iff s holder := by
    rw [hc.eq_usual]
    exact admits_usual c.node s holder
  orderly := hc.orderly

theorem admits_constant_iff {holder : Scope} {s : Slot} :
    admits holder s .constant = true ↔ s = .constantPool ∧ holder = .root := by
  simp [admits]

/-- Nothing else than a constant may stand among the constants of a class. -/
theorem eq_constant_of_admits {child : Scope} (h : admits .root .constantPool child = true) :
    child = .constant := by
  cases child <;> simp_all [admits]

/-- A regular constant asks for the constants of the class, and for nothing else. -/
theorem Component.Regular.of_constant {c : Component} (hc : c.Regular)
    (hconstant : c.node.scope = .constant) :
    c.placement.slot = .constantPool ∧ ∀ holder, holder ∈ c.placement.parents ↔ holder = .root := by
  have hiff : ∀ s holder, s = Slot.constantPool ∧ holder = Scope.root ↔
      s = c.placement.slot ∧ holder ∈ c.placement.parents := by
    intro s holder
    rw [← hc.admits_iff, hconstant, admits_constant_iff]
  have hslot := ((hiff .constantPool .root).1 ⟨rfl, rfl⟩).1.symm
  refine ⟨hslot, fun holder => ?_⟩
  have h := hiff c.placement.slot holder
  simpa [hslot] using h.symm

theorem Node.scope_ne_root (n : Node) : n.scope ≠ .root := by
  rcases n with _ | _ | _ | ⟨_ | _, _⟩ | _ | _ <;> simp [Node.scope]

/-- There is no constant below a regular component. -/
theorem Component.Regular.noConstant_below {c : Component} (hc : c.Regular) :
    ∀ x ∈ c.node.census, x.node.scope ≠ .constant := by
  rw [Node.census_eq]
  exact hc.orderly.noConstant c.node.scope_ne_root

/-- There is no constant in a regular component that is none itself. -/
theorem Component.Regular.noConstant_census {c : Component} (hc : c.Regular)
    (hconstant : c.node.scope ≠ .constant) : ∀ x ∈ c.census, x.node.scope ≠ .constant := by
  have hbare : c.bare.node.scope = c.node.scope := LawfulHolder.scope_vacated c.node
  rw [c.census_eq, List.forall_mem_cons, hbare]
  exact ⟨hconstant, hc.noConstant_below⟩

/-- An orderly holder that takes a regular component is orderly. -/
theorem Orderly.add {α : Type} [Holder α] [LawfulHolder α] {h : α} {c : Component}
    (hh : Orderly h) (hc : c.Regular) (hr : refusal? h c.placement = none) :
    Orderly (add h c) := by
  have hscope : Holder.scope (ClassFile.add h c) = Holder.scope h := scope_addAll h [c]
  have hslots : hasSlot (ClassFile.add h c) = hasSlot h := congrArg Shape.hasSlot (shape_add h c)
  constructor
  · rw [hscope, hslots]
    exact hh.hasSlot_of_admits
  · rw [hscope]
    intro hroot
    -- a constant would have been taken by a class only
    have hc' : c.node.scope ≠ .constant := fun hconstant =>
      hroot (((hc.of_constant hconstant).2 _).1 (refusal?_eq_none_iff.1 hr).2)
    have hnew := hc.noConstant_census hc'
    have hold : ∀ t ∈ Holder.slots h, ∀ c' ∈ t.2, ∀ x ∈ c'.census, x.node.scope ≠ .constant :=
      fun t ht c' hc' x hx => hh.noConstant hroot x (mem_census.2 ⟨t, ht, c', hc', hx⟩)
    intro x hx
    obtain ⟨t, ht, c', hc', hx⟩ := mem_census.1 hx
    exact forall_mem_slots_add (R := fun _ c' => ∀ x ∈ c'.census, x.node.scope ≠ .constant) hold
      hnew t ht c' hc' x hx

/-- **Placing keeps holders orderly and components regular.** -/
theorem kept_orderly : Kept Orderly Component.Regular where
  add := Orderly.add
  opened hc := hc.orderly
  closed := by
    intro c n hc hn hscope
    refine ⟨?_, hn⟩
    rw [hscope]
    exact hc.admits_iff

/-- A component that grew from the schema is regular. -/
theorem Component.Grown.regular {c : Component} (hc : c.Grown) : c.Regular :=
  hc.of_keptByFilling kept_orderly.keptByFilling fun _ hc => hc.regular

/-! ### Where the components of a script end up -/

theorem Script.declared_mem_components {ds : Script} {chain : List Shape} {o : Occurrence}
    (ho : o ∈ ds.occurrences chain) : o.declared ∈ ds.components := by
  rw [← ds.map_declared_occurrences chain]
  exact List.mem_map_of_mem ho

/-- A holder without slots stays as it is. -/
theorem addAll_eq_self_of_slots_eq_nil {α : Type} [Holder α] [LawfulHolder α] {h : α}
    (hs : Holder.slots h = []) (cs : List Component) : addAll h cs = h := by
  refine LawfulHolder.eq_of_vacated_of_slots (vacated_addAll h cs) ?_
  rw [slots_addAll, hs]
  rfl

theorem Node.slots_eq_nil_of_constant {n : Node} (hn : n.scope = .constant) :
    Holder.slots n = [] := by
  rcases n with _ | _ | _ | ⟨_ | _, _⟩ | _ | _ <;> simp_all [Node.scope, Holder.slots, Node.slots]

theorem Component.eq_of_parts {c c' : Component} (hplacement : c.placement = c'.placement)
    (hnode : c.node = c'.node) : c = c' := by
  cases c
  cases c'
  simp_all

/-- A constant ends up as it was declared, whatever is declared inside it. -/
theorem Script.final_eq_of_constant {ds : Script} {chain : List Shape} {o : Occurrence}
    (ho : o ∈ ds.occurrences chain) (hconstant : o.declared.node.scope = .constant) :
    o.final = o.declared := by
  obtain ⟨before, after, h⟩ := List.append_of_mem ho
  obtain ⟨-, hplacement, hfilled⟩ := Script.bodiesFilled ds chain o after ⟨before, h.symm⟩
  have hnode : o.final.node = o.declared.node := by
    rw [hfilled.eq_addAll]
    exact addAll_eq_self_of_slots_eq_nil (Node.slots_eq_nil_of_constant hconstant) _
  exact Component.eq_of_parts hplacement hnode

/-! ### The tables agree -/

/-- A holder that refuses for a missing slot alone is one that the component may stand in. -/
theorem Shape.of_refusal?_eq_missingSlot {f : Shape} {p : Placement}
    (h : f.refusal? p = some .missingSlot) : f.hasSlot p.slot = false ∧ f.scope ∈ p.parents := by
  rw [← Placement.accepts_iff]
  rw [refusal?] at h
  split at h <;> simp_all

section

variable {ds : Script} (hds : ∀ c ∈ ds.components, c.Regular) (k : Class)
include hds

/-- A holder around a component that it may stand in has the slot that it asks for. -/
theorem Script.hasSlot_of_mem_chain {o : Occurrence} (ho : o ∈ ds.occurrences [shape k])
    {f : Shape} (hf : f ∈ o.chain) (hparent : f.scope ∈ o.declared.placement.parents) :
    f.hasSlot o.declared.placement.slot = true := by
  have hadmits : admits f.scope o.declared.placement.slot o.declared.node.scope = true :=
    ((hds _ (Script.declared_mem_components ho)).admits_iff _ _).2 ⟨rfl, hparent⟩
  obtain ⟨inner, hchain, hinner⟩ := Script.chain_eq_append ds ho
  rw [hchain] at hf
  rcases List.mem_append.1 hf with hf | hf
  · obtain ⟨c, hc, rfl⟩ := hinner f hf
    exact (hds c hc).orderly.hasSlot_of_admits _ _ hadmits
  · obtain rfl := List.mem_singleton.1 hf
    exact k.orderly.hasSlot_of_admits _ _ hadmits

/-- What may stand in a class finds a home, from any depth. -/
theorem Script.level?_ne_none {o : Occurrence} (ho : o ∈ ds.occurrences [shape k])
    (hroot : .root ∈ o.declared.placement.parents) : o.level? ≠ none := by
  intro hnone
  have hk : shape k ∈ o.chain := (Script.suffix_chain ds ho).subset List.mem_cons_self
  exact o.level?_eq_none_iff.1 hnone _ hk ⟨Script.hasSlot_of_mem_chain hds k ho hk hroot, hroot⟩

/-- What lands in the class and asks for its constants is what was declared as a constant. -/
theorem Script.lands_iff_constant {o : Occurrence} (ho : o ∈ ds.occurrences [shape k]) :
    o.level? = some 0 ∧ o.final.placement.slot = .constantPool ↔
      o.declared.node.scope = .constant := by
  have hregular := hds _ (Script.declared_mem_components ho)
  obtain ⟨around, hchain, haround⟩ := Script.chain_eq_append ds ho
  rw [Script.placement_final ds ho, o.level?_eq_some_iff]
  constructor
  · rintro ⟨⟨inner, f, outer, hchain', houter, htakes, -⟩, hslot⟩
    obtain rfl := List.eq_nil_of_length_eq_zero houter
    obtain ⟨-, hf⟩ := List.append_inj' (hchain'.symm.trans hchain) rfl
    obtain rfl := List.singleton_inj.1 hf
    exact eq_constant_of_admits ((hregular.admits_iff _ _).2 ⟨hslot.symm, htakes.2⟩)
  · intro hconstant
    obtain ⟨hslot, hparents⟩ := hregular.of_constant hconstant
    refine ⟨⟨around, shape k, [], hchain, rfl, ?_, ?_⟩, hslot⟩
    · exact ⟨by rw [hslot]; rfl, (hparents _).2 rfl⟩
    · -- all other holders around are nodes, and none of them is a class
      intro g hg htakes
      obtain ⟨c, -, rfl⟩ := haround g hg
      exact c.node.scope_ne_root ((hparents _).1 htakes.2)

/-- The constants that land in the class are those of the script, in order. -/
theorem Script.filter_landedAt_constants :
    ((landedAt 0 (ds.occurrences [shape k])).filter fun c => c.placement.slot = .constantPool) =
      ds.components.filter fun c => c.node.scope = .constant := by
  have hmap := Script.map_declared_occurrences ds [shape k]
  rw [landedAt, List.filter_map, List.filter_filter, ← hmap, List.filter_map]
  have hsame : ∀ o ∈ ds.occurrences [shape k],
      (((fun c : Component => decide (c.placement.slot = .constantPool)) ∘ Occurrence.final) o &&
        decide (o.level? = some 0)) =
      ((fun c : Component => decide (c.node.scope = .constant)) ∘ Occurrence.declared) o := by
    intro o ho
    have hiff := Script.lands_iff_constant hds k ho
    rw [Bool.eq_iff_iff]
    simp only [Function.comp, Bool.and_eq_true, decide_eq_true_eq]
    rw [← hiff, and_comm]
  rw [List.filter_congr hsame]
  refine List.map_congr_left fun o ho => ?_
  obtain ⟨ho, hconstant⟩ := List.mem_filter.1 ho
  exact Script.final_eq_of_constant ho (of_decide_eq_true hconstant)

variable (settings : Settings)

/-- No holder refuses a component for a missing slot alone. -/
theorem Script.missingSlot_not_mem_log (component holder : Scope) :
    .rejected component holder .missingSlot ∉ (ds.place settings k).log := by
  intro hmem
  -- such an event would be the answer of a holder around an occurrence
  obtain ⟨o, ho, f, hf, hanswer⟩ := Script.exists_of_mem_log settings ds hmem rfl
  obtain ⟨-, -, hreason⟩ := (f.answer_eq_rejected_iff _).1 hanswer
  obtain ⟨hnot, hparent⟩ := Shape.of_refusal?_eq_missingSlot hreason
  exact Bool.false_ne_true (hnot.symm.trans (Script.hasSlot_of_mem_chain hds k ho hf hparent))

/-- No stray may stand in a class. -/
theorem Script.root_not_mem_of_mem_strays {s : Stray} (hs : s ∈ (ds.place settings k).strays) :
    .root ∉ s.component.placement.parents := by
  intro hroot
  obtain ⟨o, ho, hnone, hcomponent⟩ := Script.exists_of_mem_strays hs
  rw [hcomponent, Script.placement_final ds ho] at hroot
  exact Script.level?_ne_none hds k ho hroot hnone

/-- No constant is in a stray. -/
theorem Script.noConstant_of_mem_strays {s : Stray} (hs : s ∈ (ds.place settings k).strays) :
    ∀ x ∈ s.component.census, x.node.scope ≠ .constant := by
  have hroot := Script.root_not_mem_of_mem_strays hds k settings hs
  obtain ⟨o, ho, -, hcomponent⟩ := Script.exists_of_mem_strays hs
  have hregular := kept_orderly.keptByFilling.final_script ds hds [shape k] o ho
  rw [hcomponent] at hroot ⊢
  refine hregular.noConstant_census fun hconstant => hroot ?_
  exact ((hregular.of_constant hconstant).2 _).2 rfl

/-- What lands in the class is a constant only if it asks for its constants, and there is no
constant below it. -/
theorem Script.noConstant_of_mem_landedAt {c : Component}
    (hc : c ∈ landedAt 0 (ds.occurrences [shape k])) :
    (c.placement.slot ≠ .constantPool → c.node.scope ≠ .constant) ∧
      ∀ x ∈ c.node.census, x.node.scope ≠ .constant := by
  obtain ⟨o, ho, rfl⟩ := List.mem_map.1 hc
  obtain ⟨ho, -⟩ := List.mem_filter.1 ho
  have hregular := kept_orderly.keptByFilling.final_script ds hds [shape k] o ho
  exact ⟨fun hslot hconstant => hslot (hregular.of_constant hconstant).1,
    hregular.noConstant_below⟩

end

/-- What the tables promise about a script that is placed into a class. -/
structure TablesAgree (k : Class) (ds : Script) (r : Outcome Class) : Prop where
  /-- A holder around a component that may stand in it has the slot that the component asks for. -/
  hasSlot : ∀ o ∈ ds.occurrences [shape k], ∀ f ∈ o.chain,
    f.scope ∈ o.declared.placement.parents → f.hasSlot o.declared.placement.slot = true
  /-- No offer is refused for a missing slot alone. -/
  noMissingSlot : ∀ component holder, .rejected component holder .missingSlot ∉ r.log
  /-- What may stand in a class has a home, however deep it is declared. -/
  home : ∀ o ∈ ds.occurrences [shape k], .root ∈ o.declared.placement.parents → o.level? ≠ none
  /-- No stray may stand in a class. -/
  strays : ∀ s ∈ r.strays, .root ∉ s.component.placement.parents
  /-- The class has the constants that it had, and then those of the script. -/
  constants : r.holder.constantPool =
    k.constantPool ++ ds.components.filter fun c => c.node.scope = .constant
  /-- Nothing that is new in another slot of the class is a constant, and no constant is below
  anything that is new. -/
  gained : ∀ s, ∃ new, Holder.slot? r.holder s = (Holder.slot? k s).map (· ++ new) ∧
    ∀ c ∈ new, (s ≠ .constantPool → c.node.scope ≠ .constant) ∧
      ∀ x ∈ c.node.census, x.node.scope ≠ .constant
  /-- No constant is in a stray. -/
  lost : ∀ s ∈ r.strays, ∀ x ∈ s.component.census, x.node.scope ≠ .constant

/-- **The tables agree about every script** whose components come from the schema. -/
theorem place_tablesAgree (settings : Settings) (k : Class) (ds : Script)
    (hds : ∀ c ∈ ds.components, c.Grown) : TablesAgree k ds (ds.place settings k) := by
  have hregular : ∀ c ∈ ds.components, c.Regular := fun c hc => (hds c hc).regular
  have hslot : ∀ s, Holder.slot? (ds.place settings k).holder s = (Holder.slot? k s).map (· ++
      (landedAt 0 (ds.occurrences [shape k])).filter fun c => c.placement.slot = s) := by
    intro s
    rw [Script.holder_place, slot?_addAll]
  constructor
  case hasSlot => exact fun o ho f hf => Script.hasSlot_of_mem_chain hregular k ho hf
  case noMissingSlot => exact Script.missingSlot_not_mem_log hregular k settings
  case home => exact fun o ho => Script.level?_ne_none hregular k ho
  case strays => exact fun s hs => Script.root_not_mem_of_mem_strays hregular k settings hs
  case lost => exact fun s hs => Script.noConstant_of_mem_strays hregular k settings hs
  case constants =>
    have h := hslot .constantPool
    rw [Script.filter_landedAt_constants hregular k] at h
    exact Option.some.inj h
  case gained =>
    intro s
    refine ⟨_, hslot s, ?_⟩
    intro c hc
    obtain ⟨hc, hcs⟩ := List.mem_filter.1 hc
    have h := Script.noConstant_of_mem_landedAt hregular k hc
    rwa [of_decide_eq_true hcs] at h

/-- Constants that are declared in the code of a method, in a table of it and in an instruction all
end up in the class, after the one that it has; so does what was filled before and is declared
again, and a method out of its place.  The table without a home stays with its row. -/
theorem place_tablesAgree_constants :
    let zero := Component.constant "zero" (.int 0) []
    let one := Component.constant "one" (.int 1) []
    let two := Component.constant "two" (.int 2) []
    let method := Component.method ⟨"run", none, [], .empty⟩
    let code := Component.attr .code (.int 1, .int 1, ())
    let table := Component.attr .lineNumberTable ()
    let row := Component.entry .lineNumber ("a", .int 1, ())
    let label := Component.label "a"
    let filled : Component := ⟨code.placement, (Script.place .usual [.label "a"] code.node).holder⟩
    let k := (Script.place .usual [.component zero] (Class.empty "Foo" .empty)).holder
    let ds : Script :=
      [.block method [.block code
        [.block label [.component two], .block table [.component one, .component row]]],
       .block table [.component row, .block method [.stray ⟨filled, []⟩]]]
    let r := ds.place .usual k
    (∀ c ∈ ds.components, c.Grown) ∧ TablesAgree k ds r ∧
      r.holder.constantPool = [zero, two, one] ∧ r.holder.methods.length = 2 ∧
      r.strays.length = 1 := by
  intro zero one two method code table row label filled k ds r
  have hcode : code.Grown := .ofSchema (.attr _ _)
  have hmethod : method.Grown := .ofSchema (.method _)
  have htable : table.Grown := .ofSchema (.attr _ _)
  have hrow : row.Grown := .ofSchema (.entry _ _)
  have hlabel : label.Grown := .ofSchema (.label _)
  have hfilled : filled.Grown := .filled hcode .usual [.label "a"] fun c hc => by
    obtain rfl := List.mem_singleton.1 hc
    exact hlabel
  have hds : ∀ c ∈ ds.components, c.Grown := by
    have hcomponents : ds.components =
        [method, code, label, two, table, one, row, table, row, method, filled] := rfl
    rw [hcomponents]
    simp only [List.forall_mem_cons, List.not_mem_nil, false_implies, implies_true, and_true]
    exact ⟨hmethod, hcode, hlabel, .ofSchema (.constant _ _ _), htable,
      .ofSchema (.constant _ _ _), hrow, htable, hrow, hmethod, hfilled⟩
  have hagree := place_tablesAgree .usual k ds hds
  exact ⟨hds, hagree, hagree.constants, by decide +kernel, by decide +kernel⟩

end ClassFile
