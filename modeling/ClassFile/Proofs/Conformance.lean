/-
**Classes follow the schema.**

The schema says where a node may stand, and its own components ask for just that.  So however wrong
a script is — methods in methods, code in fields, bodies of instructions — what gets into a class
stands where the schema has it, and the tree has one of a few shapes: members and constants in the
class, attributes where their kind allows, instructions and rows in the tables that are theirs.

Main definitions:

* `Component.Grown` — a component of the schema, with whatever of that kind was placed into it;
* `Component.Admissible` — a component that asks for nothing but what the schema admits;
* `Scope.rank` — a bound on how deep a tree goes below a node of some scope;
* `Within` — the holders of a class tree: the class and all nodes below it;
* `Expected` — what the schema expects in a slot, slot by slot;
* `FindsEach` — a look-up that passes no component over;
* `FollowsSchema` — the shape of a class that one can rely on.

Main results:

* `kept_conforms` — placing keeps trees conforming, and components admissible;
* `keptByFilling_grown` — what is left over of components that grew from the schema did so too, and
  may be declared again;
* `Conforms.height_le_rank` — a conforming tree is no higher than its rank;
* `session_followsSchema` — **a class made from components of the schema follows the schema**.
-/

import ClassFile.Proofs.Kept
import ClassFile.Tree.WellPlaced

set_option relaxedAutoImplicit false
set_option autoImplicit false

namespace ClassFile

/-! ### Components of the schema -/

/-- A component of the schema, with whatever such components were placed into it. -/
inductive Component.Grown : Component → Prop
  | ofSchema {c : Component} (hc : c.OfSchema) : Component.Grown c
  | filled {c : Component} (hc : Component.Grown c) (settings : Settings) (ds : Script)
      (hds : ∀ c' ∈ ds.components, Component.Grown c') :
      Component.Grown ⟨c.placement, (ds.place settings c.node).holder⟩

/-- Components that grew from the schema are filled and left over as such. -/
theorem keptByFilling_grown : KeptByFilling Component.Grown := fun settings _ ds hc hds =>
  .filled hc settings ds hds

/-- What filling keeps holds of the components that grew from the schema, if it holds of those of
the schema. -/
theorem Component.Grown.of_keptByFilling {Q : Component → Prop} (hfilled : KeptByFilling Q)
    (hschema : ∀ c : Component, c.OfSchema → Q c) {c : Component} (hc : c.Grown) : Q c := by
  induction hc with
  | ofSchema hc => exact hschema _ hc
  | filled _ settings ds _ ih ihds => exact hfilled settings _ ds ih ihds

/-! ### Conforming trees stay so -/

/-- Wherever the component asks to stand the schema admits it, and all below it conforms. -/
structure Component.Admissible (c : Component) : Prop where
  admitted : ∀ holder ∈ c.placement.parents,
    admits holder c.placement.slot c.node.scope = true
  conforms : c.node.Conforms

theorem Vacant.conforms {α : Type} [Holder α] {h : α} (hh : Vacant h) : Conforms h :=
  fun _ ht c hc => absurd hc (hh.not_mem ht c)

/-- A conforming holder that takes an admissible component conforms. -/
theorem Conforms.add {α : Type} [Holder α] [LawfulHolder α] {h : α} {c : Component}
    (hh : Conforms h) (hc : c.Admissible) (hr : refusal? h c.placement = none) :
    Conforms (add h c) := by
  have hscope : Holder.scope (ClassFile.add h c) = Holder.scope h := scope_addAll h [c]
  have hparent : Holder.scope h ∈ c.placement.parents := (refusal?_eq_none_iff.1 hr).2
  rw [Conforms, hscope]
  exact forall_mem_slots_add
    (R := fun s c' => admits (Holder.scope h) s c'.node.scope = true ∧ c'.node.Conforms) hh
    ⟨hc.admitted _ hparent, hc.conforms⟩

/-- **Placing keeps trees conforming and components admissible.** -/
theorem kept_conforms : Kept Conforms Component.Admissible where
  add := Conforms.add
  opened hc := Node.conforms_iff.1 hc.conforms
  closed := by
    intro c n hc hn hscope
    refine ⟨?_, Node.conforms_iff.2 hn⟩
    rw [hscope]
    exact hc.admitted

/-- A node with nothing in its slots, placed as the schema provides, is admissible. -/
theorem Component.admissible_usual {n : Node} (hn : Vacant n) :
    (Component.usual n).Admissible where
  admitted _ hholder := (admits_usual n n.usualSlot _).2 ⟨rfl, hholder⟩
  conforms := Node.conforms_iff.2 hn.conforms

/-- The components of the schema are placed as it provides. -/
theorem Component.OfSchema.eq_usual {c : Component} (hc : c.OfSchema) : c = .usual c.node := by
  cases hc <;> rfl

/-- The components of the schema have nothing in their slots. -/
theorem Component.OfSchema.vacant {c : Component} (hc : c.OfSchema) : Vacant c.node := by
  cases hc <;> simp [Vacant, Holder.slots, Node.slots, Component.method, Component.field,
    Component.constant, Component.label, Component.instruction, Component.attr, Component.entry,
    Component.usual, Component.of]

/-- The components of the schema are admissible. -/
theorem Component.OfSchema.admissible {c : Component} (hc : c.OfSchema) : c.Admissible := by
  rw [hc.eq_usual]
  exact admissible_usual hc.vacant

/-- A component that grew from the schema is admissible. -/
theorem Component.Grown.admissible {c : Component} (hc : c.Grown) : c.Admissible :=
  hc.of_keptByFilling kept_conforms.keptByFilling fun _ hc => hc.admissible

/-! ### Height -/

/-- How deep a tree may go below a node of some scope: a class has methods, a method has code, code
has tables, and tables have rows. -/
def Scope.rank : Scope → Nat
  | .root => 4
  | .method => 3
  | .field => 2
  | .attr .code => 2
  | .attr _ => 1
  | .constant => 0
  | .label => 0
  | .instruction _ => 0
  | .entry _ => 0

theorem AttributeKind.rank_lt (kind : AttributeKind) :
    ∀ holder ∈ kind.parents, (Scope.attr kind).rank < holder.rank := by
  cases kind <;> decide

theorem EntryKind.rank_lt (kind : EntryKind) :
    (Scope.entry kind).rank < (Scope.attr kind.row.owner).rank := by
  cases kind <;> decide

/-- What the schema admits below a node has a lower rank. -/
theorem rank_lt_of_admits {holder child : Scope} {s : Slot} (h : admits holder s child = true) :
    child.rank < holder.rank := by
  -- attributes and rows have their holders in the tables, all others have just one
  cases child <;>
    simp only [admits, Bool.and_eq_true, decide_eq_true_eq, List.contains_iff_mem,
      Bool.false_eq_true] at h
  case attr kind => exact kind.rank_lt holder h.2
  case entry kind =>
    rw [h.2]
    exact kind.rank_lt
  all_goals
    rw [h.2]
    simp [Scope.rank, Scope.code]

theorem Component.height_eq (c : Component) : c.height = c.node.height + 1 := by
  cases c
  simp [Component.height]

theorem heightAll_le {cs : List Component} {m : Nat} (h : ∀ c ∈ cs, c.node.height < m) :
    heightAll cs ≤ m := by
  induction cs with
  | nil => simp [heightAll]
  | cons c cs ih =>
      have hc := h c List.mem_cons_self
      have hcs := ih fun c' hc' => h c' (List.mem_cons_of_mem c hc')
      rw [heightAll, c.height_eq]
      omega

theorem heightTables_le {tables : Tables} {m : Nat}
    (h : ∀ t ∈ tables, ∀ c ∈ t.2, c.node.height < m) : heightTables tables ≤ m := by
  induction tables with
  | nil => simp [heightTables]
  | cons t ts ih =>
      have ht := heightAll_le (h t List.mem_cons_self)
      have hts := ih fun t' ht' => h t' (List.mem_cons_of_mem t ht')
      simp only [heightTables]
      omega

theorem Node.height_eq (n : Node) : n.height = ClassFile.height n := by
  cases n <;> simp [Node.height, ClassFile.height, Holder.slots, Node.slots, heightTables]

/-- A conforming node is no higher than its rank. -/
theorem Node.Conforms.height_le {n : Node} (h : n.Conforms) : n.height ≤ n.scope.rank := by
  induction h with
  | @intro n admitted below ih =>
      rw [Node.height_eq]
      refine heightTables_le fun t ht c hc => ?_
      -- one level down the rank goes down too, so the bound for the child is enough
      have hlt := rank_lt_of_admits (admitted t ht c hc)
      have hle := ih t ht c hc
      omega

/-- A conforming holder is no higher than its rank. -/
theorem Conforms.height_le_rank {α : Type} [Holder α] {h : α} (hh : Conforms h) :
    height h ≤ (Holder.scope h).rank := by
  refine heightTables_le fun t ht c hc => ?_
  obtain ⟨hadmitted, hbelow⟩ := hh t ht c hc
  have hlt := rank_lt_of_admits hadmitted
  have hle := hbelow.height_le
  omega

/-! ### The shape of a class -/

/-- The holders of a class tree: the class itself and every node below it. -/
inductive Within (k : Class) : Target → Prop
  | root : Within k (.root k)
  | child {f : Target} (hf : Within k f) {t : Slot × List Component} (ht : t ∈ Holder.slots f)
      {c : Component} (hc : c ∈ t.2) : Within k (.node c.node)

/-- What the schema expects of a node in a slot of a holder. -/
def Expected (holder : Scope) (s : Slot) (n : Node) : Prop :=
  match s with
  | .methods => holder = .root ∧ ∃ header as, n = .method header as
  | .fields => holder = .root ∧ ∃ header as, n = .field header as
  | .constantPool => holder = .root ∧ ∃ label tag values, n = .constant label tag values
  | .attributes => ∃ kind args as ts, n = .attr kind args as ts ∧ holder ∈ kind.parents
  | .code => holder = .code ∧ ∃ opcode args, n = .instruction opcode args
  | s => ∃ kind args, n = .entry kind args ∧ kind.slot = s ∧ holder = .attr kind.row.owner

/-- What the schema admits is what it expects. -/
theorem expected_of_admits {holder : Scope} {s : Slot} {n : Node}
    (h : admits holder s n.scope = true) : Expected holder s n := by
  obtain ⟨rfl, hholder⟩ := (admits_usual n s holder).1 h
  cases n with
  | method header as => exact ⟨List.mem_singleton.1 hholder, header, as, rfl⟩
  | field header as => exact ⟨List.mem_singleton.1 hholder, header, as, rfl⟩
  | attr kind args as ts => exact ⟨kind, args, as, ts, rfl, hholder⟩
  | instruction opcode args => exact ⟨List.mem_singleton.1 hholder, opcode, args, rfl⟩
  | constant label tag values => exact ⟨List.mem_singleton.1 hholder, label, tag, values, rfl⟩
  | entry kind args =>
      have howner := List.mem_singleton.1 hholder
      cases kind <;> exact ⟨_, args, rfl, rfl, howner⟩

/-- Attributes stand in the class, in methods, in fields and in code. -/
theorem AttributeKind.eq_of_mem_parents {kind : AttributeKind} {holder : Scope}
    (h : holder ∈ kind.parents) :
    holder = .root ∨ holder = .method ∨ holder = .field ∨ holder = .code := by
  have hfew : ∀ holder ∈ kind.parents, holder ∈ [Scope.root, .method, .field, .code] := by
    cases kind <;> decide
  simpa using hfew holder h

/-- The only attribute that may hold attributes is code. -/
theorem AttributeKind.eq_code_of_mem_parents {kind kind' : AttributeKind}
    (h : Scope.attr kind' ∈ kind.parents) : kind' = .code := by
  simpa [Scope.code] using eq_of_mem_parents h

theorem Within.conforms {k : Class} (hk : Conforms k) {f : Target} (hf : Within k f) :
    Conforms f := by
  induction hf with
  | root => exact hk
  | child hf ht hc ih => exact Node.conforms_iff.1 (ih _ ht _ hc).2

theorem mem_of_tableSlot? {tables : Tables} {s : Slot} {cs : List Component}
    (h : tableSlot? tables s = some cs) : (s, cs) ∈ tables := by
  induction tables with
  | nil => simp [tableSlot?] at h
  | cons t ts ih =>
      obtain ⟨s', cs'⟩ := t
      simp only [tableSlot?] at h
      split at h
      · next hs =>
          obtain rfl := Option.some.inj h
          rw [hs]
          exact List.mem_cons_self
      · exact List.mem_cons_of_mem _ (ih h)

/-- The children in a slot are in a slot of that name. -/
theorem mem_slots_of_mem_children {α : Type} [Holder α] [LawfulHolder α] {h : α} {s : Slot}
    {c : Component} (hc : c ∈ children h s) : ∃ t ∈ Holder.slots h, t.1 = s ∧ c ∈ t.2 := by
  rw [children, LawfulHolder.slot?_eq] at hc
  cases hs : tableSlot? (Holder.slots h) s with
  | none => simp [hs] at hc
  | some cs => exact ⟨(s, cs), mem_of_tableSlot? hs, rfl, by simpa [hs] using hc⟩

/-- A look-up that passes none of some components over: each is found under some key, unless one
that comes before it passes the test for that key as well. -/
def FindsEach {κ : Type} (lookUp : κ → Option Node) (test : κ → Node → Bool)
    (cs : List Component) : Prop :=
  ∀ before c after, cs = before ++ c :: after → ∃ key, test key c.node = true ∧
    ((∀ b ∈ before, test key b.node = false) → lookUp key = some c.node)

theorem findsEach_findNode? {κ : Type} {test : κ → Node → Bool} {cs : List Component}
    (h : ∀ c ∈ cs, ∃ key, test key c.node = true) :
    FindsEach (fun key => findNode? (test key) cs) test cs := by
  rintro before c after rfl
  obtain ⟨key, hkey⟩ := h c (List.mem_append_right before List.mem_cons_self)
  refine ⟨key, hkey, fun hbefore => List.find?_eq_some_iff_append.2 ⟨hkey, ?_⟩⟩
  exact ⟨before.map Component.node, after.map Component.node, List.map_append, by simpa⟩

/-- The shape of a class that follows the schema. -/
structure FollowsSchema (k : Class) : Prop where
  /-- Every slot of every holder in the class holds just what is expected there. -/
  expected : ∀ f, Within k f → ∀ t ∈ Holder.slots f, ∀ c ∈ t.2,
    Expected (Holder.scope f) t.1 c.node
  /-- Attributes are nested in code only. -/
  nested : ∀ kind args as ts, Within k (.node (.attr kind args as ts)) → as ≠ [] → kind = .code
  /-- Nothing is more than four levels below the class. -/
  height_le : height k ≤ 4
  /-- A look-up by name passes over none of the methods. -/
  methods : FindsEach k.method? Node.isMethodNamed k.methods
  /-- A look-up by name passes over none of the fields. -/
  fields : FindsEach k.field? Node.isFieldNamed k.fields
  /-- A look-up by label passes over none of the constants. -/
  constants : FindsEach k.constant? Node.isConstantLabelled k.constantPool
  /-- A look-up by kind passes over none of the attributes of a holder. -/
  attributes : ∀ f, Within k f →
    FindsEach (attribute? f) Node.isAttributeOf (children f .attributes)
  /-- The instructions of an attribute are all components of its code. -/
  instructions : ∀ n, Within k (.node n) → n.instructions = (children n .code).map Component.node

/-- A conforming class follows the schema. -/
theorem Conforms.followsSchema {k : Class} (hk : Conforms k) : FollowsSchema k := by
  have hexpected : ∀ f, Within k f → ∀ t ∈ Holder.slots f, ∀ c ∈ t.2,
      Expected (Holder.scope f) t.1 c.node :=
    fun f hf t ht c hc => expected_of_admits (hf.conforms hk t ht c hc).1
  have hchild : ∀ f, Within k f → ∀ s, ∀ c ∈ children f s,
      Expected (Holder.scope f) s c.node := by
    intro f hf s c hc
    obtain ⟨t, ht, rfl, hc'⟩ := mem_slots_of_mem_children hc
    exact hexpected f hf t ht c hc'
  refine ⟨hexpected, ?_, hk.height_le_rank, ?_, ?_, ?_, ?_, ?_⟩
  · intro kind args as ts hn has
    obtain ⟨c, hc⟩ := List.exists_mem_of_ne_nil as has
    obtain ⟨kind', -, -, -, -, hparent⟩ := hchild _ hn .attributes c (by
      simpa [children, Holder.slot?, Node.slot?] using hc)
    exact AttributeKind.eq_code_of_mem_parents hparent
  · refine findsEach_findNode? fun c hc => ?_
    obtain ⟨-, header, as, hn⟩ := hchild _ .root .methods c hc
    exact ⟨header.name, by simp [hn, Node.isMethodNamed]⟩
  · refine findsEach_findNode? fun c hc => ?_
    obtain ⟨-, header, as, hn⟩ := hchild _ .root .fields c hc
    exact ⟨header.name, by simp [hn, Node.isFieldNamed]⟩
  · refine findsEach_findNode? fun c hc => ?_
    obtain ⟨-, label, tag, values, hn⟩ := hchild _ .root .constantPool c hc
    exact ⟨label, by simp [hn, Node.isConstantLabelled]⟩
  · intro f hf
    refine findsEach_findNode? fun c hc => ?_
    obtain ⟨kind, args, as, ts, hn, -⟩ := hchild f hf .attributes c hc
    exact ⟨kind, by simp [hn, Node.isAttributeOf]⟩
  · intro n hn
    rw [Node.instructions, List.filter_eq_self]
    intro n' hn'
    obtain ⟨c, hc, rfl⟩ := List.mem_map.1 hn'
    obtain ⟨-, opcode, args, hcode⟩ := hchild _ hn .code c hc
    simp [hcode, Node.isInstruction]

/-- **A class made from components of the schema follows the schema**, whatever is done in the
session, also with what was filled before. -/
theorem session_followsSchema (name : String) (flags : AccessFlags .classes) (steps : List Step)
    (hsteps : ∀ step ∈ steps, ∀ c ∈ step.components, c.Grown) :
    FollowsSchema ((Session.start (.empty name flags)).after steps).root := by
  have hstart : (Session.start (.empty name flags)).Has Conforms Component.Admissible :=
    Session.has_start (Class.vacant_empty name flags).conforms
  have h := kept_conforms.after hstart fun step hstep c hc => (hsteps step hstep c hc).admissible
  exact h.root.followsSchema

/-- Code that has a table with a row in it is left over, and so is a row outside of its table.  Both
are declared again in a method, beside another method.  The code stays there, which makes four
levels in all. -/
theorem session_followsSchema_fourLevels :
    let row := Component.entry .lineNumber ("a", .int 1, ())
    let method := Component.method ⟨"run", none, [], .empty⟩
    let code := Component.attr .code (.int 1, .int 1, ())
    let table := Component.attr .lineNumberTable ()
    let ds : Script := [.block code [.label "a", .block table [.component row]], .component row]
    let strays := ((Session.start (.empty "Foo" .empty)).perform (.place .usual ds)).session.strays
    let es : Script := [.block method (.component method :: strays.map .stray)]
    let steps : List Step := [.place .usual ds, .place .usual es, .retry .usual]
    let k := ((Session.start (.empty "Foo" .empty)).after steps).root
    strays.length = 2 ∧ (∀ step ∈ steps, ∀ c ∈ step.components, c.Grown) ∧ FollowsSchema k ∧
      height k = 4 := by
  intro row method code table ds strays es steps k
  have hmethod : method.Grown := .ofSchema (.method _)
  have hds : ∀ c ∈ ds.components, c.Grown := by
    have hcomponents : ds.components = [code, .label "a", table, row, row] := rfl
    have hrow : row.OfSchema := .entry _ _
    rw [hcomponents]
    simp only [List.forall_mem_cons, List.not_mem_nil, false_implies, implies_true, and_true]
    exact ⟨.ofSchema (.attr _ _), .ofSchema (.label _), .ofSchema (.attr _ _), .ofSchema hrow,
      .ofSchema hrow⟩
  have hes : ∀ c ∈ es.components, c.Grown := by
    have hcomponents : es.components = method :: method :: strays.map Stray.component :=
      (List.append_nil _).trans
        (congrArg (method :: method :: ·) (Script.components_map_stray strays))
    rw [hcomponents, List.forall_mem_cons, List.forall_mem_cons, List.forall_mem_map]
    exact ⟨hmethod, hmethod, keptByFilling_grown.strays hds⟩
  have hsteps : ∀ step ∈ steps, ∀ c ∈ step.components, c.Grown := by
    intro step hstep c hc
    rcases List.mem_cons.1 hstep with rfl | hstep
    · exact hds c hc
    rcases List.mem_cons.1 hstep with rfl | hstep
    · exact hes c hc
    · obtain rfl := List.mem_singleton.1 hstep
      simp [Step.components] at hc
  exact ⟨by decide +kernel, hsteps, session_followsSchema "Foo" .empty steps hsteps,
    by decide +kernel⟩

end ClassFile
