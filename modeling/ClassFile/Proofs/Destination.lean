/-
**Destinations.**

The lexical rule by itself, before anything is placed: which holder of its chain takes an
occurrence, what the occurrences inside a component are, and what stays the same when a script is
looked at from further out.  A script inside more holders has the same occurrences with longer
chains, and what lands inside it lands there as before.

Main definitions:

* `Shape.Takes` — a holder of this shape takes components with this placement;
* `Occurrence.inside` — the occurrences inside the component of an occurrence;
* `BodiesFilled` — the component of every occurrence has in it what lands there;
* `Occurrence.enclosed` — an occurrence inside further holders.

Main results:

* `Occurrence.level?_eq_some_iff`, `Occurrence.level?_eq_none_iff` — the destination is the first
  holder of the chain that takes the component;
* `Script.chain_eq_append` — the holders around an occurrence are components of its script, and then
  those around the script;
* `Script.bodiesFilled` — the components of a script have in them what lands there;
* `Script.occurrences_append_chain` — further holders around a script only make chains longer.
-/

import ClassFile.Occurrence
import ClassFile.Proofs.Filling

set_option relaxedAutoImplicit false
set_option autoImplicit false

namespace ClassFile

/-! ### Who takes what -/

/-- A holder of this shape takes components with this placement: it has the slot they ask for, and
they may stand in its scope. -/
def Shape.Takes (f : Shape) (p : Placement) : Prop :=
  f.hasSlot p.slot = true ∧ f.scope ∈ p.parents

instance (f : Shape) (p : Placement) : Decidable (f.Takes p) :=
  inferInstanceAs (Decidable (_ ∧ _))

theorem Shape.refusal?_eq_none_iff_takes {f : Shape} {p : Placement} :
    f.refusal? p = none ↔ f.Takes p :=
  Shape.refusal?_eq_none_iff

namespace Occurrence

variable (o : Occurrence)

/-- The level of the holder that takes a component is a place in its chain, counted from the end. -/
theorem find_lt {chain : List Shape} {n : Nat} (h : level?.find o chain = some n) :
    n < chain.length := by
  induction chain with
  | nil => simp [level?.find] at h
  | cons f fs ih =>
      simp only [level?.find] at h
      split at h
      · simp only [Option.some.injEq] at h
        simp only [List.length_cons]
        omega
      · have := ih h
        simp only [List.length_cons]
        omega

/-- Nobody in a chain takes the component just if each holder of the chain refuses it. -/
theorem find_eq_none_iff {chain : List Shape} :
    level?.find o chain = none ↔ ∀ f ∈ chain, ¬f.Takes o.declared.placement := by
  induction chain with
  | nil => simp [level?.find]
  | cons f fs ih =>
      simp only [level?.find, Option.isNone_iff_eq_none, Shape.refusal?_eq_none_iff_takes,
        List.forall_mem_cons]
      by_cases hf : f.Takes o.declared.placement
      · simp [hf]
      · simp [hf, ih]

theorem find_append (inner outer : List Shape) :
    level?.find o (inner ++ outer) =
      ((level?.find o inner).map (· + outer.length)).or (level?.find o outer) := by
  induction inner with
  | nil => simp [level?.find]
  | cons f fs ih =>
      simp only [List.cons_append, level?.find, ih, List.length_append]
      split <;> simp

/-- **A component goes to the first holder of its chain that takes it.** -/
theorem level?_eq_some_iff {n : Nat} :
    o.level? = some n ↔
      ∃ inner f outer, o.chain = inner ++ f :: outer ∧ outer.length = n ∧
        f.Takes o.declared.placement ∧ ∀ g ∈ inner, ¬g.Takes o.declared.placement := by
  have key : ∀ chain : List Shape, level?.find o chain = some n ↔
      ∃ inner f outer, chain = inner ++ f :: outer ∧ outer.length = n ∧
        f.Takes o.declared.placement ∧ ∀ g ∈ inner, ¬g.Takes o.declared.placement := by
    intro chain
    constructor
    · intro h
      induction chain with
      | nil => simp [level?.find] at h
      | cons f fs ih =>
          simp only [level?.find, Option.isNone_iff_eq_none,
            Shape.refusal?_eq_none_iff_takes] at h
          by_cases hf : f.Takes o.declared.placement
          · simp only [hf, if_true, Option.some.injEq] at h
            exact ⟨[], f, fs, rfl, h, hf, by simp⟩
          · simp only [hf, if_false] at h
            obtain ⟨inner, g, outer, rfl, hn, hg, hinner⟩ := ih h
            exact ⟨f :: inner, g, outer, rfl, hn, hg, by simpa [hf] using hinner⟩
    · rintro ⟨inner, f, outer, rfl, hn, hf, hinner⟩
      rw [find_append, o.find_eq_none_iff.2 hinner]
      simp [level?.find, Shape.refusal?_eq_none_iff_takes, hf, hn]
  exact key o.chain

/-- A component is without a home just if all holders around it refuse it. -/
theorem level?_eq_none_iff :
    o.level? = none ↔ ∀ f ∈ o.chain, ¬f.Takes o.declared.placement :=
  o.find_eq_none_iff

end Occurrence

/-! ### Inside a component -/

/-- Of the occurrences after one, those inside its component: they are deeper than it, up to the
first that is not. -/
def Occurrence.inside (o : Occurrence) (after : List Occurrence) : List Occurrence :=
  after.takeWhile fun o' => o.chain.length < o'.chain.length

/-- The component of every occurrence is around all that is inside it, and ends up as it was
declared, with all that lands in it. -/
def BodiesFilled (os : List Occurrence) : Prop :=
  ∀ o after, o :: after <:+ os →
    (∀ o' ∈ o.inside after, shape o.declared.node :: o.chain <:+ o'.chain) ∧
      o.final.placement = o.declared.placement ∧
      FilledWith o.declared.node (landedAt o.chain.length (o.inside after)) o.final.node

mutual

theorem Decl.chain_eq_append (d : Decl) {chain : List Shape} {o : Occurrence}
    (ho : o ∈ d.occurrences chain) :
    ∃ inner, o.chain = inner ++ chain ∧ ∀ f ∈ inner, ∃ c ∈ d.components, f = shape c.node := by
  have hnone : ∃ inner, chain = inner ++ chain ∧
      ∀ f ∈ inner, ∃ c ∈ d.components, f = shape c.node := ⟨[], rfl, by simp⟩
  cases d with
  | nothing => simp [Decl.occurrences] at ho
  | label name =>
      obtain rfl := List.mem_singleton.1 ho
      exact hnone
  | component c =>
      obtain rfl := List.mem_singleton.1 ho
      exact hnone
  | stray s =>
      obtain rfl := List.mem_singleton.1 ho
      exact hnone
  | group ds => exact Script.chain_eq_append ds ho
  | block c ds =>
      rcases List.mem_cons.1 ho with rfl | ho
      · exact hnone
      · -- the component of the block is around all that is in its body
        obtain ⟨inner, hchain, hinner⟩ := Script.chain_eq_append ds ho
        refine ⟨inner ++ [shape c.node], by simp [hchain], ?_⟩
        intro f hf
        rcases List.mem_append.1 hf with hf | hf
        · obtain ⟨c', hc', rfl⟩ := hinner f hf
          exact ⟨c', List.mem_cons_of_mem c hc', rfl⟩
        · exact ⟨c, List.mem_cons_self, List.mem_singleton.1 hf⟩
termination_by structural d

/-- The holders around an occurrence are components of its script, and then those around the
script. -/
theorem Script.chain_eq_append (ds : Script) {chain : List Shape} {o : Occurrence}
    (ho : o ∈ ds.occurrences chain) :
    ∃ inner, o.chain = inner ++ chain ∧ ∀ f ∈ inner, ∃ c ∈ ds.components, f = shape c.node := by
  cases ds with
  | nil => simp [Script.occurrences] at ho
  | cons d ds =>
      rcases List.mem_append.1 ho with ho | ho
      · obtain ⟨inner, hchain, hinner⟩ := Decl.chain_eq_append d ho
        refine ⟨inner, hchain, fun f hf => ?_⟩
        obtain ⟨c, hc, rfl⟩ := hinner f hf
        exact ⟨c, List.mem_append_left _ hc, rfl⟩
      · obtain ⟨inner, hchain, hinner⟩ := Script.chain_eq_append ds ho
        refine ⟨inner, hchain, fun f hf => ?_⟩
        obtain ⟨c, hc, rfl⟩ := hinner f hf
        exact ⟨c, List.mem_append_right _ hc, rfl⟩
termination_by structural ds

end

theorem Decl.suffix_chain (d : Decl) {chain : List Shape} {o : Occurrence}
    (ho : o ∈ d.occurrences chain) : chain <:+ o.chain := by
  obtain ⟨inner, hchain, -⟩ := d.chain_eq_append ho
  exact ⟨inner, hchain.symm⟩

/-- The chain of an occurrence ends with the chain around its script. -/
theorem Script.suffix_chain (ds : Script) {chain : List Shape} {o : Occurrence}
    (ho : o ∈ ds.occurrences chain) : chain <:+ o.chain := by
  obtain ⟨inner, hchain, -⟩ := ds.chain_eq_append ho
  exact ⟨inner, hchain.symm⟩

mutual

theorem Decl.head_chain (d : Decl) {chain : List Shape} {o : Occurrence}
    {after : List Occurrence} (h : d.occurrences chain = o :: after) : o.chain = chain := by
  cases d with
  | nothing => simp [Decl.occurrences] at h
  | label name => obtain ⟨rfl, -⟩ := List.cons.inj h; rfl
  | component c => obtain ⟨rfl, -⟩ := List.cons.inj h; rfl
  | stray s => obtain ⟨rfl, -⟩ := List.cons.inj h; rfl
  | group ds => exact Script.head_chain ds h
  | block c ds => obtain ⟨rfl, -⟩ := List.cons.inj h; rfl
termination_by structural d

/-- The first occurrence of a script is directly inside the chain around it. -/
theorem Script.head_chain (ds : Script) {chain : List Shape} {o : Occurrence}
    {after : List Occurrence} (h : ds.occurrences chain = o :: after) : o.chain = chain := by
  cases ds with
  | nil => simp [Script.occurrences] at h
  | cons d ds =>
      rcases List.append_eq_cons_iff.1 h with ⟨-, h⟩ | ⟨after', h, -⟩
      · exact Script.head_chain ds h
      · exact Decl.head_chain d h
termination_by structural ds

end

/-- What comes after a declaration is not inside any of its components. -/
theorem Occurrence.inside_append {o : Occurrence} {chain : List Shape} (hc : chain <:+ o.chain)
    (after : List Occurrence) (ds : Script) :
    o.inside (after ++ ds.occurrences chain) = o.inside after := by
  have hstop : (ds.occurrences chain).takeWhile
      (fun o' => decide (o.chain.length < o'.chain.length)) = [] := by
    cases hds : ds.occurrences chain with
    | nil => rfl
    | cons o' after' =>
        have hlen := hc.length_le
        rw [← Script.head_chain ds hds] at hlen
        exact List.takeWhile_cons_of_neg (by simpa using hlen)
  rw [inside, List.takeWhile_append, hstop]
  split
  · next hall =>
      rw [List.append_nil]
      exact ((List.takeWhile_prefix _).eq_of_length hall).symm
  · rfl

theorem bodiesFilled_singleton (c : Component) (trail : List Refusal) (chain : List Shape) :
    BodiesFilled [⟨c, c, trail, chain⟩] := by
  intro o after h
  rcases List.suffix_cons_iff.1 h with h | h
  · obtain ⟨rfl, rfl⟩ := List.cons.inj h
    exact ⟨by simp [Occurrence.inside], rfl, filledWith_addAll c.node []⟩
  · simp at h

mutual

theorem Decl.bodiesFilled (d : Decl) (chain : List Shape) :
    BodiesFilled (d.occurrences chain) := by
  cases d with
  | nothing => intro o after h; simp [Decl.occurrences] at h
  | label name => exact bodiesFilled_singleton _ _ _
  | component c => exact bodiesFilled_singleton _ _ _
  | stray s => exact bodiesFilled_singleton _ _ _
  | group ds => exact Script.bodiesFilled ds chain
  | block c ds =>
      intro o after h
      rcases List.suffix_cons_iff.1 h with h | h
      · obtain ⟨rfl, rfl⟩ := List.cons.inj h
        -- all occurrences of the body are deeper than the component of the block
        have hdeep : ∀ o' ∈ Script.occurrences ds (shape c.node :: chain),
            decide (chain.length < o'.chain.length) = true := by
          intro o' ho'
          exact decide_eq_true (Script.suffix_chain ds ho').length_le
        have hall := @List.takeWhile_append_of_pos _ _ _ [] hdeep
        rw [List.append_nil, List.takeWhile_nil, List.append_nil] at hall
        rw [Occurrence.inside, hall]
        exact ⟨fun o' ho' => Script.suffix_chain ds ho', rfl, filledWith_addAll c.node _⟩
      · exact Script.bodiesFilled ds _ o after h
termination_by structural d

/-- **The components of a script have in them what lands there.** -/
theorem Script.bodiesFilled (ds : Script) (chain : List Shape) :
    BodiesFilled (ds.occurrences chain) := by
  cases ds with
  | nil => intro o after h; simp [Script.occurrences] at h
  | cons d ds =>
      intro o after h
      obtain ⟨before, hbefore⟩ := h
      rw [Script.occurrences] at hbefore
      rcases List.append_eq_append_iff.1 hbefore with ⟨mid, hd, hmid⟩ | ⟨mid, -, hds⟩
      · cases mid with
        | nil =>
            -- the split is just where the declaration ends
            refine Script.bodiesFilled ds chain o after ⟨[], ?_⟩
            simpa using hmid
        | cons o' mid =>
            have hafter : after = mid ++ Script.occurrences ds chain := (List.cons.inj hmid).2
            obtain rfl := (List.cons.inj hmid).1
            have hsuffix : o :: mid <:+ d.occurrences chain := ⟨before, hd.symm⟩
            have hchain := Decl.suffix_chain d (hsuffix.subset List.mem_cons_self)
            rw [hafter, Occurrence.inside_append hchain]
            exact Decl.bodiesFilled d chain o mid hsuffix
      · exact Script.bodiesFilled ds chain o after ⟨mid, hds.symm⟩
termination_by structural ds

end

/-- The final component of an occurrence belongs where it was declared to belong. -/
theorem Script.placement_final (ds : Script) {chain : List Shape} {o : Occurrence}
    (ho : o ∈ ds.occurrences chain) : o.final.placement = o.declared.placement := by
  obtain ⟨before, after, h⟩ := List.append_of_mem ho
  exact (Script.bodiesFilled ds chain o after ⟨before, h.symm⟩).2.1

/-! ### Further holders around a script -/

namespace Occurrence

/-- The occurrence inside further holders. -/
def enclosed (outer : List Shape) (o : Occurrence) : Occurrence :=
  { o with chain := o.chain ++ outer }

variable (outer : List Shape) (o : Occurrence)

theorem find_enclosed (chain : List Shape) :
    level?.find (o.enclosed outer) chain = level?.find o chain := by
  induction chain with
  | nil => rfl
  | cons f fs ih => simp only [level?.find, ih]; rfl

/-- A component that finds no home inside looks for one further out. -/
theorem level?_enclosed :
    (o.enclosed outer).level? =
      (o.level?.map (· + outer.length)).or (level?.find o outer) := by
  rw [level?, find_enclosed]
  exact find_append o o.chain outer

/-- What lands inside does so whatever is further out. -/
theorem level?_enclosed_eq_some_iff {n : Nat} :
    (o.enclosed outer).level? = some (n + outer.length) ↔ o.level? = some n := by
  rw [level?_enclosed]
  cases hl : o.level? with
  | some m => simp
  | none =>
      simp only [Option.map_none, Option.none_or, reduceCtorEq, iff_false]
      intro hf
      have := find_lt o hf
      omega

end Occurrence

theorem landedAt_cons (n : Nat) (o : Occurrence) (os : List Occurrence) :
    landedAt n (o :: os) =
      if o.level? = some n then o.final :: landedAt n os else landedAt n os := by
  by_cases hl : o.level? = some n <;> simp [landedAt, hl]

theorem homeless_cons (o : Occurrence) (os : List Occurrence) :
    homeless (o :: os) = if o.level? = none then o :: homeless os else homeless os := by
  by_cases hl : o.level? = none <;> simp [homeless, hl]

theorem homeless_append (os os' : List Occurrence) :
    homeless (os ++ os') = homeless os ++ homeless os' := by
  simp [homeless]

/-- The components that land at some level inside are the same, whatever is further out. -/
theorem landedAt_enclosed (outer : List Shape) (n : Nat) (os : List Occurrence) :
    landedAt (n + outer.length) (os.map (Occurrence.enclosed outer)) = landedAt n os := by
  simp only [landedAt, List.filter_map, List.map_map, Function.comp_def,
    Occurrence.level?_enclosed_eq_some_iff]
  rfl

mutual

theorem Decl.occurrences_append_chain (d : Decl) (inner outer : List Shape) :
    d.occurrences (inner ++ outer) = (d.occurrences inner).map (Occurrence.enclosed outer) := by
  cases d with
  | nothing => rfl
  | label name => rfl
  | component c => rfl
  | stray s => rfl
  | group ds => exact Script.occurrences_append_chain ds inner outer
  | block c ds =>
      have hds := Script.occurrences_append_chain ds (shape c.node :: inner) outer
      rw [List.cons_append] at hds
      simp only [Decl.occurrences, hds, List.length_append, landedAt_enclosed, List.map_cons]
      rfl
termination_by structural d

/-- Further holders around a script only make the chains of its occurrences longer. -/
theorem Script.occurrences_append_chain (ds : Script) (inner outer : List Shape) :
    ds.occurrences (inner ++ outer) =
      (ds.occurrences inner).map (Occurrence.enclosed outer) := by
  cases ds with
  | nil => rfl
  | cons d ds =>
      simp only [Script.occurrences, List.map_append]
      rw [Decl.occurrences_append_chain d inner outer,
        Script.occurrences_append_chain ds inner outer]
termination_by structural ds

end

end ClassFile
