/-
**What is reported is the lexical rule.**

Each offer is reported as it happens, from the inside outwards: first those in the body of a block,
then those of the component of the block and of the strays of the body.  By the lexical rule, an
occurrence is offered to the holders of its chain up to its destination.  Both name the same
answers, each as often, so an occurrence is never offered to the same holder twice.  Besides, there
is a note for each block whose body leaves something over, and nothing else.

Main definitions:

* `atLevel` — the events of a log that have some level;
* `Shape.answer` — what a holder reports of a component that it is offered;
* `Occurrence.asked`, `Occurrence.reports` — the holders that an occurrence is offered to, and what
  they report of it;
* `Occurrence.preceding` — the holders of its chain before its destination;
* `Script.blocks` — the blocks of a script, in the order in which they are closed.

Main results:

* `log_offerAll` — each offer is reported once;
* `Script.trace_log_place` — **the trace of a placement is what is reported of the occurrences**;
* `Script.debug_log_place` — the notes about the blocks;
* `Occurrence.countP_isAttached_reports`, `Occurrence.countP_isRejected_reports` — how often an
  occurrence is taken and refused.
-/

import Mathlib.Data.List.TakeWhile
import ClassFile.Proofs.LexicalRule

set_option relaxedAutoImplicit false
set_option autoImplicit false

namespace ClassFile

/-! ### Events -/

/-- The events of a log that have some level, in order. -/
def atLevel (level : Level) (log : List Event) : List Event :=
  log.filter fun e => e.level = level

/-- The event is that a component was taken. -/
def Event.isAttached : Event → Bool
  | .attached _ _ _ => true
  | _ => false

/-- The event is that a component was refused. -/
def Event.isRejected : Event → Bool
  | .rejected _ _ _ => true
  | _ => false

theorem atLevel_append (level : Level) (log log' : List Event) :
    atLevel level (log ++ log') = atLevel level log ++ atLevel level log' :=
  List.filter_append log log'

theorem atLevel_eq_self {level : Level} {log : List Event} (h : ∀ e ∈ log, e.level = level) :
    atLevel level log = log :=
  List.filter_eq_self.2 fun e he => decide_eq_true (h e he)

theorem atLevel_eq_nil {level : Level} {log : List Event} (h : ∀ e ∈ log, e.level ≠ level) :
    atLevel level log = [] :=
  List.filter_eq_nil_iff.2 fun e he => by simpa using h e he

theorem level_of_mem_escapes {strays : List Stray} {component : Scope} {e : Event}
    (he : e ∈ escapes strays component) : e.level = .debug := by
  rw [escapes] at he
  split at he
  · simp at he
  · rw [List.mem_singleton.1 he]
    rfl

/-! ### Answers of a holder -/

/-- What a holder of this shape reports of a component with this placement that it is offered. -/
def Shape.answer (f : Shape) (p : Placement) : Event :=
  match f.refusal? p with
  | none => .attached p.scope p.slot f.scope
  | some reason => .rejected p.scope f.scope reason

namespace Shape

variable (f : Shape) (p : Placement)

theorem level_answer : (f.answer p).level = .trace := by
  rw [answer]
  split <;> rfl

theorem answer_eq_rejected_iff {component holder : Scope} {reason : Reason} :
    f.answer p = .rejected component holder reason ↔
      p.scope = component ∧ f.scope = holder ∧ f.refusal? p = some reason := by
  rw [answer]
  cases f.refusal? p <;> simp

theorem isAttached_answer : (f.answer p).isAttached = decide (f.Takes p) := by
  rw [answer, Bool.eq_iff_iff, decide_eq_true_iff, ← refusal?_eq_none_iff_takes]
  cases f.refusal? p <;> simp [Event.isAttached]

theorem isRejected_answer : (f.answer p).isRejected = !decide (f.Takes p) := by
  rw [← isAttached_answer, answer]
  cases f.refusal? p <;> rfl

end Shape

section

variable {α : Type} [Holder α] [LawfulHolder α] (settings : Settings)

theorem log_offer (h : α) (s : Stray) :
    (offer settings h s).log = [(shape h).answer s.component.placement] := by
  rw [Shape.answer, ← refusal?]
  cases hr : refusal? h s.component.placement with
  | none =>
      rw [offer_of_accepted hr]
      rfl
  | some reason =>
      rw [offer_of_refusal hr]
      rfl

/-- Each offer is reported once, and nothing else is. -/
theorem log_offerAll (h : α) (ss : List Stray) :
    (offerAll settings h ss).log = ss.map fun s => (shape h).answer s.component.placement := by
  induction ss generalizing h with
  | nil => rfl
  | cons s ss ih =>
      have hlog : (offerAll settings h (s :: ss)).log =
          (offer settings h s).log ++ (offerAll settings (offer settings h s).holder ss).log := rfl
      rw [hlog, log_offer, ih, shape_offer, List.map_cons, List.singleton_append]

theorem level_of_mem_log_offerAll {h : α} {ss : List Stray} {e : Event}
    (he : e ∈ (offerAll settings h ss).log) : e.level = .trace := by
  rw [log_offerAll] at he
  obtain ⟨s, -, rfl⟩ := List.mem_map.1 he
  exact Shape.level_answer _ _

end

/-! ### Reports of an occurrence -/

namespace Occurrence

variable (o : Occurrence)

/-- The holders that an occurrence is offered to: those of its chain up to its destination, all of
them if it has none. -/
def asked : List Shape :=
  o.chain.take (o.chain.length - o.level?.getD 0)

/-- What they report of it. -/
def reports : List Event :=
  o.asked.map fun f => f.answer o.declared.placement

/-- The holders of its chain before its destination, all of them if it has none. -/
def preceding : List Shape :=
  o.chain.takeWhile fun f => ¬f.Takes o.declared.placement

theorem asked_prefix : o.asked <+: o.chain :=
  List.take_prefix _ _

variable {o}

theorem asked_of_homeless (hl : o.level? = none) : o.asked = o.chain := by
  rw [asked, hl]
  exact List.take_length

theorem asked_of_home {n : Nat} {inner outer : List Shape} {f : Shape} (hl : o.level? = some n)
    (hchain : o.chain = inner ++ f :: outer) (hn : outer.length = n) : o.asked = inner ++ [f] := by
  have hlength : (inner ++ f :: outer).length - n = (inner ++ [f]).length := by
    simp only [List.length_append, List.length_cons, List.length_nil, hn]
    omega
  rw [asked, hl, hchain, Option.getD_some, hlength, List.append_cons inner f outer,
    List.take_left]

theorem preceding_of_homeless (hchain : ∀ f ∈ o.chain, ¬f.Takes o.declared.placement) :
    o.preceding = o.chain :=
  List.takeWhile_eq_self_iff.2 fun f hf => decide_eq_true (hchain f hf)

theorem preceding_of_home {inner outer : List Shape} {f : Shape}
    (hchain : o.chain = inner ++ f :: outer) (hf : f.Takes o.declared.placement)
    (hinner : ∀ g ∈ inner, ¬g.Takes o.declared.placement) : o.preceding = inner := by
  rw [preceding, hchain, List.takeWhile_append_of_pos fun g hg => decide_eq_true (hinner g hg)]
  simp [hf]

/-- A holder further out is asked about an occurrence that has no home so far. -/
theorem asked_enclosed (f : Shape) :
    (o.enclosed [f]).asked = o.asked ++ if o.level? = none then [f] else [] := by
  have hchain : (o.enclosed [f]).chain = o.chain ++ [f] := rfl
  cases hl : o.level? with
  | some n =>
      obtain ⟨inner, g, outer, hinner, hn, -, -⟩ := o.level?_eq_some_iff.1 hl
      have hchain' : (o.enclosed [f]).chain = inner ++ g :: (outer ++ [f]) := by
        rw [hchain, hinner, List.append_assoc, List.cons_append]
      have hn' : (outer ++ [f]).length = n + 1 := by simp [hn]
      rw [asked_of_home (level?_enclosed_of_home f hl) hchain' hn', asked_of_home hl hinner hn]
      simp
  | none =>
      rw [asked_of_homeless hl, if_pos rfl]
      -- it has its home in the last holder of the longer chain, or none
      cases hr : f.refusal? o.declared.placement with
      | none => exact asked_of_home (level?_enclosed_of_taken f hl hr) hchain rfl
      | some reason => exact asked_of_homeless (level?_enclosed_of_refused f hl hr)

theorem reports_enclosed (f : Shape) :
    (o.enclosed [f]).reports =
      o.reports ++ if o.level? = none then [f.answer o.declared.placement] else [] := by
  have hreports : (o.enclosed [f]).reports =
      (o.enclosed [f]).asked.map fun g => g.answer o.declared.placement := rfl
  rw [hreports, asked_enclosed, List.map_append, reports]
  by_cases hl : o.level? = none <;> simp [hl]

theorem reports_singleton (f : Shape) (c c' : Component) (trail : List Refusal) :
    (⟨c, c', trail, [f]⟩ : Occurrence).reports = [f.answer c.placement] :=
  reports_enclosed (o := ⟨c, c', trail, []⟩) f

/-- An occurrence is taken once if it has a destination, and is not taken otherwise. -/
theorem countP_isAttached_reports :
    o.reports.countP Event.isAttached = if o.level? = none then 0 else 1 := by
  have hnone : ∀ {fs : List Shape}, (∀ f ∈ fs, ¬f.Takes o.declared.placement) →
      fs.countP (Event.isAttached ∘ fun f => f.answer o.declared.placement) = 0 := by
    intro fs hfs
    refine List.countP_eq_zero.2 fun f hf => ?_
    simpa [Shape.isAttached_answer] using hfs f hf
  rw [reports, List.countP_map]
  cases hl : o.level? with
  | none =>
      rw [asked_of_homeless hl, hnone (o.level?_eq_none_iff.1 hl), if_pos rfl]
  | some n =>
      obtain ⟨inner, f, outer, hchain, hn, hf, hinner⟩ := o.level?_eq_some_iff.1 hl
      rw [asked_of_home hl hchain hn, List.countP_append, hnone hinner]
      simp [Shape.isAttached_answer, hf]

/-- An occurrence is refused by the holders before its destination. -/
theorem countP_isRejected_reports :
    o.reports.countP Event.isRejected = o.preceding.length := by
  have hall : ∀ {fs : List Shape}, (∀ f ∈ fs, ¬f.Takes o.declared.placement) →
      fs.countP (Event.isRejected ∘ fun f => f.answer o.declared.placement) = fs.length := by
    intro fs hfs
    refine List.countP_eq_length.2 fun f hf => ?_
    simpa [Shape.isRejected_answer] using hfs f hf
  rw [reports, List.countP_map]
  cases hl : o.level? with
  | none =>
      have hchain := o.level?_eq_none_iff.1 hl
      rw [asked_of_homeless hl, hall hchain, preceding_of_homeless hchain]
  | some n =>
      obtain ⟨inner, f, outer, hchain, hn, hf, hinner⟩ := o.level?_eq_some_iff.1 hl
      rw [asked_of_home hl hchain hn, List.countP_append, hall hinner,
        preceding_of_home hchain hf hinner]
      simp [Shape.isRejected_answer, hf]

end Occurrence

/-- With one more holder around, there are the reports of the occurrences as they were, and those of
the holder, which is asked about what had no home. -/
theorem flatMap_reports_enclosed (settings : Settings) (f : Shape) {os : List Occurrence}
    (hp : ∀ o ∈ os, o.final.placement = o.declared.placement) :
    ((os.map (Occurrence.enclosed [f])).flatMap Occurrence.reports).Perm
      (os.flatMap Occurrence.reports ++
        ((homeless os).map (Occurrence.stray settings)).map
          fun s => f.answer s.component.placement) := by
  induction os with
  | nil => exact List.Perm.nil
  | cons o os ih =>
      have hrest := ih fun o' ho' => hp o' (List.mem_cons_of_mem o ho')
      have hplace : (o.stray settings).component.placement = o.declared.placement :=
        hp o List.mem_cons_self
      rw [List.map_cons, List.flatMap_cons, List.flatMap_cons, homeless_cons,
        Occurrence.reports_enclosed, List.append_assoc, List.append_assoc]
      refine List.Perm.append_left _ ?_
      by_cases hl : o.level? = none
      · -- the holder is asked about this one first, and its answers to the others come later
        rw [if_pos hl, if_pos hl, List.map_cons, List.map_cons, hplace, List.singleton_append]
        exact (hrest.cons _).trans List.perm_middle.symm
      · rw [if_neg hl, if_neg hl]
        exact hrest

/-! ### The log of a placement -/

section

variable (settings : Settings) (ds : Script) {α : Type} [Holder α] (h : α)

/-- What is reported of a block: what its body reports, whether something leaves the body, and the
answers to the component of the block and to what leaves the body. -/
theorem Decl.log_place_block (c : Component) :
    ((Decl.block c ds).place settings h).log =
      (Script.place settings ds c.node).log ++
        escapes (Script.place settings ds c.node).strays c.scope ++
        (offerAll settings h (blockOffers c.placement (Script.place settings ds c.node))).log :=
  rfl

theorem Script.log_place_cons (d : Decl) :
    (Script.place settings (d :: ds) h).log =
      (d.place settings h).log ++ (Script.place settings ds (d.place settings h).holder).log :=
  rfl

end

/-! ### The trace -/

mutual

theorem Decl.trace_log_place (settings : Settings) (d : Decl) {α : Type} [Holder α]
    [LawfulHolder α] (h : α) :
    (atLevel .trace (d.place settings h).log).Perm
      ((d.occurrences [shape h]).flatMap Occurrence.reports) := by
  have hone : ∀ s : Stray, (atLevel .trace (offer settings h s).log).Perm
      (([⟨s.component, s.component, s.trail, [shape h]⟩] : List Occurrence).flatMap
        Occurrence.reports) := by
    intro s
    have hlevel : ∀ e ∈ [(shape h).answer s.component.placement], e.level = .trace := by
      simp [Shape.level_answer]
    rw [log_offer, atLevel_eq_self hlevel, List.flatMap_singleton, Occurrence.reports_singleton]
  cases d with
  | nothing => exact List.Perm.nil
  | label name => exact hone (Component.label name).unrefused
  | component c => exact hone c.unrefused
  | stray s => exact hone s
  | group ds => exact Script.trace_log_place settings ds h
  | block c ds =>
      have hbody := Script.trace_log_place settings ds c.node
      obtain ⟨final, hoccurrences⟩ : ∃ final, (Decl.block c ds).occurrences [shape h] =
          ⟨c, final, [], [shape h]⟩ ::
            (Script.occurrences ds [shape c.node]).map (Occurrence.enclosed [shape h]) :=
        ⟨_, congrArg (_ :: ·) (Script.occurrences_append_chain ds [shape c.node] [shape h])⟩
      have hinside := flatMap_reports_enclosed settings (shape h)
        fun o (ho : o ∈ Script.occurrences ds [shape c.node]) => Script.placement_final ds ho
      have hnote : atLevel .trace (escapes (Script.place settings ds c.node).strays c.scope) = [] :=
        atLevel_eq_nil fun e he => by simp [level_of_mem_escapes he]
      rw [Decl.log_place_block, atLevel_append, atLevel_append, hnote, List.append_nil,
        atLevel_eq_self fun e he => level_of_mem_log_offerAll settings he, log_offerAll,
        blockOffers, List.map_cons, Script.strays_place, hoccurrences, List.flatMap_cons,
        Occurrence.reports_singleton]
      -- the offers of the body are reported before that of the component of the block
      refine List.perm_middle.trans (List.Perm.cons _ ?_)
      exact (hbody.append_right _).trans hinside.symm
termination_by structural d

/-- **The trace of a placement is what is reported of the occurrences.** -/
theorem Script.trace_log_place (settings : Settings) (ds : Script) {α : Type} [Holder α]
    [LawfulHolder α] (h : α) :
    (atLevel .trace (ds.place settings h).log).Perm
      ((ds.occurrences [shape h]).flatMap Occurrence.reports) := by
  cases ds with
  | nil => exact List.Perm.nil
  | cons d ds =>
      have hd := Decl.trace_log_place settings d h
      have hds := Script.trace_log_place settings ds (d.place settings h).holder
      -- the other declarations meet a holder of the same shape
      rw [Decl.shape_place] at hds
      rw [Script.log_place_cons, atLevel_append, Script.occurrences, List.flatMap_append]
      exact hd.append hds
termination_by structural ds

end

/-- What is traced is the answer of a holder around an occurrence. -/
theorem Script.exists_of_mem_log (settings : Settings) (ds : Script) {α : Type} [Holder α]
    [LawfulHolder α] {h : α} {e : Event} (he : e ∈ (ds.place settings h).log)
    (htrace : e.level = .trace) :
    ∃ o ∈ ds.occurrences [shape h], ∃ f ∈ o.chain, f.answer o.declared.placement = e := by
  have hmem : e ∈ atLevel .trace (ds.place settings h).log :=
    List.mem_filter.2 ⟨he, decide_eq_true htrace⟩
  obtain ⟨o, ho, hreport⟩ := List.mem_flatMap.1 ((Script.trace_log_place settings ds h).subset hmem)
  obtain ⟨f, hf, hanswer⟩ := List.mem_map.1 hreport
  exact ⟨o, ho, f, o.asked_prefix.subset hf, hanswer⟩

/-! ### Notes about blocks -/

mutual

/-- The blocks of a declaration, each with its component and its body, those inside first. -/
def Decl.blocks (d : Decl) : List (Component × Script) :=
  match d with
  | .nothing => []
  | .label _ => []
  | .component _ => []
  | .stray _ => []
  | .group ds => Script.blocks ds
  | .block c ds => Script.blocks ds ++ [(c, ds)]
termination_by structural d

/-- The blocks of a script, in the order in which they are closed. -/
def Script.blocks (ds : Script) : List (Component × Script) :=
  match ds with
  | [] => []
  | d :: ds => Decl.blocks d ++ Script.blocks ds
termination_by structural ds

end

mutual

theorem Decl.debug_log_place (settings : Settings) (d : Decl) {α : Type} [Holder α]
    [LawfulHolder α] (h : α) :
    atLevel .debug (d.place settings h).log =
      d.blocks.flatMap fun b => escapes (b.2.place settings b.1.node).strays b.1.scope := by
  have hone : ∀ s : Stray, atLevel .debug (offer settings h s).log = [] := by
    intro s
    rw [log_offer]
    exact atLevel_eq_nil (by simp [Shape.level_answer])
  cases d with
  | nothing => rfl
  | label name => exact hone _
  | component c => exact hone _
  | stray s => exact hone s
  | group ds => exact Script.debug_log_place settings ds h
  | block c ds =>
      have hbody := Script.debug_log_place settings ds c.node
      have hanswers : atLevel .debug (offerAll settings h
          (blockOffers c.placement (Script.place settings ds c.node))).log = [] :=
        atLevel_eq_nil fun e he => by simp [level_of_mem_log_offerAll settings he]
      rw [Decl.log_place_block, atLevel_append, atLevel_append, hbody, hanswers, List.append_nil,
        atLevel_eq_self fun e he => level_of_mem_escapes he, Decl.blocks, List.flatMap_append,
        List.flatMap_singleton]
termination_by structural d

/-- The notes in a log are those about the blocks whose bodies leave something over. -/
theorem Script.debug_log_place (settings : Settings) (ds : Script) {α : Type} [Holder α]
    [LawfulHolder α] (h : α) :
    atLevel .debug (ds.place settings h).log =
      ds.blocks.flatMap fun b => escapes (b.2.place settings b.1.node).strays b.1.scope := by
  cases ds with
  | nil => rfl
  | cons d ds =>
      rw [Script.log_place_cons, atLevel_append, Decl.debug_log_place, Script.debug_log_place,
        Script.blocks, List.flatMap_append]
termination_by structural ds

end

end ClassFile
