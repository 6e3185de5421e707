/-
**The message of an error tells what failed.**

A message joins the name of a class, which may be any text, with two levels of lists, and puts
nothing but punctuation between them.  It can be read back all the same.  The marks between the
parts of a stray do not occur in a name, a semicolon occurs only between strays, and the last colon
of a message is the one after the name of the class, whatever that looks like.

Main definitions:

* `Stray.shown` — what the text of a stray shows: the placement of its component, and its trail.

Main results:

* `eq_of_append_eq`, `eq_of_append_cons_eq` — a text is cut where a run of characters ends, or at
  the last occurrence of a mark;
* `intercalate_inj` — a joined list is cut at its separators;
* `Placement.eq_of_text_append_eq`, `Refusal.text_inj`, `trailText_inj`, `Stray.text_eq_iff` — what
  the parts of a message show is told by them;
* `listText_eq_iff` — so is what a list of strays shows;
* `message_eq_iff` — **two messages are equal just if they show the same class and the same
  strays**.
-/

import ClassFile.Assembly
import ClassFile.Proofs.Names

set_option relaxedAutoImplicit false
set_option autoImplicit false

namespace ClassFile

/-! ### Cutting a text -/

/-- A text is cut where a run of characters of some kind ends. -/
theorem eq_of_append_eq {p : Char → Bool} {a a' r r' : List Char} (ha : ∀ c ∈ a, p c = true)
    (ha' : ∀ c ∈ a', p c = true) (hr : ∀ c ∈ r.head?, p c = false)
    (hr' : ∀ c ∈ r'.head?, p c = false) (h : a ++ r = a' ++ r') : a = a' ∧ r = r' := by
  have run : ∀ {a r : List Char}, (∀ c ∈ a, p c = true) → (∀ c ∈ r.head?, p c = false) →
      (a ++ r).takeWhile p = a := by
    intro a r ha hr
    rw [List.takeWhile_append_of_pos ha]
    cases r with
    | nil => simp
    | cons c r =>
        have hc : ¬p c = true := by simp [hr c rfl]
        rw [List.takeWhile_cons_of_neg hc, List.append_nil]
  obtain rfl : a = a' := by rw [← run ha hr, h, run ha' hr']
  exact ⟨rfl, List.append_cancel_left h⟩

/-- A text is cut at the last occurrence of a mark. -/
theorem eq_of_append_cons_eq {m : Char} {a a' r r' : List Char} (hr : m ∉ r) (hr' : m ∉ r')
    (h : a ++ m :: r = a' ++ m :: r') : a = a' ∧ r = r' := by
  have hne : ∀ {r : List Char}, m ∉ r → ∀ c ∈ r.reverse, (c != m) = true := by
    intro r hr c hc
    exact bne_iff_ne.2 fun hcm => hr (List.mem_reverse.1 (hcm ▸ hc))
  have hstop : ∀ {a : List Char}, ∀ c ∈ (m :: a.reverse).head?, (c != m) = false := by
    intro a c hc
    obtain rfl : m = c := by simpa using hc
    exact bne_self_eq_false m
  -- seen from the end, the mark is the first one
  have hrev : r.reverse ++ m :: a.reverse = r'.reverse ++ m :: a'.reverse := by
    simpa using congrArg List.reverse h
  obtain ⟨hrr, haa⟩ := eq_of_append_eq (hne hr) (hne hr') hstop hstop hrev
  exact ⟨List.reverse_inj.1 (List.cons.inj haa).2, List.reverse_inj.1 hrr⟩

/-- A text is cut where a name ends. -/
theorem eq_of_name_append_eq {t t' : String} (ht : IsName t) (ht' : IsName t') {r r' : List Char}
    (hr : ∀ c ∈ r.head?, isNameChar c = false) (hr' : ∀ c ∈ r'.head?, isNameChar c = false)
    (h : t.toList ++ r = t'.toList ++ r') : t = t' ∧ r = r' := by
  obtain ⟨htt, hrr⟩ := eq_of_append_eq (List.all_eq_true.1 ht.all_isNameChar)
    (List.all_eq_true.1 ht'.all_isNameChar) hr hr' h
  exact ⟨String.toList_inj.1 htt, hrr⟩

/-! ### Joined lists -/

theorem intercalate_cons_eq_append_flatMap (sep x : List Char) (xs : List (List Char)) :
    sep.intercalate (x :: xs) = x ++ xs.flatMap (sep ++ ·) := by
  induction xs generalizing x with
  | nil => simp
  | cons y ys ih =>
      simp only [List.intercalate_cons_cons, ih, List.flatMap_cons, List.append_assoc]

/-- The items after the first, each with the separator before it, are told by their text. -/
theorem flatMap_separated_inj {m : Char} {sep : List Char} {xs ys : List (List Char)}
    (hxs : ∀ x ∈ xs, m ∉ x) (hys : ∀ y ∈ ys, m ∉ y)
    (h : xs.flatMap ((m :: sep) ++ ·) = ys.flatMap ((m :: sep) ++ ·)) : xs = ys := by
  have hne : ∀ {x : List Char}, m ∉ x → ∀ c ∈ x, (c != m) = true := by
    intro x hx c hc
    exact bne_iff_ne.2 fun hcm => hx (hcm ▸ hc)
  have hstop : ∀ zs : List (List Char), ∀ c ∈ (zs.flatMap ((m :: sep) ++ ·)).head?,
      (c != m) = false := by
    intro zs c hc
    cases zs with
    | nil => simp at hc
    | cons z zs =>
        obtain rfl : m = c := by simpa using hc
        exact bne_self_eq_false m
  induction xs generalizing ys with
  | nil =>
      cases ys with
      | nil => rfl
      | cons y ys => simp at h
  | cons x xs ih =>
      cases ys with
      | nil => simp at h
      | cons y ys =>
          simp only [List.flatMap_cons, List.append_assoc, List.append_cancel_left_eq] at h
          obtain ⟨rfl, hrest⟩ := eq_of_append_eq (hne (hxs x List.mem_cons_self))
            (hne (hys y List.mem_cons_self)) (hstop xs) (hstop ys) h
          rw [ih (fun x' hx' => hxs x' (List.mem_cons_of_mem x hx'))
            (fun y' hy' => hys y' (List.mem_cons_of_mem x hy')) hrest]

/-- **A joined list is cut at its separators**, if none of them begins inside an item and no item is
empty. -/
theorem intercalate_inj {m : Char} {sep : List Char} {xs ys : List (List Char)}
    (hxs : ∀ x ∈ xs, x ≠ [] ∧ m ∉ x) (hys : ∀ y ∈ ys, y ≠ [] ∧ m ∉ y)
    (h : (m :: sep).intercalate xs = (m :: sep).intercalate ys) : xs = ys := by
  cases xs with
  | nil =>
      cases ys with
      | nil => rfl
      | cons y ys =>
          rw [intercalate_cons_eq_append_flatMap] at h
          exact absurd (List.append_eq_nil_iff.1 h.symm).1 (hys y List.mem_cons_self).1
  | cons x xs =>
      cases ys with
      | nil =>
          rw [intercalate_cons_eq_append_flatMap] at h
          exact absurd (List.append_eq_nil_iff.1 h).1 (hxs x List.mem_cons_self).1
      | cons y ys =>
          -- with a separator before them, the first items are like the others
          rw [intercalate_cons_eq_append_flatMap, intercalate_cons_eq_append_flatMap] at h
          have hall : (x :: xs).flatMap ((m :: sep) ++ ·) =
              (y :: ys).flatMap ((m :: sep) ++ ·) := by
            simp only [List.flatMap_cons, List.append_assoc, h]
          exact flatMap_separated_inj (fun x' hx' => (hxs x' hx').2)
            (fun y' hy' => (hys y' hy').2) hall

/-- Texts that are joined are told by the whole. -/
theorem map_eq_of_intercalate_eq {α : Type} {text : α → String} {m : Char} {sep : String}
    (hsep : sep.toList.head? = some m)
    (hitem : ∀ a, (text a).toList ≠ [] ∧ m ∉ (text a).toList) {as bs : List α}
    (h : sep.intercalate (as.map text) = sep.intercalate (bs.map text)) :
    as.map text = bs.map text := by
  have hitems : ∀ (cs : List α), ∀ x ∈ (cs.map text).map String.toList, x ≠ [] ∧ m ∉ x := by
    intro cs x hx
    rw [List.map_map] at hx
    obtain ⟨a, -, rfl⟩ := List.mem_map.1 hx
    exact hitem a
  obtain ⟨sep', hsep'⟩ := List.head?_eq_some_iff.1 hsep
  have hlists := congrArg String.toList h
  rw [String.toList_intercalate, String.toList_intercalate, hsep'] at hlists
  have htexts := intercalate_inj (hitems as) (hitems bs) hlists
  exact List.map_injective_iff.2 (fun s t => String.toList_inj.1) htexts

/-- What is told item by item is told of a whole list. -/
theorem map_eq_map_iff_of_forall {α β γ : Type} {f : α → β} {g : α → γ}
    (hfg : ∀ a b, f a = f b ↔ g a = g b) {as bs : List α} :
    as.map f = bs.map f ↔ as.map g = bs.map g := by
  induction as generalizing bs with
  | nil => cases bs <;> simp
  | cons a as ih =>
      cases bs with
      | nil => simp
      | cons b bs => simp only [List.map_cons, List.cons.injEq, hfg a b, ih]

/-! ### What occurs in a text -/

/-- Nothing else occurs in the text but characters of names and some marks. -/
def MadeOf (marks t : String) : Prop :=
  ∀ c ∈ t.toList, isNameChar c = true ∨ c ∈ marks.toList

namespace MadeOf

variable {marks marks' : String}

/-- Other marks do not occur in the text. -/
theorem not_mem {t : String} (ht : MadeOf marks t) {c : Char} (hc : isNameChar c = false)
    (hmarks : c ∉ marks.toList) : c ∉ t.toList := by
  intro hmem
  rcases ht c hmem with hname | hmark
  · exact Bool.false_ne_true (hc.symm.trans hname)
  · exact hmarks hmark

theorem mono {t : String} (ht : MadeOf marks t) (hmarks : marks.toList ⊆ marks'.toList) :
    MadeOf marks' t :=
  fun c hc => (ht c hc).imp_right fun hmark => hmarks hmark

theorem append {t t' : String} (ht : MadeOf marks t) (ht' : MadeOf marks t') :
    MadeOf marks (t ++ t') := by
  intro c hc
  rw [String.toList_append, List.mem_append] at hc
  exact hc.elim (ht c) (ht' c)

theorem intercalate {sep : String} {ts : List String} (hsep : MadeOf marks sep)
    (hts : ∀ t ∈ ts, MadeOf marks t) : MadeOf marks (sep.intercalate ts) := by
  intro c hc
  cases ts with
  | nil => simp at hc
  | cons t ts =>
      rw [String.toList_intercalate, List.map_cons, intercalate_cons_eq_append_flatMap,
        List.mem_append, List.mem_flatMap] at hc
      rcases hc with hc | ⟨x, hx, hc⟩
      · exact hts t List.mem_cons_self c hc
      · obtain ⟨t', ht', rfl⟩ := List.mem_map.1 hx
        rcases List.mem_append.1 hc with hc | hc
        · exact hsep c hc
        · exact hts t' (List.mem_cons_of_mem t ht') c hc

end MadeOf

theorem IsName.madeOf {t : String} (ht : IsName t) (marks : String) : MadeOf marks t :=
  fun c hc => Or.inl (List.all_eq_true.1 ht.all_isNameChar c hc)

/-! ### Refusals and trails -/

theorem Reason.madeOf_text (r : Reason) : MadeOf " " r.text := by
  cases r <;> simp [MadeOf, text, isNameChar]

theorem Refusal.madeOf_text (r : Refusal) : MadeOf " ()" r.text := by
  have hopen : MadeOf " ()" " (" := by simp [MadeOf]
  have hclose : MadeOf " ()" ")" := by simp [MadeOf]
  have hreason : MadeOf " ()" r.reason.text := r.reason.madeOf_text.mono (by simp)
  exact (((r.scope.isName_text.madeOf _).append hopen).append hreason).append hclose

theorem Refusal.toList_text (r : Refusal) :
    r.text.toList = r.scope.text.toList ++ ' ' :: '(' :: (r.reason.text.toList ++ [')']) := by
  simp [text]

/-- **A refusal is told by its text.** -/
theorem Refusal.text_inj {r r' : Refusal} (h : r.text = r'.text) : r = r' := by
  have hlist := congrArg String.toList h
  rw [toList_text, toList_text] at hlist
  obtain ⟨hscope, hrest⟩ := eq_of_name_append_eq r.scope.isName_text r'.scope.isName_text
    (by simp [isNameChar]) (by simp [isNameChar]) hlist
  have hreason := List.append_cancel_right (List.cons.inj (List.cons.inj hrest).2).2
  rw [Refusal.mk.injEq]
  exact ⟨Scope.text_inj hscope, Reason.text_inj (String.toList_inj.1 hreason)⟩

/-- A trail in which there are refusals. -/
theorem trailText_cons (r : Refusal) (t : List Refusal) :
    trailText (r :: t) = ", rejected by " ++ ", ".intercalate ((r :: t).map Refusal.text) := rfl

theorem madeOf_trailText (t : List Refusal) : MadeOf " ()," (trailText t) := by
  cases t with
  | nil => simp [MadeOf, trailText]
  | cons r t =>
      rw [trailText_cons]
      have hopen : MadeOf " ()," ", rejected by " := by simp [MadeOf, isNameChar]
      refine hopen.append (MadeOf.intercalate (by simp [MadeOf]) ?_)
      intro x hx
      obtain ⟨r', -, rfl⟩ := List.mem_map.1 hx
      exact r'.madeOf_text.mono (by simp)

/-- **A trail is told by its text**, also an empty one. -/
theorem trailText_inj {t t' : List Refusal} (h : trailText t = trailText t') : t = t' := by
  have hne : ∀ (r : Refusal) (t : List Refusal), trailText (r :: t) ≠ "" := by
    intro r t
    simp [trailText_cons]
  cases t with
  | nil =>
      cases t' with
      | nil => rfl
      | cons r' t' => exact absurd h.symm (hne r' t')
  | cons r t =>
      cases t' with
      | nil => exact absurd h (hne r t)
      | cons r' t' =>
          rw [trailText_cons, trailText_cons] at h
          have hitem : ∀ r : Refusal, r.text.toList ≠ [] ∧ ',' ∉ r.text.toList := fun r =>
            ⟨by simp [Refusal.toList_text], r.madeOf_text.not_mem rfl (by simp)⟩
          have htexts := map_eq_of_intercalate_eq (by simp) hitem ((String.append_right_inj _).1 h)
          exact List.map_injective_iff.2 (fun a b => Refusal.text_inj) htexts

/-! ### Strays -/

/-- The scopes that a placement lists. -/
theorem madeOf_parents (ss : List Scope) :
    MadeOf ", " (", ".intercalate (ss.map Scope.text)) := by
  refine MadeOf.intercalate (by simp [MadeOf]) ?_
  intro x hx
  obtain ⟨s, -, rfl⟩ := List.mem_map.1 hx
  exact s.isName_text.madeOf _

theorem parents_inj {ss ss' : List Scope}
    (h : ", ".intercalate (ss.map Scope.text) = ", ".intercalate (ss'.map Scope.text)) :
    ss = ss' := by
  have hitem : ∀ s : Scope, s.text.toList ≠ [] ∧ ',' ∉ s.text.toList := fun s =>
    ⟨s.isName_text.ne_nil, s.isName_text.not_mem rfl⟩
  have htexts := map_eq_of_intercalate_eq (by simp) hitem h
  exact List.map_injective_iff.2 (fun a b => Scope.text_inj) htexts

theorem Placement.toList_text_append (p : Placement) (rest : List Char) :
    p.text.toList ++ rest =
      p.scope.text.toList ++ (" (wants `".toList ++ (p.slot.name.toList ++
        ("` in one of [".toList ++ ((", ".intercalate (p.parents.map Scope.text)).toList ++
          (']' :: ')' :: rest))))) := by
  simp [text]

/-- **A placement is told by its text**, whatever comes after it. -/
theorem Placement.eq_of_text_append_eq {p p' : Placement} {rest rest' : List Char}
    (h : p.text.toList ++ rest = p'.text.toList ++ rest') : p = p' ∧ rest = rest' := by
  have hlisted : ∀ ss : List Scope,
      ∀ c ∈ (", ".intercalate (ss.map Scope.text)).toList, (c != ']') = true := by
    intro ss c hc
    refine bne_iff_ne.2 fun hbracket => ?_
    exact (madeOf_parents ss).not_mem (c := ']') rfl (by simp) (hbracket ▸ hc)
  rw [toList_text_append, toList_text_append] at h
  obtain ⟨hscope, hafter⟩ := eq_of_name_append_eq p.scope.isName_text p'.scope.isName_text
    (by simp [isNameChar]) (by simp [isNameChar]) h
  have hwants := List.append_cancel_left hafter
  obtain ⟨hslot, hafter'⟩ := eq_of_name_append_eq p.slot.isName_name p'.slot.isName_name
    (by simp [isNameChar]) (by simp [isNameChar]) hwants
  have hlist := List.append_cancel_left hafter'
  obtain ⟨hparents, hclose⟩ := eq_of_append_eq (hlisted p.parents) (hlisted p'.parents)
    (by simp) (by simp) hlist
  have hrest := (List.cons.inj (List.cons.inj hclose).2).2
  refine ⟨?_, hrest⟩
  rw [Placement.mk.injEq]
  exact ⟨Scope.text_inj hscope, Slot.name_inj hslot, parents_inj (String.toList_inj.1 hparents)⟩

theorem Placement.madeOf_text (p : Placement) : MadeOf " ()[],`" p.text := by
  have hscope := p.scope.isName_text.madeOf " ()[],`"
  have hslot := p.slot.isName_name.madeOf " ()[],`"
  have hwants : MadeOf " ()[],`" " (wants `" := by simp [MadeOf, isNameChar]
  have hin : MadeOf " ()[],`" "` in one of [" := by simp [MadeOf, isNameChar]
  have hparents : MadeOf " ()[],`" _ := (madeOf_parents p.parents).mono (by simp)
  have hclose : MadeOf " ()[],`" "])" := by simp [MadeOf]
  exact ((((hscope.append hwants).append hslot).append hin).append hparents).append hclose

/-- What the text of a stray shows: where its component belongs, and the refusals it met. -/
def Stray.shown (s : Stray) : Placement × List Refusal :=
  (s.component.placement, s.trail)

/-- **What a stray shows is told by its text.** -/
theorem Stray.text_eq_iff {s s' : Stray} : s.text = s'.text ↔ s.shown = s'.shown := by
  constructor
  · intro h
    have hlist : s.component.placement.text.toList ++ (trailText s.trail).toList =
        s'.component.placement.text.toList ++ (trailText s'.trail).toList := by
      simpa [text, Component.text] using congrArg String.toList h
    obtain ⟨hplacement, htrail⟩ := Placement.eq_of_text_append_eq hlist
    rw [shown, shown, hplacement, trailText_inj (String.toList_inj.1 htrail)]
  · intro h
    obtain ⟨hplacement, htrail⟩ := Prod.mk.inj h
    rw [text, text, Component.text, Component.text, hplacement, htrail]

theorem Stray.madeOf_text (s : Stray) : MadeOf " ()[],`" s.text :=
  s.component.placement.madeOf_text.append ((madeOf_trailText s.trail).mono (by simp))

theorem Stray.toList_text_ne_nil (s : Stray) : s.text.toList ≠ [] := by
  simp [text, Component.text, Placement.text]

/-! ### Messages -/

/-- The strays as a message lists them. -/
def listText (ss : List Stray) : String :=
  "; ".intercalate (ss.map Stray.text)

theorem madeOf_listText (ss : List Stray) : MadeOf " ()[],`;" (listText ss) := by
  refine MadeOf.intercalate (by simp [MadeOf]) ?_
  intro x hx
  obtain ⟨s, -, rfl⟩ := List.mem_map.1 hx
  exact s.madeOf_text.mono (by simp)

/-- **What some strays show is told by their list.** -/
theorem listText_eq_iff {ss ss' : List Stray} :
    listText ss = listText ss' ↔ ss.map Stray.shown = ss'.map Stray.shown := by
  rw [← map_eq_map_iff_of_forall fun s s' => Stray.text_eq_iff]
  constructor
  · intro h
    have hitem : ∀ s : Stray, s.text.toList ≠ [] ∧ ';' ∉ s.text.toList := fun s =>
      ⟨s.toList_text_ne_nil, s.madeOf_text.not_mem rfl (by simp)⟩
    exact map_eq_of_intercalate_eq (by simp) hitem h
  · intro htexts
    rw [listText, listText, htexts]

/-- A message up to the name of the class. -/
def openingText (count : Nat) : String :=
  "could not place " ++ toString count ++ " component(s) in class `"

theorem PlacementError.message_eq (e : PlacementError) :
    e.message = openingText e.unplaced.length ++ e.className ++ "`: " ++ listText e.unplaced :=
  rfl

/-- A message up to its last colon, and the strays after it. -/
theorem PlacementError.toList_message (e : PlacementError) :
    e.message.toList =
      (openingText e.unplaced.length).toList ++ e.className.toList ++ "`".toList ++
        ':' :: ' ' :: (listText e.unplaced).toList := by
  have hmark : "`: ".toList = "`".toList ++ [':', ' '] := by simp
  rw [message_eq, String.toList_append, String.toList_append, String.toList_append, hmark]
  simp only [List.append_assoc, List.cons_append, List.nil_append]

/-- There is no colon in the list of the strays. -/
theorem colon_not_mem_listText (ss : List Stray) : ':' ∉ ' ' :: (listText ss).toList := by
  have hcolon := (madeOf_listText ss).not_mem (c := ':') rfl (by simp)
  simpa using hcolon

/-- **The message of an error tells what failed**: it shows the name of the class, and of each
stray, in order, the scope of its component, the slot and the scopes that it asks for, and its
trail. -/
theorem message_eq_iff (e e' : PlacementError) :
    e.message = e'.message ↔
      e.className = e'.className ∧
        e.unplaced.map Stray.shown = e'.unplaced.map Stray.shown := by
  have hlength : e.unplaced.map Stray.shown = e'.unplaced.map Stray.shown →
      e.unplaced.length = e'.unplaced.length := fun h => by
    simpa using congrArg List.length h
  constructor
  · intro h
    have hmessage := congrArg String.toList h
    rw [PlacementError.toList_message, PlacementError.toList_message] at hmessage
    obtain ⟨hfront, hback⟩ := eq_of_append_cons_eq (colon_not_mem_listText _)
      (colon_not_mem_listText _) hmessage
    have hstrays := listText_eq_iff.1 (String.toList_inj.1 (List.cons.inj hback).2)
    -- so the numbers of strays agree, and what is left is the name
    rw [hlength hstrays] at hfront
    have hname := List.append_cancel_left (List.append_cancel_right hfront)
    exact ⟨String.toList_inj.1 hname, hstrays⟩
  · rintro ⟨hname, hstrays⟩
    calc e.message
        = openingText e.unplaced.length ++ e.className ++ "`: " ++ listText e.unplaced :=
          e.message_eq
      _ = openingText e'.unplaced.length ++ e'.className ++ "`: " ++ listText e'.unplaced := by
          rw [hname, hlength hstrays, listText_eq_iff.2 hstrays]
      _ = e'.message := e'.message_eq.symm

end ClassFile
