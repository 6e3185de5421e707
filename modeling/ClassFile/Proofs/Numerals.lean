/-
**Numerals and line mappings can be read back.**

A number has one decimal form, without leading zeros, and in a line it goes on for as long as there
are digits.  So a number is read back from its form whatever mark follows it, and a line mapping,
which is made of numbers with marks between them, is read back although some of its parts may be
missing: each part is announced by a mark with which none of the later parts begins.

Main definitions:

* `Canonical` — digits that are the decimal form of a number;
* `Stops` — a line that is at its end or goes on with one of some marks;
* `markedDigits` — what is written for a marked number, as characters.

Main results:

* `toDigits_ofDigitChars` — **digits without a leading zero are the decimal form of a number**;
* `readNat?_append`, `eq_append_of_readNat?` — a number at the front of a line, and likewise for
  `readNumber?` and `readMarked?`;
* `readMapping?_eq_some_iff` — **a line is a line mapping** just if that is what was written.
-/

import ClassFile.SourceMap.Reader
import Mathlib.Data.List.Basic

set_option relaxedAutoImplicit false
set_option autoImplicit false

namespace ClassFile

/-! ### Decimal forms -/

theorem exists_digitChar_of_isDigit {c : Char} (hc : c.isDigit = true) :
    ∃ d < 10, c = Nat.digitChar d := by
  have hrange : 48 ≤ c.toNat ∧ c.toNat ≤ 57 := Char.isDigit_iff_toNat.1 hc
  have hlt : c.toNat - 48 < 10 := by omega
  refine ⟨c.toNat - 48, hlt, Char.toNat_inj.1 ?_⟩
  rw [Nat.toNat_digitChar_of_lt_ten hlt]
  omega

/-- Digits after a number other than zero lengthen its decimal form. -/
theorem toDigits_ofDigitChars_of_pos {cs : List Char} (hcs : ∀ c ∈ cs, c.isDigit = true) {n : Nat}
    (hn : 0 < n) : Nat.toDigits 10 (Nat.ofDigitChars 10 cs n) = Nat.toDigits 10 n ++ cs := by
  induction cs generalizing n with
  | nil => rw [Nat.ofDigitChars_nil, List.append_nil]
  | cons c cs ih =>
      obtain ⟨d, hd, rfl⟩ := exists_digitChar_of_isDigit (hcs c List.mem_cons_self)
      have hrest := ih (fun c' hc' => hcs c' (List.mem_cons_of_mem _ hc'))
        (n := 10 * n + d) (by omega)
      rw [Nat.ofDigitChars_cons_digitChar_of_lt_ten hd, hrest,
        ← Nat.toDigits_append_toDigits (by decide) hn hd, Nat.toDigits_of_lt_base hd,
        List.append_assoc, List.singleton_append]

/-- The digits are the decimal form of a number: there are some, and only zero begins with a
zero. -/
def Canonical (digits : List Char) : Prop :=
  digits ≠ [] ∧ (digits.head? = some '0' → digits = ['0'])

theorem not_iff_canonical {digits : List Char} :
    ¬(digits = [] ∨ (digits.head? = some '0' ∧ digits ≠ ['0'])) ↔ Canonical digits := by
  simp [Canonical]

/-- **Digits without a leading zero are the decimal form of a number.** -/
theorem toDigits_ofDigitChars {digits : List Char} (hdigits : ∀ c ∈ digits, c.isDigit = true)
    (hcanonical : Canonical digits) :
    Nat.toDigits 10 (Nat.ofDigitChars 10 digits 0) = digits := by
  obtain ⟨hne, hzero⟩ := hcanonical
  cases digits with
  | nil => exact absurd rfl hne
  | cons c cs =>
      obtain ⟨d, hd, rfl⟩ := exists_digitChar_of_isDigit (hdigits c List.mem_cons_self)
      by_cases h : d = 0
      · have hall := hzero (by simp [h])
        rw [hall]
        rfl
      · have hcs := fun c' hc' => hdigits c' (List.mem_cons_of_mem _ hc')
        rw [Nat.ofDigitChars_cons_digitChar_of_lt_ten hd,
          toDigits_ofDigitChars_of_pos hcs (by omega), Nat.mul_zero, Nat.zero_add,
          Nat.toDigits_of_lt_base hd, List.singleton_append]

/-- The decimal form of a number has no leading zero. -/
theorem canonical_toDigits (n : Nat) : Canonical (Nat.toDigits 10 n) := by
  refine ⟨Nat.toDigits_ne_nil, ?_⟩
  induction n using Nat.base_induction 10 (by decide) with
  | single d hd =>
      rw [Nat.toDigits_of_lt_base hd]
      intro h
      exact congrArg (fun c => [c]) (Option.some.inj h)
  | digit n d hd hn ih =>
      intro h
      -- the leading digit would be that of a number other than zero
      rw [← Nat.toDigits_append_toDigits (by decide) hn hd, List.head?_append,
        Option.or_of_isSome (List.isSome_head?.2 Nat.toDigits_ne_nil)] at h
      have hvalue := @Nat.ofDigitChars_ten_toDigits n
      rw [ih h] at hvalue
      exact absurd hvalue (Nat.ne_of_lt hn)

theorem isDigit_of_mem_toDigits {n : Nat} {c : Char} (hc : c ∈ Nat.toDigits 10 n) :
    c.isDigit = true :=
  Nat.isDigit_of_mem_toDigits (by decide) (by decide) hc

/-- A line that opens with a number opens with a digit. -/
theorem isDigit_of_mem_head? {n : Nat} {rest : List Char} {c : Char}
    (hc : c ∈ (Nat.toDigits 10 n ++ rest).head?) : c.isDigit = true := by
  rw [List.head?_append, Option.or_of_isSome (List.isSome_head?.2 Nat.toDigits_ne_nil)] at hc
  exact isDigit_of_mem_toDigits (List.mem_of_mem_head? hc)

/-! ### Numbers in a line -/

/-- The line is at its end, or goes on with one of the marks. -/
def Stops (marks : List Char) (l : Line) : Prop :=
  ∀ c ∈ l.head?, c ∈ marks

theorem stops_nil : Stops [] [] := by
  simp [Stops]

theorem stops_cons (mark : Char) (l : Line) : Stops [mark] (mark :: l) := by
  simp [Stops]

/-- Before a mark that is no digit the digits of a line come to an end. -/
theorem takeWhile_digits_append {marks : List Char} {digits rest : Line}
    (hdigits : ∀ c ∈ digits, c.isDigit = true) (hrest : Stops marks rest)
    (hmarks : ∀ c ∈ marks, c.isDigit = false) :
    (digits ++ rest).takeWhile Char.isDigit = digits ∧
      (digits ++ rest).dropWhile Char.isDigit = rest := by
  rw [List.takeWhile_append_of_pos hdigits, List.dropWhile_append_of_pos hdigits]
  cases rest with
  | nil => simp
  | cons c rest =>
      have hc : ¬c.isDigit = true := by simp [hmarks c (hrest c rfl)]
      rw [List.takeWhile_cons_of_neg hc, List.dropWhile_cons_of_neg hc, List.append_nil]
      exact ⟨rfl, rfl⟩

/-- **A number is read back from its decimal form**, if no digit follows. -/
theorem readNat?_append (n : Nat) {marks : List Char} {rest : Line} (hrest : Stops marks rest)
    (hmarks : ∀ c ∈ marks, c.isDigit = false) :
    readNat? (Nat.toDigits 10 n ++ rest) = some (n, rest) := by
  obtain ⟨htake, hdrop⟩ :=
    takeWhile_digits_append (fun c hc => isDigit_of_mem_toDigits hc) hrest hmarks
  have hform := not_iff_canonical.2 (canonical_toDigits n)
  rw [readNat?, htake, hdrop, if_neg hform, Nat.ofDigitChars_ten_toDigits]

/-- What is read as a number is its decimal form. -/
theorem eq_append_of_readNat? {l rest : Line} {n : Nat} (h : readNat? l = some (n, rest)) :
    l = Nat.toDigits 10 n ++ rest := by
  simp only [readNat?] at h
  split at h
  · cases h
  · next hform =>
      cases h
      have hdigits : ∀ c ∈ l.takeWhile Char.isDigit, c.isDigit = true :=
        List.all_eq_true.1 List.all_takeWhile
      rw [toDigits_ofDigitChars hdigits (not_iff_canonical.1 hform),
        List.takeWhile_append_dropWhile]

theorem readNumber?_append (n : UInt32) {marks : List Char} {rest : Line}
    (hrest : Stops marks rest) (hmarks : ∀ c ∈ marks, c.isDigit = false) :
    readNumber? (Nat.toDigits 10 n.toNat ++ rest) = some (n, rest) := by
  rw [readNumber?, readNat?_append n.toNat hrest hmarks, Option.bind_some, if_pos n.toNat_lt_size,
    UInt32.ofNat_toNat]

theorem eq_append_of_readNumber? {l rest : Line} {n : UInt32}
    (h : readNumber? l = some (n, rest)) : l = Nat.toDigits 10 n.toNat ++ rest := by
  obtain ⟨⟨n', rest'⟩, hread, h⟩ := Option.bind_eq_some_iff.1 h
  split at h
  · next hsize =>
      cases h
      rw [UInt32.toNat_ofNat_of_lt' hsize]
      exact eq_append_of_readNat? hread
  · cases h

/-! ### Marked numbers -/

/-- A mark and the decimal form of a number, or nothing. -/
def markedDigits (mark : Char) : Option UInt32 → Line
  | none => []
  | some n => mark :: Nat.toDigits 10 n.toNat

/-- A marked number adds its mark to those with which a line goes on. -/
theorem Stops.markedDigits_append {marks : List Char} {rest : Line} (hrest : Stops marks rest)
    (mark : Char) (n : Option UInt32) :
    Stops (mark :: marks) (markedDigits mark n ++ rest) := by
  cases n with
  | none => exact fun c hc => List.mem_cons_of_mem mark (hrest c hc)
  | some n => simp [Stops, markedDigits]

/-- **A marked number is read back**, be it there or not, if nothing that follows begins with the
mark. -/
theorem readMarked?_append (mark : Char) (n : Option UInt32) {marks : List Char} {rest : Line}
    (hrest : Stops marks rest) (hmark : mark ∉ marks) (hmarks : ∀ c ∈ marks, c.isDigit = false) :
    readMarked? mark (markedDigits mark n ++ rest) = some (n, rest) := by
  cases n with
  | none =>
      have hnone : [mark].isPrefixOf? rest = none := by
        rw [Option.eq_none_iff_forall_ne_some]
        intro rest' h
        obtain rfl := List.isPrefixOf?_eq_some_iff_append_eq.1 h
        exact hmark (hrest mark rfl)
      rw [markedDigits, List.nil_append, readMarked?, hnone]
  | some n =>
      have hsome : [mark].isPrefixOf? (mark :: (Nat.toDigits 10 n.toNat ++ rest)) =
          some (Nat.toDigits 10 n.toNat ++ rest) := List.isPrefixOf?_eq_some_iff_append_eq.2 rfl
      rw [markedDigits, List.cons_append, readMarked?, hsome]
      simp only [readNumber?_append n hrest hmarks, Option.map_some]

theorem eq_append_of_readMarked? {mark : Char} {l rest : Line} {n : Option UInt32}
    (h : readMarked? mark l = some (n, rest)) : l = markedDigits mark n ++ rest := by
  unfold readMarked? at h
  split at h
  · cases h
    rfl
  · next rest' hopening =>
      obtain ⟨⟨n', rest''⟩, hread, he⟩ := Option.map_eq_some_iff.1 h
      cases he
      obtain rfl := List.isPrefixOf?_eq_some_iff_append_eq.1 hopening
      rw [eq_append_of_readNumber? hread]
      rfl

/-! ### Line mappings -/

theorem toList_markedNumber (mark : String) (c : Char) (hmark : mark.toList = [c])
    (n : Option UInt32) : (markedNumber mark n).toList = markedDigits c n := by
  cases n with
  | none => rfl
  | some n => simp [markedNumber, markedDigits, hmark]

/-- What is written for a line mapping. -/
theorem LineMapping.toList_text (m : LineMapping) :
    m.text.toList =
      Nat.toDigits 10 m.input.toNat ++ (markedDigits '#' m.file ++ (markedDigits ',' m.repeats ++
        ':' :: (Nat.toDigits 10 m.output.toNat ++ markedDigits ',' m.increment))) := by
  simp [text, toList_markedNumber "#" '#' rfl, toList_markedNumber "," ',' rfl]

/-- **A line mapping is read back.** -/
theorem readMapping?_toList_text (m : LineMapping) : readMapping? m.text.toList = some m := by
  -- from the end of the line to its front, with what each part is followed by
  have hincrement := stops_nil.markedDigits_append ',' m.increment
  have hcolon := stops_cons ':' (Nat.toDigits 10 m.output.toNat ++ markedDigits ',' m.increment)
  have hrepeats := hcolon.markedDigits_append ',' m.repeats
  have hfile := hrepeats.markedDigits_append '#' m.file
  have readIncrement := readMarked?_append ',' m.increment stops_nil (by decide) (by simp)
  rw [List.append_nil] at hincrement readIncrement
  have readOutput := readNumber?_append m.output hincrement (by simp)
  have dropColon : [':'].isPrefixOf?
      (':' :: (Nat.toDigits 10 m.output.toNat ++ markedDigits ',' m.increment)) =
        some (Nat.toDigits 10 m.output.toNat ++ markedDigits ',' m.increment) :=
    List.isPrefixOf?_eq_some_iff_append_eq.2 rfl
  have readRepeats := readMarked?_append ',' m.repeats hcolon (by decide) (by simp)
  have readFile := readMarked?_append '#' m.file hrepeats (by decide) (by simp)
  have readInput := readNumber?_append m.input hfile (by simp)
  rw [LineMapping.toList_text, readMapping?, readInput]
  simp only [bind, Option.bind_some, readFile, readRepeats, dropColon, readOutput, readIncrement,
    if_true]

/-- **A line is a line mapping** just if that is what was written. -/
theorem readMapping?_eq_some_iff {l : Line} {m : LineMapping} :
    readMapping? l = some m ↔ l = m.text.toList := by
  constructor
  · intro h
    obtain ⟨⟨input, l₁⟩, readInput, h⟩ := Option.bind_eq_some_iff.1 h
    obtain ⟨⟨file, l₂⟩, readFile, h⟩ := Option.bind_eq_some_iff.1 h
    obtain ⟨⟨repeats, l₃⟩, readRepeats, h⟩ := Option.bind_eq_some_iff.1 h
    obtain ⟨l₄, dropColon, h⟩ := Option.bind_eq_some_iff.1 h
    obtain ⟨⟨output, l₅⟩, readOutput, h⟩ := Option.bind_eq_some_iff.1 h
    obtain ⟨⟨increment, l₆⟩, readIncrement, h⟩ := Option.bind_eq_some_iff.1 h
    have hrest : l₆ = [] ∧ (⟨input, file, repeats, output, increment⟩ : LineMapping) = m := by
      simpa using h
    obtain ⟨rfl, rfl⟩ := hrest
    rw [LineMapping.toList_text, eq_append_of_readNumber? readInput,
      eq_append_of_readMarked? readFile, eq_append_of_readMarked? readRepeats,
      ← List.isPrefixOf?_eq_some_iff_append_eq.1 dropColon, eq_append_of_readNumber? readOutput,
      eq_append_of_readMarked? readIncrement, List.append_nil]
    rfl
  · rintro rfl
    exact readMapping?_toList_text m

end ClassFile
