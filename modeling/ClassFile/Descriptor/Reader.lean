/-
**Reading descriptors.**

A descriptor is read from the left, and each character decides how to go on: a bracket announces
the elements of an array, `L` the name of a class up to the next semicolon, and any other letter is
a type by itself.  A method is read as its parenthesised parameters and its result.

Main definitions:

* `readType?`, `readTypes?`, `readResult?` — what stands at the front of a text, and the rest;
* `FieldType.ofDescriptor?`, `MethodDescriptor.ofDescriptor?` — what a whole text describes.

Main results:

* `length_readType?` — reading a type uses up part of the text, so that reading many comes to an
  end.
-/

import ClassFile.Descriptor

set_option relaxedAutoImplicit false
set_option autoImplicit false

namespace ClassFile

/-- The primitive type with a given letter. -/
def BaseType.ofLetter? : Char → Option BaseType
  | 'B' => some .byte
  | 'C' => some .char
  | 'D' => some .double
  | 'F' => some .float
  | 'I' => some .int
  | 'J' => some .long
  | 'S' => some .short
  | 'Z' => some .boolean
  | _ => none

theorem BaseType.ofLetter?_eq_some_iff {c : Char} {t : BaseType} :
    ofLetter? c = some t ↔ c = t.letter := by
  constructor
  · intro h
    unfold ofLetter? at h
    split at h <;> first | (cases h; rfl) | cases h
  · rintro rfl
    cases t <;> rfl

/-- The characters up to the next semicolon, and what follows it. -/
def readName? : List Char → Option (List Char × List Char)
  | [] => none
  | c :: cs => if c = ';' then some ([], cs) else (readName? cs).map fun r => (c :: r.1, r.2)

/-- The type that a text begins with, and the rest of the text. -/
def readType? : List Char → Option (FieldType × List Char)
  | [] => none
  | c :: cs =>
      if c = '[' then (readType? cs).map fun r => (r.1.array, r.2)
      else if c = 'L' then (readName? cs).map fun r => (.object ⟨String.ofList r.1⟩, r.2)
      else (BaseType.ofLetter? c).map fun t => (.base t, cs)

theorem length_readName? {cs name rest : List Char} (h : readName? cs = some (name, rest)) :
    rest.length < cs.length := by
  induction cs generalizing name with
  | nil => simp [readName?] at h
  | cons c cs ih =>
      simp only [readName?] at h
      split at h
      · simp_all
      · obtain ⟨r, hr, he⟩ := Option.map_eq_some_iff.mp h
        cases he
        exact Nat.lt_succ_of_lt (ih hr)

theorem length_readType? {cs rest : List Char} {t : FieldType}
    (h : readType? cs = some (t, rest)) : rest.length < cs.length := by
  induction cs generalizing t with
  | nil => simp [readType?] at h
  | cons c cs ih =>
      simp only [readType?] at h
      split at h
      · obtain ⟨r, hr, he⟩ := Option.map_eq_some_iff.mp h
        cases he
        exact Nat.lt_succ_of_lt (ih hr)
      · split at h
        · obtain ⟨r, hr, he⟩ := Option.map_eq_some_iff.mp h
          cases he
          exact Nat.lt_succ_of_lt (length_readName? hr)
        · obtain ⟨r, hr, he⟩ := Option.map_eq_some_iff.mp h
          cases he
          simp

/-- The types that a text begins with, up to a closing parenthesis, and what follows it. -/
def readTypes? (cs : List Char) : Option (List FieldType × List Char) :=
  match cs with
  | ')' :: rest => some ([], rest)
  | cs =>
      match h : readType? cs with
      | none => none
      | some (t, rest) =>
          have := length_readType? h
          (readTypes? rest).map fun r => (t :: r.1, r.2)
termination_by cs.length

/-- The result that a text is: `V` for none, or else one type. -/
def readResult? : List Char → Option (Option FieldType)
  | ['V'] => some none
  | cs =>
      match readType? cs with
      | some (t, []) => some (some t)
      | _ => none

/-- The field type with a given descriptor. -/
def FieldType.ofDescriptor? (s : String) : Option FieldType :=
  match readType? s.toList with
  | some (t, []) => some t
  | _ => none

/-- The method with a given descriptor. -/
def MethodDescriptor.ofDescriptor? (s : String) : Option MethodDescriptor :=
  match s.toList with
  | '(' :: cs =>
      (readTypes? cs).bind fun r => (readResult? r.2).map fun result => ⟨r.1, result⟩
  | _ => none

end ClassFile
