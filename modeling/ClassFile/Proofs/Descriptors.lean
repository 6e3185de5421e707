/-
**Descriptors can be read back.**

The descriptor of a type tells where it ends: by its letter, by a semicolon, or by that of the
elements of an array.  So descriptors may follow each other without a mark between them, and a
method can be told from the descriptor of its parameters and its result.  The one thing that would
spoil this is a semicolon in the name of a class.  Reading is the exact inverse of writing: it
accepts what writing produces, and nothing else.

Main definitions:

* `FieldType.classNames`, `Legible` — the class names in a type, and types whose class names have no
  semicolon;
* `MethodDescriptor.types` — the types of the parameters and of the result.

Main results:

* `FieldType.array_induction` — every type is made from those that are no arrays by `array`;
* `readType?_eq_some_iff`, `readTypes?_eq_some_iff`, `readResult?_eq_some_iff` — what is read at the
  front of a text is what was written there;
* `FieldType.ofDescriptor?_eq_some_iff`, `MethodDescriptor.ofDescriptor?_eq_some_iff` — **a text is
  the descriptor of the type or the method that is read from it**;
* `descriptor_inj` — hence a method can be told from its descriptor;
* `descriptor_repeat_array` — many dimensions, one by one or all at once;
* `methodDescriptor_roundTrip` — all of this for methods.
-/

import ClassFile.Descriptor.Reader
import ClassFile.Tree.Lookup

set_option relaxedAutoImplicit false
set_option autoImplicit false

namespace ClassFile

/-! ### Names -/

/-- The class names in a type. -/
def FieldType.classNames : FieldType → List BinaryName
  | .base _ => []
  | .object n => [n]
  | .objectArray a => [a.elementType]
  | .baseArray _ => []

/-- No class name in the types has a semicolon. -/
def Legible (ts : List FieldType) : Prop :=
  ∀ t ∈ ts, ∀ n ∈ t.classNames, ';' ∉ n.text.toList

instance (ts : List FieldType) : Decidable (Legible ts) :=
  inferInstanceAs (Decidable (∀ t ∈ ts, ∀ n ∈ t.classNames, ';' ∉ n.text.toList))

theorem legible_nil : Legible [] := by
  simp [Legible]

theorem legible_cons {t : FieldType} {ts : List FieldType} :
    Legible (t :: ts) ↔ Legible [t] ∧ Legible ts := by
  simp [Legible]

theorem legible_append {ts ts' : List FieldType} :
    Legible (ts ++ ts') ↔ Legible ts ∧ Legible ts' := by
  simp [Legible, or_imp, forall_and]

theorem legible_base (t : BaseType) : Legible [.base t] := by
  simp [Legible, FieldType.classNames]

theorem legible_object {n : BinaryName} : Legible [.object n] ↔ ';' ∉ n.text.toList := by
  simp [Legible, FieldType.classNames]

/-- An array has the class names of its elements. -/
theorem FieldType.classNames_array (t : FieldType) : t.array.classNames = t.classNames := by
  cases t <;> rfl

theorem legible_array {t : FieldType} : Legible [t.array] ↔ Legible [t] := by
  simp [Legible, FieldType.classNames_array]

/-- A name is read up to the first semicolon. -/
theorem readName?_append {name : List Char} (hname : ';' ∉ name) (rest : List Char) :
    readName? (name ++ ';' :: rest) = some (name, rest) := by
  induction name with
  | nil => simp [readName?]
  | cons c name ih =>
      obtain ⟨hc, hname⟩ := not_or.1 (mt List.mem_cons.2 hname)
      rw [List.cons_append, readName?, if_neg (Ne.symm hc), ih hname]
      rfl

theorem eq_append_of_readName? {cs name rest : List Char}
    (h : readName? cs = some (name, rest)) : ';' ∉ name ∧ cs = name ++ ';' :: rest := by
  induction cs generalizing name with
  | nil => cases h
  | cons c cs ih =>
      rw [readName?] at h
      by_cases hc : c = ';'
      · rw [if_pos hc] at h
        cases h
        exact ⟨List.not_mem_nil, by rw [hc, List.nil_append]⟩
      · rw [if_neg hc] at h
        obtain ⟨⟨name', rest'⟩, hr, he⟩ := Option.map_eq_some_iff.1 h
        cases he
        obtain ⟨hname, rfl⟩ := ih hr
        exact ⟨by simp [hname, Ne.symm hc], rfl⟩

/-! ### Types -/

/-- Every type is made from the primitive types and the classes by making arrays. -/
@[elab_as_elim]
theorem FieldType.array_induction {motive : FieldType → Prop} (base : ∀ t, motive (.base t))
    (object : ∀ n, motive (.object n)) (array : ∀ t, motive t → motive t.array) (t : FieldType) :
    motive t := by
  cases t with
  | base t => exact base t
  | object n => exact object n
  | objectArray a =>
      obtain ⟨dimensions, n⟩ := a
      induction dimensions with
      | zero => exact array _ (object n)
      | succ dimensions ih => exact array _ ih
  | baseArray a =>
      obtain ⟨dimensions, t⟩ := a
      induction dimensions with
      | zero => exact array _ (base t)
      | succ dimensions ih => exact array _ ih

/-- What is written is read back, whatever follows. -/
theorem readType?_chars_append {t : FieldType} (ht : Legible [t]) (rest : List Char) :
    readType? (t.chars ++ rest) = some (t, rest) := by
  induction t using FieldType.array_induction with
  | base t => cases t <;> rfl
  | object n =>
      have hname := readName?_append (legible_object.1 ht) rest
      simp [FieldType.chars, HasDescriptor.chars, readType?, hname]
  | array t ih =>
      rw [FieldType.chars_array, List.cons_append, readType?, if_pos rfl, ih (legible_array.1 ht)]
      rfl

/-- What is read was written. -/
theorem eq_chars_append_of_readType? {cs rest : List Char} {t : FieldType}
    (h : readType? cs = some (t, rest)) : Legible [t] ∧ cs = t.chars ++ rest := by
  induction cs generalizing t with
  | nil => cases h
  | cons c cs ih =>
      rw [readType?] at h
      by_cases harray : c = '['
      · rw [if_pos harray] at h
        obtain ⟨⟨t', rest'⟩, hr, he⟩ := Option.map_eq_some_iff.1 h
        cases he
        obtain ⟨ht, rfl⟩ := ih hr
        exact ⟨legible_array.2 ht, by rw [FieldType.chars_array, harray, List.cons_append]⟩
      rw [if_neg harray] at h
      by_cases hobject : c = 'L'
      · rw [if_pos hobject] at h
        obtain ⟨⟨name, rest'⟩, hr, he⟩ := Option.map_eq_some_iff.1 h
        cases he
        obtain ⟨hname, rfl⟩ := eq_append_of_readName? hr
        refine ⟨legible_object.2 (by simpa using hname), ?_⟩
        simp [FieldType.chars, HasDescriptor.chars, hobject]
      · rw [if_neg hobject] at h
        obtain ⟨t', ht, he⟩ := Option.map_eq_some_iff.1 h
        cases he
        obtain rfl := BaseType.ofLetter?_eq_some_iff.1 ht
        exact ⟨legible_base t', rfl⟩

/-- **The type at the front of a text** is the one that was written there. -/
theorem readType?_eq_some_iff {cs rest : List Char} {t : FieldType} :
    readType? cs = some (t, rest) ↔ Legible [t] ∧ cs = t.chars ++ rest := by
  refine ⟨eq_chars_append_of_readType?, ?_⟩
  rintro ⟨ht, rfl⟩
  exact readType?_chars_append ht rest

/-- **A text is the descriptor of the field type that is read from it.** -/
theorem FieldType.ofDescriptor?_eq_some_iff {s : String} {t : FieldType} :
    FieldType.ofDescriptor? s = some t ↔ Legible [t] ∧ descriptor t = s := by
  have htoList : (descriptor t).toList = t.chars ++ [] := by
    rw [List.append_nil]
    exact String.toList_ofList
  rw [← String.toList_inj, htoList, eq_comm (a := t.chars ++ []), ← readType?_eq_some_iff]
  unfold ofDescriptor?
  split
  · next t' hread => simp [hread]
  · next hnone =>
      simp only [reduceCtorEq, false_iff]
      exact fun hread => hnone t hread

/-! ### Methods -/

/-- A closing parenthesis ends the parameters. -/
theorem readTypes?_close (rest : List Char) : readTypes? (')' :: rest) = some ([], rest) := by
  rw [readTypes?]

/-- A type is one parameter, and what follows it are the others. -/
theorem readTypes?_of_readType? {cs rest : List Char} {t : FieldType}
    (h : readType? cs = some (t, rest)) :
    readTypes? cs = (readTypes? rest).map fun r => (t :: r.1, r.2) := by
  have hopen : ∀ rest', cs = ')' :: rest' → False := by
    rintro rest' rfl
    cases h
  rw [readTypes?]
  · split
    · next hnone =>
        rw [h] at hnone
        cases hnone
    · next t' rest' hsome =>
        rw [h] at hsome
        cases hsome
        rfl
  · exact hopen

theorem readTypes?_flatMap_append {ts : List FieldType} (hts : Legible ts) (rest : List Char) :
    readTypes? (ts.flatMap FieldType.chars ++ ')' :: rest) = some (ts, rest) := by
  induction ts with
  | nil => exact readTypes?_close rest
  | cons t ts ih =>
      obtain ⟨ht, hts⟩ := legible_cons.1 hts
      have hread := readType?_chars_append ht (ts.flatMap FieldType.chars ++ ')' :: rest)
      rw [List.flatMap_cons, List.append_assoc, readTypes?_of_readType? hread, ih hts]
      rfl

theorem eq_flatMap_append_of_readTypes? {cs rest : List Char} {ts : List FieldType}
    (h : readTypes? cs = some (ts, rest)) :
    Legible ts ∧ cs = ts.flatMap FieldType.chars ++ ')' :: rest := by
  fun_induction readTypes? cs generalizing ts with
  | case1 rest' =>
      cases h
      exact ⟨legible_nil, rfl⟩
  | case2 cs hcs hread => cases h
  | case3 cs hcs t rest' hread _ ih =>
      obtain ⟨⟨ts', rest''⟩, hr, he⟩ := Option.map_eq_some_iff.1 h
      cases he
      obtain ⟨ht, rfl⟩ := eq_chars_append_of_readType? hread
      obtain ⟨hts, rfl⟩ := ih hr
      exact ⟨legible_cons.2 ⟨ht, hts⟩, by rw [List.flatMap_cons, List.append_assoc]⟩

/-- **The parameters at the front of a text** are those that were written there. -/
theorem readTypes?_eq_some_iff {cs rest : List Char} {ts : List FieldType} :
    readTypes? cs = some (ts, rest) ↔
      Legible ts ∧ cs = ts.flatMap FieldType.chars ++ ')' :: rest := by
  refine ⟨eq_flatMap_append_of_readTypes?, ?_⟩
  rintro ⟨hts, rfl⟩
  exact readTypes?_flatMap_append hts rest

theorem readResult?_chars {t : FieldType} (ht : Legible [t]) :
    readResult? t.chars = some (some t) := by
  have hread := readType?_chars_append ht []
  rw [List.append_nil] at hread
  have hvoid : t.chars = ['V'] → False := by
    intro hv
    -- no type begins with the letter that stands for no result
    rw [hv] at hread
    cases hread
  rw [readResult?]
  · rw [hread]
  · exact hvoid

/-- **A text is a result** just if that was written. -/
theorem readResult?_eq_some_iff {cs : List Char} {result : Option FieldType} :
    readResult? cs = some result ↔ Legible result.toList ∧ cs = resultChars result := by
  constructor
  · intro h
    unfold readResult? at h
    split at h
    · cases h
      exact ⟨legible_nil, rfl⟩
    · split at h
      · next t hread =>
          cases h
          obtain ⟨ht, hcs⟩ := eq_chars_append_of_readType? hread
          rw [List.append_nil] at hcs
          exact ⟨ht, hcs⟩
      · cases h
  · rintro ⟨hresult, rfl⟩
    cases result with
    | none => rfl
    | some t => exact readResult?_chars hresult

/-- The types of the parameters of a method, and of its result if it has one. -/
def MethodDescriptor.types (m : MethodDescriptor) : List FieldType :=
  m.parameters ++ m.returnType.toList

theorem MethodDescriptor.toList_descriptor (m : MethodDescriptor) :
    (descriptor m).toList =
      '(' :: (m.parameters.flatMap FieldType.chars ++ ')' :: resultChars m.returnType) :=
  String.toList_ofList

/-- **A text is the descriptor of the method that is read from it**, and descriptors of methods
whose class names have no semicolon are read. -/
theorem MethodDescriptor.ofDescriptor?_eq_some_iff {s : String} {m : MethodDescriptor} :
    MethodDescriptor.ofDescriptor? s = some m ↔ Legible m.types ∧ descriptor m = s := by
  constructor
  · intro h
    unfold ofDescriptor? at h
    split at h
    · next cs hs =>
        obtain ⟨⟨ts, rest⟩, hreadTypes, h⟩ := Option.bind_eq_some_iff.1 h
        obtain ⟨result, hreadResult, he⟩ := Option.map_eq_some_iff.1 h
        cases he
        obtain ⟨hts, rfl⟩ := readTypes?_eq_some_iff.1 hreadTypes
        obtain ⟨hresult, rfl⟩ := readResult?_eq_some_iff.1 hreadResult
        refine ⟨legible_append.2 ⟨hts, hresult⟩, ?_⟩
        rw [← String.toList_inj, toList_descriptor, hs]
    · cases h
  · rintro ⟨hm, rfl⟩
    obtain ⟨hts, hresult⟩ := legible_append.1 hm
    have hreadTypes := readTypes?_flatMap_append hts (resultChars m.returnType)
    have hreadResult := readResult?_eq_some_iff.2 ⟨hresult, rfl⟩
    rw [ofDescriptor?, toList_descriptor]
    simp only [hreadTypes, Option.bind_some, hreadResult, Option.map_some]

/-- Methods with the same descriptor are the same, as far as descriptors go. -/
theorem descriptor_inj {m m' : MethodDescriptor} (hm : Legible m.types) (hm' : Legible m'.types) :
    descriptor m = descriptor m' ↔ m = m' := by
  constructor
  · intro h
    have hread := MethodDescriptor.ofDescriptor?_eq_some_iff.2 ⟨hm, rfl⟩
    have hread' := MethodDescriptor.ofDescriptor?_eq_some_iff.2 ⟨hm', h.symm⟩
    exact Option.some.inj (hread.symm.trans hread')
  · rintro rfl
    rfl

/-! ### Dimensions -/

/-- **Dimensions may be added one by one or all at once**: an array of arrays, down to elements of
some type, is written as that many brackets and the type. -/
theorem descriptor_repeat_array (n : Nat) (t : FieldType) :
    descriptor (Nat.repeat FieldType.array (n + 1) t) = descriptor (ArrayType.mk n t) := by
  have hchars : ∀ k, (Nat.repeat FieldType.array k t).chars = List.replicate k '[' ++ t.chars := by
    intro k
    induction k with
    | zero => rfl
    | succ k ih =>
        rw [Nat.repeat, FieldType.chars_array, ih, List.replicate_succ, List.cons_append]
  exact congrArg String.ofList (hchars (n + 1))

/-! ### The round trip -/

/-- **Descriptors can be read back.**  What is read from a text is just what is written as this
text; hence methods have the same descriptor if their parameters have the same types, whatever
their names, and the results too.  An array has the same descriptor as elements of its type wrapped
in an array of their own. -/
theorem methodDescriptor_roundTrip :
    (∀ m : MethodDescriptor, Legible m.types →
        MethodDescriptor.ofDescriptor? (descriptor m) = some m) ∧
      (∀ (s : String) (m : MethodDescriptor), MethodDescriptor.ofDescriptor? s = some m →
        Legible m.types ∧ descriptor m = s) ∧
      (∀ (h h' : MethodHeader) (as as' : List Component), Legible h.descriptor.types →
        Legible h'.descriptor.types →
        ((Node.method h as).descriptor? = (Node.method h' as').descriptor? ↔
          h.parameters.map Prod.fst = h'.parameters.map Prod.fst ∧
            h.returnType = h'.returnType)) ∧
      ∀ (n : Nat) (t : FieldType),
        descriptor (Nat.repeat FieldType.array (n + 1) t) = descriptor (ArrayType.mk n t) := by
  refine ⟨fun m hm => ?_, fun s m h => ?_, fun h h' as as' hh hh' => ?_, descriptor_repeat_array⟩
  · exact MethodDescriptor.ofDescriptor?_eq_some_iff.2 ⟨hm, rfl⟩
  · exact MethodDescriptor.ofDescriptor?_eq_some_iff.1 h
  · rw [Node.descriptor?, Node.descriptor?, Option.some.injEq, descriptor_inj hh hh',
      MethodDescriptor.mk.injEq]
    exact Iff.rfl

/-- A method of two parameters, the first of them an array of arrays of classes.  The same types
with other names have the same descriptor; with one dimension less, they have another. -/
theorem methodDescriptor_roundTrip_arrays :
    let strings := FieldType.object ⟨"java/lang/String"⟩
    let m : MethodHeader := ⟨"run", none, [(strings.array.array, "a"), (.base .int, "b")], .empty⟩
    let renamed : MethodHeader :=
      ⟨"walk", none, [(.objectArray ⟨1, ⟨"java/lang/String"⟩⟩, "x"), (.base .int, "y")], .empty⟩
    let flatter : MethodHeader := ⟨"run", none, [(strings.array, "a"), (.base .int, "b")], .empty⟩
    (Legible m.descriptor.types ∧ Legible renamed.descriptor.types ∧
        Legible flatter.descriptor.types) ∧
      descriptor m.descriptor = "([[Ljava/lang/String;I)V" ∧
      MethodDescriptor.ofDescriptor? "([[Ljava/lang/String;I)V" = some m.descriptor ∧
      (Node.method m []).descriptor? = (Node.method renamed []).descriptor? ∧
      (Node.method m []).descriptor? ≠ (Node.method flatter []).descriptor? := by
  intro strings m renamed flatter
  have hm : Legible m.descriptor.types := by decide
  have hrenamed : Legible renamed.descriptor.types := by decide
  have hflatter : Legible flatter.descriptor.types := by decide
  obtain ⟨hread, -, hmethods, -⟩ := methodDescriptor_roundTrip
  refine ⟨⟨hm, hrenamed, hflatter⟩, rfl, hread m.descriptor hm, ?_, ?_⟩
  · exact (hmethods m renamed [] [] hm hrenamed).2 ⟨rfl, rfl⟩
  · exact mt (hmethods m flatter [] [] hm hflatter).1 (by decide)

end ClassFile
