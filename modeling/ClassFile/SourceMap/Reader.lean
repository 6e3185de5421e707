/-
**Reading source maps.**

The text of a source map is cut into lines and read line by line.  The reader is strict: numbers
have no leading zeros and fit their range, files are numbered from one in order, and nothing is
left out or added.  A section begins with a line that opens with a star, which neither the entry of
a file nor a line mapping does; so a stray marker is never taken for something else, though a path
or the content of a vendor may look like one.

Main definitions:

* `readNat?`, `readNumber?`, `readMapping?` — numbers and line mappings;
* `readFiles?`, `readMappings?`, `readStratum?`, `readStrata?`, `readVendor?` — the sections;
* `SourceMap.ofText?` — the source map that a text is.
-/

import ClassFile.SourceMap

set_option relaxedAutoImplicit false
set_option autoImplicit false

namespace ClassFile

/-- A line of a text. -/
abbrev Line : Type :=
  List Char

/-! ### Numbers -/

/-- The number that a line begins with, in its only decimal form, and the rest of the line. -/
def readNat? (l : Line) : Option (Nat × Line) :=
  let digits := l.takeWhile Char.isDigit
  if digits = [] ∨ (digits.head? = some '0' ∧ digits ≠ ['0']) then none
  else some (Nat.ofDigitChars 10 digits 0, l.dropWhile Char.isDigit)

/-- The same for a number of 32 bits. -/
def readNumber? (l : Line) : Option (UInt32 × Line) :=
  (readNat? l).bind fun r =>
    if r.1 < UInt32.size then some (UInt32.ofNat r.1, r.2) else none

/-- A number after a mark, if the mark is there. -/
def readMarked? (mark : Char) (l : Line) : Option (Option UInt32 × Line) :=
  match [mark].isPrefixOf? l with
  | none => some (none, l)
  | some rest => (readNumber? rest).map fun r => (some r.1, r.2)

/-- The line mapping that a line is. -/
def readMapping? (l : Line) : Option LineMapping := do
  let (input, l) ← readNumber? l
  let (file, l) ← readMarked? '#' l
  let (repeats, l) ← readMarked? ',' l
  let l ← [':'].isPrefixOf? l
  let (output, l) ← readNumber? l
  let (increment, l) ← readMarked? ',' l
  if l = [] then some { input, file, repeats, output, increment } else none

/-! ### Files and mappings -/

/-- The name after a given number and a blank. -/
def readNumbered? (number : Nat) (l : Line) : Option Line :=
  (readNat? l).bind fun r => if r.1 = number then [' '].isPrefixOf? r.2 else none

/-- The files numbered in order from the given number on, up to the line that opens the mappings,
and what follows it. -/
def readFiles? (number : Nat) : List Line → Option (List SourceFile × List Line)
  | [] => none
  | l :: ls =>
      if l = ['*', 'L'] then some ([], ls)
      else
        match ['+', ' '].isPrefixOf? l, ls with
        | some entry, path :: ls =>
            (readNumbered? number entry).bind fun name =>
              (readFiles? (number + 1) ls).map fun r =>
                (⟨String.ofList name, some (String.ofList path)⟩ :: r.1, r.2)
        | some _, [] => none
        | none, ls =>
            (readNumbered? number l).bind fun name =>
              (readFiles? (number + 1) ls).map fun r => (⟨String.ofList name, none⟩ :: r.1, r.2)

/-- The line mappings up to the next line that opens with a star. -/
def readMappings? : List Line → Option (List LineMapping × List Line)
  | [] => none
  | l :: ls =>
      if l.head? = some '*' then some ([], l :: ls)
      else
        (readMapping? l).bind fun m => (readMappings? ls).map fun r => (m :: r.1, r.2)

/-- The stratum with the given name, after the line that names it. -/
def readStratum? (name : Line) : List Line → Option (Stratum × List Line)
  | [] => none
  | l :: ls =>
      if l = ['*', 'F'] then
        (readFiles? 1 ls).bind fun files =>
          (readMappings? files.2).map fun mappings =>
            (⟨String.ofList name, files.1, mappings.1⟩, mappings.2)
      else none

theorem length_readFiles? {ls rest : List Line} {number : Nat} {files : List SourceFile}
    (h : readFiles? number ls = some (files, rest)) : rest.length < ls.length := by
  fun_induction readFiles? number ls generalizing files with
  | case1 => cases h
  | case2 => cases h; simp
  | case3 number l hl entry path ls he ih =>
      obtain ⟨name, -, h⟩ := Option.bind_eq_some_iff.mp h
      obtain ⟨r, hr, he⟩ := Option.map_eq_some_iff.mp h
      cases he
      have := ih hr
      simp only [List.length_cons]
      omega
  | case4 => cases h
  | case5 number l hl ls he ih =>
      obtain ⟨name, -, h⟩ := Option.bind_eq_some_iff.mp h
      obtain ⟨r, hr, he⟩ := Option.map_eq_some_iff.mp h
      cases he
      exact Nat.lt_succ_of_lt (ih hr)

theorem length_readMappings? {ls rest : List Line} {mappings : List LineMapping}
    (h : readMappings? ls = some (mappings, rest)) : rest.length ≤ ls.length := by
  induction ls generalizing mappings with
  | nil => cases h
  | cons l ls ih =>
      simp only [readMappings?] at h
      split at h
      · cases h
        exact Nat.le_refl _
      · obtain ⟨m, -, h⟩ := Option.bind_eq_some_iff.mp h
        obtain ⟨r, hr, he⟩ := Option.map_eq_some_iff.mp h
        cases he
        exact Nat.le_succ_of_le (ih hr)

theorem length_readStratum? {name : Line} {ls rest : List Line} {stratum : Stratum}
    (h : readStratum? name ls = some (stratum, rest)) : rest.length < ls.length := by
  cases ls with
  | nil => cases h
  | cons l ls =>
      simp only [readStratum?] at h
      split at h
      · obtain ⟨files, hf, h⟩ := Option.bind_eq_some_iff.mp h
        obtain ⟨mappings, hm, he⟩ := Option.map_eq_some_iff.mp h
        cases he
        have h₁ := length_readFiles? hf
        have h₂ := length_readMappings? hm
        simp only [List.length_cons]
        omega
      · cases h

/-! ### The whole text -/

/-- The strata at the front of some lines, and the lines after them. -/
def readStrata? (ls : List Line) : Option (List Stratum × List Line) :=
  match ls with
  | [] => some ([], [])
  | l :: ls =>
      match ['*', 'S', ' '].isPrefixOf? l with
      | none => some ([], l :: ls)
      | some name =>
          match h : readStratum? name ls with
          | none => none
          | some (stratum, rest) =>
              have := length_readStratum? h
              (readStrata? rest).map fun r => (stratum :: r.1, r.2)
termination_by ls.length

/-- The section of a vendor, if there is one, and the closing mark.  The content of a vendor is at
least one line, and goes on up to the last line. -/
def readVendor? : List Line → Option (Option Vendor)
  | [['*', 'E']] => some none
  | ['*', 'V'] :: id :: ls =>
      if ls.getLast? = some ['*', 'E'] ∧ ls.dropLast ≠ [] then
        some (some ⟨String.ofList id, String.ofList (['\n'].intercalate ls.dropLast)⟩)
      else none
  | _ => none

/-- The source map that a text is. -/
def SourceMap.ofText? (s : String) : Option SourceMap :=
  match s.toList.splitOn '\n' with
  | ['S', 'M', 'A', 'P'] :: file :: defaultStratum :: ls => do
      let sourceFile ← ".java".toList.isSuffixOf? file
      let (strata, ls) ← readStrata? ls
      let vendor ← readVendor? ls
      return ⟨String.ofList sourceFile, String.ofList defaultStratum, strata, vendor⟩
  | _ => none

end ClassFile
