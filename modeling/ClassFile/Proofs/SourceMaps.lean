/-
**Source maps can be read back.**

The text of a source map is a sequence of lines, and each of its strings but the content of a vendor
keeps to a line of its own, as long as there is no line break in it.  What a line is for can be told
from where it stands and how it opens: sections open with a star, where entries of files and line
mappings open with a digit or a plus sign, and a path is known to come after an entry that announces
it.  So a string may look like anything; the text of a source map is read back, and no other text is
read.

Main definitions:

* `SourceMap.strings`, `SourceMap.OneLined` — the strings that keep to a line, and source maps
  without a line break in any of them;
* `SourceFile.listingLines`, `Stratum.sectionLines`, `closingLines`, `SourceMap.allLines` — the
  lines of the text, where the content of a vendor counts with all its lines;
* `OpensSection` — lines of which the first opens a section.

Main results:

* `SourceMap.intercalate_allLines` — the text of a source map is its lines joined;
* `readFiles?_append`, `readMappings?_append`, `readStrata?_append`, `readVendor?_closingLines` —
  **each section is read back**, up to the line that opens the next one;
* `eq_append_of_readFiles?` and so on — what is read as a section is the section written;
* `SourceMap.ofText?_eq_some_iff`, `sourceMap_roundTrip` — **a text is the source map that is read
  from it**.
-/

import ClassFile.Proofs.Numerals

set_option relaxedAutoImplicit false
set_option autoImplicit false

namespace ClassFile

/-! ### Lines -/

/-- There is no line break in a line of a text. -/
theorem newline_not_mem_of_mem_splitOn {cs : List Char} {l : Line} (hl : l ∈ cs.splitOn '\n') :
    '\n' ∉ l := by
  induction cs generalizing l with
  | nil =>
      obtain rfl := List.mem_singleton.1 hl
      exact List.not_mem_nil
  | cons c cs ih =>
      rw [List.splitOn_cons_eq_if_modifyHead] at hl
      by_cases hc : c = '\n'
      · rw [if_pos (beq_iff_eq.2 hc)] at hl
        rcases List.mem_cons.1 hl with rfl | hl
        · exact List.not_mem_nil
        · exact ih hl
      · rw [if_neg (mt beq_iff_eq.1 hc)] at hl
        obtain ⟨l', ls, hls⟩ := List.exists_cons_of_ne_nil (List.splitOn_ne_nil '\n' cs)
        rw [hls] at hl ih
        rcases List.mem_cons.1 hl with rfl | hl
        · exact mt (fun h => (List.mem_cons.1 h).resolve_left (Ne.symm hc)) (ih List.mem_cons_self)
        · exact ih (List.mem_cons_of_mem l' hl)

theorem intercalate_newline_append {ls ls' : List Line} (hls : ls ≠ []) (hls' : ls' ≠ []) :
    ['\n'].intercalate (ls ++ ls') =
      ['\n'].intercalate ls ++ '\n' :: ['\n'].intercalate ls' := by
  induction ls with
  | nil => exact absurd rfl hls
  | cons l ls ih =>
      rw [List.cons_append, List.intercalate_cons_of_ne_nil (by simp [hls'])]
      by_cases h : ls = []
      · simp [h]
      · rw [ih h, List.intercalate_cons_of_ne_nil h]
        simp

/-! ### Files -/

theorem readNumbered?_eq_some_iff {number : Nat} {l name : Line} :
    readNumbered? number l = some name ↔ l = Nat.toDigits 10 number ++ ' ' :: name := by
  constructor
  · intro h
    obtain ⟨⟨number', rest⟩, hread, h⟩ := Option.bind_eq_some_iff.1 h
    split at h
    · next hnumber =>
        obtain rfl := List.isPrefixOf?_eq_some_iff_append_eq.1 h
        obtain rfl : number' = number := hnumber
        exact eq_append_of_readNat? hread
    · cases h
  · rintro rfl
    have hread := readNat?_append number (stops_cons ' ' name) (by simp)
    have hblank : [' '].isPrefixOf? (' ' :: name) = some name :=
      List.isPrefixOf?_eq_some_iff_append_eq.2 rfl
    rw [readNumbered?, hread, Option.bind_some, if_pos rfl, hblank]

/-- The entry of a file, or the first line of it, after the plus sign if there is one. -/
def SourceFile.entry (number : Nat) (f : SourceFile) : Line :=
  Nat.toDigits 10 number ++ ' ' :: f.name.toList

/-- The lines of the entry of a file. -/
def SourceFile.entryLines (number : Nat) (f : SourceFile) : List Line :=
  match f.path with
  | none => [f.entry number]
  | some path => [['+', ' '] ++ f.entry number, path.toList]

theorem SourceFile.map_toList_textLines (number : Nat) (f : SourceFile) :
    (f.textLines number).map String.toList = f.entryLines number := by
  cases h : f.path <;> simp [textLines, entryLines, entry, h]

/-- The lines of files that are numbered in order from the given number on. -/
def SourceFile.listingLines (number : Nat) : List SourceFile → List Line
  | [] => []
  | f :: fs => f.entryLines number ++ SourceFile.listingLines (number + 1) fs

theorem SourceFile.map_toList_listing (number : Nat) (fs : List SourceFile) :
    (SourceFile.listing number fs).map String.toList = SourceFile.listingLines number fs := by
  induction fs generalizing number with
  | nil => rfl
  | cons f fs ih =>
      rw [listing, listingLines, List.map_append, map_toList_textLines, ih]

/-- An entry opens with a digit, so neither with a star nor with a plus sign. -/
theorem SourceFile.entry_ne (number : Nat) (f : SourceFile) {c : Char} (hc : c.isDigit = false)
    (l : Line) : f.entry number ≠ c :: l := by
  intro h
  have hhead : c ∈ (f.entry number).head? := by
    rw [h]
    rfl
  have hdigit : c.isDigit = true := isDigit_of_mem_head? hhead
  rw [hc] at hdigit
  cases hdigit

/-- **Files are read back**, up to the line that opens the mappings. -/
theorem readFiles?_append (number : Nat) (fs : List SourceFile) (rest : List Line) :
    readFiles? number (SourceFile.listingLines number fs ++ ['*', 'L'] :: rest) =
      some (fs, rest) := by
  induction fs generalizing number with
  | nil => rfl
  | cons f fs ih =>
      obtain ⟨name, path⟩ := f
      have hname : readNumbered? number (SourceFile.entry number ⟨name, path⟩) =
          some name.toList := readNumbered?_eq_some_iff.2 rfl
      cases path with
      | none =>
          have hstar : SourceFile.entry number ⟨name, none⟩ ≠ ['*', 'L'] :=
            SourceFile.entry_ne number _ (by decide) _
          have hplus : ['+', ' '].isPrefixOf? (SourceFile.entry number ⟨name, none⟩) = none := by
            rw [Option.eq_none_iff_forall_ne_some]
            intro l h
            have happend := List.isPrefixOf?_eq_some_iff_append_eq.1 h
            exact SourceFile.entry_ne number _ (by decide) _ happend.symm
          rw [SourceFile.listingLines, SourceFile.entryLines, List.append_assoc,
            List.singleton_append, readFiles?, if_neg hstar]
          · simp only [hname, ih, Option.bind_some, Option.map_some, String.ofList_toList]
          · exact hplus
      | some path =>
          have hplus : ['+', ' '].isPrefixOf?
              (['+', ' '] ++ SourceFile.entry number ⟨name, some path⟩) =
                some (SourceFile.entry number ⟨name, some path⟩) :=
            List.isPrefixOf?_eq_some_iff_append_eq.2 rfl
          rw [SourceFile.listingLines, SourceFile.entryLines, List.append_assoc, List.cons_append,
            List.singleton_append]
          unfold readFiles?
          rw [if_neg (by simp)]
          simp only [hplus, hname, ih, Option.bind_some, Option.map_some, String.ofList_toList]

/-- What is read as files is the entries of these files. -/
theorem eq_append_of_readFiles? {number : Nat} {ls rest : List Line} {fs : List SourceFile}
    (h : readFiles? number ls = some (fs, rest)) :
    ls = SourceFile.listingLines number fs ++ ['*', 'L'] :: rest := by
  fun_induction readFiles? number ls generalizing fs with
  | case1 => cases h
  | case2 =>
      cases h
      rfl
  | case3 number l hl entry path ls hopening ih =>
      obtain ⟨name, hname, h⟩ := Option.bind_eq_some_iff.1 h
      obtain ⟨r, hr, he⟩ := Option.map_eq_some_iff.1 h
      cases he
      rw [← List.isPrefixOf?_eq_some_iff_append_eq.1 hopening,
        readNumbered?_eq_some_iff.1 hname, ih hr]
      simp [SourceFile.listingLines, SourceFile.entryLines, SourceFile.entry]
  | case4 => cases h
  | case5 number l hl ls hopening ih =>
      obtain ⟨name, hname, h⟩ := Option.bind_eq_some_iff.1 h
      obtain ⟨r, hr, he⟩ := Option.map_eq_some_iff.1 h
      cases he
      rw [readNumbered?_eq_some_iff.1 hname, ih hr]
      simp [SourceFile.listingLines, SourceFile.entryLines, SourceFile.entry]

/-! ### Line mappings -/

/-- The first line opens a section: it begins with a star. -/
def OpensSection (ls : List Line) : Prop :=
  ∃ l rest, ls = ('*' :: l) :: rest

theorem LineMapping.head?_text (m : LineMapping) : m.text.toList.head? ≠ some '*' := by
  intro h
  rw [toList_text] at h
  exact absurd (isDigit_of_mem_head? h) (by decide)

/-- **Line mappings are read back**, up to the next section. -/
theorem readMappings?_append (ms : List LineMapping) {rest : List Line}
    (hrest : OpensSection rest) :
    readMappings? (ms.map (fun m => m.text.toList) ++ rest) = some (ms, rest) := by
  induction ms with
  | nil =>
      obtain ⟨l, rest, rfl⟩ := hrest
      rfl
  | cons m ms ih =>
      rw [List.map_cons, List.cons_append, readMappings?, if_neg m.head?_text,
        readMapping?_toList_text, Option.bind_some, ih]
      rfl

/-- What is read as line mappings is these line mappings. -/
theorem eq_append_of_readMappings? {ls rest : List Line} {ms : List LineMapping}
    (h : readMappings? ls = some (ms, rest)) :
    ls = ms.map (fun m => m.text.toList) ++ rest := by
  induction ls generalizing ms with
  | nil => cases h
  | cons l ls ih =>
      rw [readMappings?] at h
      split at h
      · cases h
        rfl
      · obtain ⟨m, hm, h⟩ := Option.bind_eq_some_iff.1 h
        obtain ⟨r, hr, he⟩ := Option.map_eq_some_iff.1 h
        cases he
        rw [readMapping?_eq_some_iff.1 hm, ih hr]
        rfl

/-! ### Strata -/

/-- The lines of the section of a stratum after the one that names it. -/
def Stratum.bodyLines (s : Stratum) : List Line :=
  ['*', 'F'] :: (SourceFile.listingLines 1 s.files ++
    ['*', 'L'] :: s.lines.map fun m => m.text.toList)

/-- The lines of the section of a stratum. -/
def Stratum.sectionLines (s : Stratum) : List Line :=
  (['*', 'S', ' '] ++ s.name.toList) :: s.bodyLines

theorem Stratum.map_toList_textLines (s : Stratum) :
    s.textLines.map String.toList = s.sectionLines := by
  simp [textLines, sectionLines, bodyLines, SourceFile.map_toList_listing]

theorem readStratum?_append (s : Stratum) {rest : List Line} (hrest : OpensSection rest) :
    readStratum? s.name.toList (s.bodyLines ++ rest) = some (s, rest) := by
  have hmappings := readMappings?_append s.lines hrest
  have hfiles := readFiles?_append 1 s.files (s.lines.map (fun m => m.text.toList) ++ rest)
  rw [Stratum.bodyLines, List.cons_append, List.append_assoc, List.cons_append, readStratum?,
    if_pos rfl, hfiles]
  simp only [Option.bind_some, hmappings, Option.map_some, String.ofList_toList]

theorem eq_append_of_readStratum? {name : Line} {ls rest : List Line} {s : Stratum}
    (h : readStratum? name ls = some (s, rest)) :
    s.name = String.ofList name ∧ ls = s.bodyLines ++ rest := by
  cases ls with
  | nil => cases h
  | cons l ls =>
      rw [readStratum?] at h
      split at h
      · next hl =>
          obtain ⟨files, hfiles, h⟩ := Option.bind_eq_some_iff.1 h
          obtain ⟨mappings, hmappings, he⟩ := Option.map_eq_some_iff.1 h
          cases he
          refine ⟨rfl, ?_⟩
          rw [hl, eq_append_of_readFiles? hfiles, eq_append_of_readMappings? hmappings]
          simp [Stratum.bodyLines]
      · cases h

/-- Strata end where a line opens no stratum. -/
theorem readStrata?_of_isPrefixOf? {l : Line} (h : ['*', 'S', ' '].isPrefixOf? l = none)
    (ls : List Line) : readStrata? (l :: ls) = some ([], l :: ls) := by
  rw [readStrata?]
  simp only [h]

/-- A line that names a stratum opens its section. -/
theorem readStrata?_of_readStratum? {name : Line} {ls rest : List Line} {s : Stratum}
    (h : readStratum? name ls = some (s, rest)) :
    readStrata? ((['*', 'S', ' '] ++ name) :: ls) =
      (readStrata? rest).map fun r => (s :: r.1, r.2) := by
  have hopening : ['*', 'S', ' '].isPrefixOf? (['*', 'S', ' '] ++ name) = some name :=
    List.isPrefixOf?_eq_some_iff_append_eq.2 rfl
  rw [readStrata?]
  simp only [hopening]
  split
  · next hnone =>
      rw [h] at hnone
      cases hnone
  · next s' rest' hsome =>
      rw [h] at hsome
      cases hsome
      rfl

/-- **Strata are read back**, up to a section of another kind. -/
theorem readStrata?_append (ss : List Stratum) {rest : List Line} (hrest : OpensSection rest)
    (hother : readStrata? rest = some ([], rest)) :
    readStrata? (ss.flatMap Stratum.sectionLines ++ rest) = some (ss, rest) := by
  induction ss with
  | nil => exact hother
  | cons s ss ih =>
      have hnext : OpensSection (ss.flatMap Stratum.sectionLines ++ rest) := by
        cases ss with
        | nil => exact hrest
        | cons s' ss => exact ⟨_, _, rfl⟩
      rw [List.flatMap_cons, Stratum.sectionLines, List.append_assoc, List.cons_append,
        readStrata?_of_readStratum? (readStratum?_append s hnext), ih]
      rfl

/-- What is read as strata is the sections of these strata. -/
theorem eq_append_of_readStrata? {ls rest : List Line} {ss : List Stratum}
    (h : readStrata? ls = some (ss, rest)) : ls = ss.flatMap Stratum.sectionLines ++ rest := by
  fun_induction readStrata? ls generalizing ss with
  | case1 =>
      cases h
      rfl
  | case2 =>
      cases h
      rfl
  | case3 => cases h
  | case4 l ls name hopening s rest' hread _ ih =>
      obtain ⟨r, hr, he⟩ := Option.map_eq_some_iff.1 h
      cases he
      obtain ⟨hname, rfl⟩ := eq_append_of_readStratum? hread
      rw [← List.isPrefixOf?_eq_some_iff_append_eq.1 hopening, ih hr]
      simp [Stratum.sectionLines, hname]

/-! ### Vendors -/

/-- The lines of the section of a vendor, whose content counts with all its lines. -/
def Vendor.sectionLines (v : Vendor) : List Line :=
  ['*', 'V'] :: v.id.toList :: v.content.toList.splitOn '\n'

/-- The lines after the strata. -/
def closingLines (v : Option Vendor) : List Line :=
  (v.map Vendor.sectionLines).getD [] ++ [['*', 'E']]

/-- **The section of a vendor is read back**, if there is one. -/
theorem readVendor?_closingLines (v : Option Vendor) : readVendor? (closingLines v) = some v := by
  cases v with
  | none => rfl
  | some v =>
      have hlast : (v.content.toList.splitOn '\n' ++ [['*', 'E']]).getLast? = some ['*', 'E'] := by
        simp
      have hcontent : (v.content.toList.splitOn '\n' ++ [['*', 'E']]).dropLast =
          v.content.toList.splitOn '\n' := List.dropLast_concat
      have hne := List.splitOn_ne_nil '\n' v.content.toList
      have hlines : closingLines (some v) = ['*', 'V'] :: v.id.toList ::
          (v.content.toList.splitOn '\n' ++ [['*', 'E']]) := rfl
      rw [hlines, readVendor?, if_pos ⟨hlast, by rwa [hcontent]⟩, hcontent,
        List.intercalate_splitOn, String.ofList_toList, String.ofList_toList]

/-- What is read after the strata is the section of a vendor, if the lines have no line breaks. -/
theorem eq_closingLines_of_readVendor? {ls : List Line} {v : Option Vendor}
    (h : readVendor? ls = some v) (hls : ∀ l ∈ ls, '\n' ∉ l) : ls = closingLines v := by
  unfold readVendor? at h
  split at h
  · cases h
    rfl
  · next id ls =>
      split at h
      · next hcontent =>
          obtain ⟨hlast, hne⟩ := hcontent
          obtain ⟨content, rfl⟩ := List.getLast?_eq_some_iff.1 hlast
          rw [List.dropLast_concat] at h hne
          cases h
          -- the content is cut into the lines it was made of
          have hsplit : (['\n'].intercalate content).splitOn '\n' = content :=
            List.splitOn_intercalate '\n' (fun l hl => hls l (by simp [hl])) hne
          simp [closingLines, Vendor.sectionLines, hsplit]
      · cases h
  · cases h

/-! ### The whole text -/

/-- The lines of the text of a source map, where the content of a vendor counts with all its
lines. -/
def SourceMap.allLines (m : SourceMap) : List Line :=
  ['S', 'M', 'A', 'P'] :: (m.sourceFile.toList ++ ".java".toList) :: m.defaultStratum.toList ::
    (m.strata.flatMap Stratum.sectionLines ++ closingLines m.vendor)

theorem opensSection_closingLines (v : Option Vendor) : OpensSection (closingLines v) := by
  cases v with
  | none => exact ⟨_, _, rfl⟩
  | some v => exact ⟨_, _, rfl⟩

/-- What closes a source map is no stratum. -/
theorem readStrata?_closingLines (v : Option Vendor) :
    readStrata? (closingLines v) = some ([], closingLines v) := by
  cases v with
  | none => exact readStrata?_of_isPrefixOf? rfl _
  | some v => exact readStrata?_of_isPrefixOf? rfl _

theorem intercalate_closingLines (v : Option Vendor) :
    ['\n'].intercalate (closingLines v) =
      ['\n'].intercalate (((v.map Vendor.textLines).getD [] ++ ["*E"]).map String.toList) := by
  cases v with
  | none => rfl
  | some v =>
      have hlines : closingLines (some v) = [['*', 'V'], v.id.toList] ++
          (v.content.toList.splitOn '\n' ++ [['*', 'E']]) := rfl
      have hne := List.splitOn_ne_nil '\n' v.content.toList
      rw [hlines, intercalate_newline_append (by simp) (by simp),
        intercalate_newline_append hne (by simp), List.intercalate_splitOn]
      simp [Vendor.textLines]

/-- **The text of a source map is its lines joined.** -/
theorem SourceMap.intercalate_allLines (m : SourceMap) :
    ['\n'].intercalate m.allLines = m.text.toList := by
  have htext : m.textLines.map String.toList =
      (['S', 'M', 'A', 'P'] :: (m.sourceFile.toList ++ ".java".toList) ::
        m.defaultStratum.toList :: m.strata.flatMap Stratum.sectionLines) ++
          ((m.vendor.map Vendor.textLines).getD [] ++ ["*E"]).map String.toList := by
    simp [textLines, List.map_flatMap, Stratum.map_toList_textLines]
  have hnewline : "\n".toList = ['\n'] := rfl
  rw [text, String.toList_intercalate, hnewline, htext,
    intercalate_newline_append (by simp) (by simp), ← intercalate_closingLines,
    ← intercalate_newline_append (by simp) (by simp [closingLines])]
  rfl

theorem SourceMap.ofText?_of_splitOn {s : String} {m : SourceMap}
    (h : s.toList.splitOn '\n' = m.allLines) : SourceMap.ofText? s = some m := by
  have hfile : ".java".toList.isSuffixOf? (m.sourceFile.toList ++ ".java".toList) =
      some m.sourceFile.toList := List.isSuffixOf?_eq_some_iff_append_eq.2 rfl
  have hstrata := readStrata?_append m.strata (opensSection_closingLines m.vendor)
    (readStrata?_closingLines m.vendor)
  have hvendor := readVendor?_closingLines m.vendor
  rw [ofText?, h, allLines]
  simp only [bind, hfile, Option.bind_some, hstrata, hvendor, pure, String.ofList_toList]

theorem SourceMap.splitOn_of_ofText? {s : String} {m : SourceMap}
    (h : SourceMap.ofText? s = some m) : s.toList.splitOn '\n' = m.allLines := by
  unfold ofText? at h
  split at h
  · next file defaultStratum ls hlines =>
      obtain ⟨sourceFile, hfile, h⟩ := Option.bind_eq_some_iff.1 h
      obtain ⟨⟨strata, ls'⟩, hstrata, h⟩ := Option.bind_eq_some_iff.1 h
      obtain ⟨vendor, hvendor, h⟩ := Option.bind_eq_some_iff.1 h
      obtain rfl := Option.some.inj h
      have hls := eq_append_of_readStrata? hstrata
      have hclosing : ls' = closingLines vendor := by
        refine eq_closingLines_of_readVendor? hvendor fun l hl => ?_
        have hmem : l ∈ s.toList.splitOn '\n' := by simp [hlines, hls, hl]
        exact newline_not_mem_of_mem_splitOn hmem
      rw [hlines, allLines, hls, hclosing, ← List.isSuffixOf?_eq_some_iff_append_eq.1 hfile]
      simp
  · cases h

/-! ### Line breaks -/

/-- The strings of the entry of a file. -/
def SourceFile.strings (f : SourceFile) : List String :=
  f.name :: f.path.toList

/-- The strings of a stratum. -/
def Stratum.strings (s : Stratum) : List String :=
  s.name :: s.files.flatMap SourceFile.strings

/-- The strings of a source map that keep to a line: all but the content of the vendor. -/
def SourceMap.strings (m : SourceMap) : List String :=
  m.sourceFile :: m.defaultStratum ::
    (m.strata.flatMap Stratum.strings ++ m.vendor.toList.map Vendor.id)

/-- No string that should keep to a line has a line break in it. -/
def SourceMap.OneLined (m : SourceMap) : Prop :=
  ∀ s ∈ m.strings, '\n' ∉ s.toList

instance (m : SourceMap) : Decidable m.OneLined :=
  inferInstanceAs (Decidable (∀ s ∈ m.strings, '\n' ∉ s.toList))

theorem newline_not_mem_toDigits (n : Nat) : '\n' ∉ Nat.toDigits 10 n := by
  intro h
  exact absurd (isDigit_of_mem_toDigits h) (by decide)

theorem LineMapping.newline_not_mem_text (m : LineMapping) : '\n' ∉ m.text.toList := by
  have hmarked : ∀ (mark : Char) (n : Option UInt32), mark ≠ '\n' →
      '\n' ∉ markedDigits mark n := by
    intro mark n hmark
    cases n with
    | none => exact List.not_mem_nil
    | some n => simp [markedDigits, Ne.symm hmark, newline_not_mem_toDigits]
  simp [toList_text, newline_not_mem_toDigits, hmarked]

theorem SourceFile.newline_not_mem_listingLines_iff (number : Nat) (fs : List SourceFile) :
    (∀ l ∈ SourceFile.listingLines number fs, '\n' ∉ l) ↔
      ∀ s ∈ fs.flatMap SourceFile.strings, '\n' ∉ s.toList := by
  induction fs generalizing number with
  | nil => simp [listingLines]
  | cons f fs ih =>
      have hentry : (∀ l ∈ f.entryLines number, '\n' ∉ l) ↔ ∀ s ∈ f.strings, '\n' ∉ s.toList := by
        obtain ⟨name, path⟩ := f
        cases path <;> simp [entryLines, entry, strings, newline_not_mem_toDigits]
      rw [listingLines, List.flatMap_cons, List.forall_mem_append, List.forall_mem_append, hentry,
        ih]

theorem Stratum.newline_not_mem_sectionLines_iff (s : Stratum) :
    (∀ l ∈ s.sectionLines, '\n' ∉ l) ↔ ∀ x ∈ s.strings, '\n' ∉ x.toList := by
  have hfiles := SourceFile.newline_not_mem_listingLines_iff 1 s.files
  simp only [sectionLines, bodyLines, strings, List.forall_mem_cons, List.forall_mem_append, hfiles]
  simp [LineMapping.newline_not_mem_text]

theorem newline_not_mem_closingLines_iff (v : Option Vendor) :
    (∀ l ∈ closingLines v, '\n' ∉ l) ↔ ∀ x ∈ v.toList.map Vendor.id, '\n' ∉ x.toList := by
  cases v with
  | none => simp [closingLines]
  | some v =>
      have hcontent : ∀ l ∈ v.content.toList.splitOn '\n', '\n' ∉ l :=
        fun l hl => newline_not_mem_of_mem_splitOn hl
      have hlines : closingLines (some v) = [['*', 'V'], v.id.toList] ++
          (v.content.toList.splitOn '\n' ++ [['*', 'E']]) := rfl
      rw [hlines, List.forall_mem_append, List.forall_mem_append, and_iff_left ⟨hcontent, by simp⟩]
      simp

/-- The lines of a source map have no line breaks just if its strings have none. -/
theorem SourceMap.newline_not_mem_allLines_iff (m : SourceMap) :
    (∀ l ∈ m.allLines, '\n' ∉ l) ↔ m.OneLined := by
  have hstrata : (∀ l ∈ m.strata.flatMap Stratum.sectionLines, '\n' ∉ l) ↔
      ∀ x ∈ m.strata.flatMap Stratum.strings, '\n' ∉ x.toList := by
    rw [List.forall_mem_flatMap, List.forall_mem_flatMap]
    exact forall_congr' fun s => forall_congr' fun _ => s.newline_not_mem_sectionLines_iff
  have hclosing := newline_not_mem_closingLines_iff m.vendor
  simp only [allLines, OneLined, strings, List.forall_mem_cons, List.forall_mem_append, hstrata,
    hclosing]
  simp

/-- **A text is the source map that is read from it**, and the texts of source maps without stray
line breaks are read. -/
theorem SourceMap.ofText?_eq_some_iff {s : String} {m : SourceMap} :
    SourceMap.ofText? s = some m ↔ m.OneLined ∧ m.text = s := by
  constructor
  · intro h
    have hlines := splitOn_of_ofText? h
    refine ⟨(newline_not_mem_allLines_iff m).1 fun l hl => ?_, ?_⟩
    · rw [← hlines] at hl
      exact newline_not_mem_of_mem_splitOn hl
    · rw [← String.toList_inj, ← intercalate_allLines, ← hlines, List.intercalate_splitOn]
  · rintro ⟨hm, rfl⟩
    refine ofText?_of_splitOn ?_
    rw [← intercalate_allLines]
    exact List.splitOn_intercalate '\n' ((newline_not_mem_allLines_iff m).2 hm) (by simp [allLines])

/-- **The text of a source map is uniquely decodable**: what was written is read back, and nothing
else is read. -/
theorem sourceMap_roundTrip :
    (∀ m : SourceMap, m.OneLined → SourceMap.ofText? m.text = some m) ∧
      (∀ m m' : SourceMap, m.OneLined → m'.OneLined → m.text = m'.text → m = m') ∧
      ∀ (s : String) (m : SourceMap), SourceMap.ofText? s = some m → m.OneLined ∧ m.text = s := by
  have hread : ∀ m : SourceMap, m.OneLined → SourceMap.ofText? m.text = some m :=
    fun m hm => SourceMap.ofText?_eq_some_iff.2 ⟨hm, rfl⟩
  refine ⟨hread, fun m m' hm hm' htext => ?_, fun s m h => SourceMap.ofText?_eq_some_iff.1 h⟩
  have hm'' := hread m' hm'
  rw [← htext, hread m hm] at hm''
  exact Option.some.inj hm''

/-- A path that looks like a section, a name that looks like an entry, and a vendor whose content
seems to close the text early: all are read back from the text given here. -/
theorem sourceMap_roundTrip_markers :
    let m : SourceMap :=
      { sourceFile := "", defaultStratum := "*E"
        strata := [
          { name := "", files := [⟨"+ 1 a", some "*L"⟩, ⟨"", none⟩]
            lines := [⟨1, some 2, none, 3, some 4⟩, ⟨1, none, some 2, 3, none⟩] },
          { name := "*F", files := [⟨"1 *L", some ""⟩], lines := [] }]
        vendor := some ⟨"*V", "*S a\n*E\n"⟩ }
    let s :=
      "SMAP\n.java\n*E\n*S \n*F\n+ 1 + 1 a\n*L\n2 \n*L\n1#2:3,4\n1,2:3\n" ++
        "*S *F\n*F\n+ 1 1 *L\n\n*L\n*V\n*V\n*S a\n*E\n\n*E"
    m.OneLined ∧ SourceMap.ofText? s = some m ∧ m.text = s := by
  intro m s
  have hm : m.OneLined := by decide
  have hs : m.text = s := by decide +kernel
  have hread : SourceMap.ofText? s = some m := hs ▸ sourceMap_roundTrip.1 m hm
  exact ⟨hm, hread, (sourceMap_roundTrip.2.2 s m hread).2⟩

end ClassFile
