/-
**Source maps.**

A source map tells a debugger which line of which source file a line of a generated file came from.
It is a list of *strata*, one for each source language, and each stratum lists its files and the
line mappings into them.  A vendor may add a section of its own.  The text form is a sequence of
lines: a header, the sections, and a closing mark.

Main definitions:

* `SourceMap`, `Stratum`, `SourceFile`, `LineMapping`, `Vendor` — the map and its parts;
* `SourceMap.textLines` — the lines of the text, each part written by a function of its own
  (`LineMapping.text`, `SourceFile.textLines`, `Stratum.textLines`, `Vendor.textLines`);
* `SourceMap.text` — the lines joined by line breaks, with none after the last.
-/

set_option relaxedAutoImplicit false
set_option autoImplicit false

namespace ClassFile

/-! ### The map and its parts -/

/-- A source file of a stratum.  With a path, its entry takes two lines. -/
structure SourceFile where
  name : String
  path : Option String
  deriving DecidableEq

/-- A line mapping: `repeats` input lines from `input` on, each covering `increment` output lines,
the first of them at `output`.  `file` is the number of the input file in the stratum.  What is
absent is left to the reader's defaults. -/
structure LineMapping where
  input : UInt32
  file : Option UInt32
  repeats : Option UInt32
  output : UInt32
  increment : Option UInt32
  deriving DecidableEq

/-- A stratum: the view of the generated file in one source language. -/
structure Stratum where
  name : String
  files : List SourceFile
  lines : List LineMapping
  deriving DecidableEq

/-- The section a vendor may add. -/
structure Vendor where
  id : String
  content : String
  deriving DecidableEq

/-- A source map for the generated file `sourceFile`, which is named without its extension. -/
structure SourceMap where
  sourceFile : String
  defaultStratum : String
  strata : List Stratum
  vendor : Option Vendor
  deriving DecidableEq

/-! ### The text form -/

/-- A decimal number after a mark, or nothing. -/
def markedNumber (mark : String) : Option UInt32 → String
  | none => ""
  | some n => mark ++ toString n.toNat

/-- A line mapping is written `input#file,repeats:output,increment`; absent parts are left out
together with their marks. -/
def LineMapping.text (l : LineMapping) : String :=
  toString l.input.toNat ++ markedNumber "#" l.file ++ markedNumber "," l.repeats ++ ":" ++
    toString l.output.toNat ++ markedNumber "," l.increment

/-- The entry of the file with the given number: a plus sign announces a second line, the path. -/
def SourceFile.textLines (number : Nat) (f : SourceFile) : List String :=
  match f.path with
  | none => [toString number ++ " " ++ f.name]
  | some path => ["+ " ++ toString number ++ " " ++ f.name, path]

/-- The entries of files that are numbered in order from the given number on. -/
def SourceFile.listing (number : Nat) : List SourceFile → List String
  | [] => []
  | f :: fs => f.textLines number ++ SourceFile.listing (number + 1) fs

/-- A section of a stratum; its files are numbered from one. -/
def Stratum.textLines (s : Stratum) : List String :=
  ["*S " ++ s.name, "*F"] ++ SourceFile.listing 1 s.files ++ ["*L"] ++ s.lines.map LineMapping.text

/-- The section of a vendor, whose content may itself run over several lines. -/
def Vendor.textLines (v : Vendor) : List String :=
  ["*V", v.id, v.content]

/-- The lines of a source map. -/
def SourceMap.textLines (m : SourceMap) : List String :=
  ["SMAP", m.sourceFile ++ ".java", m.defaultStratum] ++ m.strata.flatMap Stratum.textLines ++
    (m.vendor.map Vendor.textLines).getD [] ++ ["*E"]

/-- The text of a source map: its lines, with a line break between each two. -/
def SourceMap.text (m : SourceMap) : String :=
  "\n".intercalate m.textLines

end ClassFile
