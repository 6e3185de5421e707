/-
**Names are names, and no two are alike.**

Scopes, slots and reasons are shown by words of the tables: class-file names of attributes,
mnemonics of instructions, names of rows, and a few more.  Each is a name, made of letters, digits
and underscores only, so that none of the marks of a message can occur in it; and no two scopes, and
no two slots, have the same name, although the tables are kept apart from each other.

Main definitions:

* `IsName` — a text that is a name;
* `Scope.all` — all scopes;
* `byteNumber`, `distinct` — the bytes of a text as one number, and lists in which no number occurs
  twice: many texts are told apart by their numbers, which are quick to compare.

Main results:

* `Scope.isName_text`, `Slot.isName_name` — scopes and slots have names;
* `Scope.text_inj`, `Slot.name_inj`, `Reason.text_inj` — **what has a name is told by it**.
-/

import Mathlib.Data.List.Nodup
import ClassFile.Refusal

set_option relaxedAutoImplicit false
set_option autoImplicit false

namespace ClassFile

/-! ### Names -/

/-- A character that may stand in a name. -/
def isNameChar (c : Char) : Bool :=
  c.isAlphanum || c == '_'

/-- The text is a name: some letters, digits and underscores, and nothing else. -/
structure IsName (t : String) : Prop where
  ne_nil : t.toList ≠ []
  all_isNameChar : t.toList.all isNameChar = true

/-- A text that is written out is a name if all its characters are those of names. -/
theorem isName_ofList {c : Char} {cs : List Char} (h : (c :: cs).all isNameChar = true) :
    IsName (String.ofList (c :: cs)) := by
  constructor
  · rw [String.toList_ofList]
    exact List.cons_ne_nil c cs
  · rw [String.toList_ofList]
    exact h

/-- Other characters do not occur in a name. -/
theorem IsName.not_mem {t : String} (ht : IsName t) {c : Char} (hc : isNameChar c = false) :
    c ∉ t.toList := by
  intro hmem
  have hname := List.all_eq_true.1 ht.all_isNameChar c hmem
  exact Bool.false_ne_true (hc.symm.trans hname)

theorem AttributeKind.isName_name (k : AttributeKind) : IsName k.name := by
  cases k <;> exact isName_ofList rfl

theorem EntryKind.isName_name (k : EntryKind) : IsName k.name := by
  cases k <;> exact isName_ofList rfl

theorem Opcode.isName_mnemonic (o : Opcode) : IsName o.mnemonic := by
  cases o <;> exact isName_ofList rfl

/-- Every scope is shown by a name. -/
theorem Scope.isName_text (s : Scope) : IsName s.text := by
  cases s with
  | attr kind => exact kind.isName_name
  | instruction opcode => exact opcode.isName_mnemonic
  | entry kind => exact kind.isName_name
  | _ => exact isName_ofList rfl

/-- Every slot is shown by a name. -/
theorem Slot.isName_name (s : Slot) : IsName s.name := by
  cases s <;> exact isName_ofList rfl

/-! ### No two alike -/

/-- All scopes. -/
def Scope.all : List Scope :=
  [.root, .method, .field, .constant, .label] ++ AttributeKind.all.map .attr ++
    Opcode.all.map .instruction ++ EntryKind.all.map .entry

theorem Scope.mem_all (s : Scope) : s ∈ all := by
  cases s with
  | attr kind => simp [all, AttributeKind.mem_all]
  | instruction opcode => simp [all, Opcode.mem_all]
  | entry kind => simp [all, EntryKind.mem_all]
  | _ => simp [all]

/-- The bytes of a text as the digits of one number. -/
def byteNumber (t : String) : Nat :=
  t.toByteArray.data.toList.foldl (fun n b => 256 * n + b.toNat) 0

/-- No number occurs twice in the list. -/
def distinct : List Nat → Bool
  | [] => true
  | n :: ns => (ns.all fun m => !Nat.beq n m) && distinct ns

theorem nodup_of_distinct {ns : List Nat} (h : distinct ns = true) : ns.Nodup := by
  induction ns with
  | nil => exact List.nodup_nil
  | cons n ns ih =>
      obtain ⟨hn, hns⟩ := Bool.and_eq_true_iff.1 h
      refine List.nodup_cons.2 ⟨fun hmem => ?_, ih hns⟩
      have hne := List.all_eq_true.1 hn n hmem
      simp at hne

set_option maxRecDepth 4000 in
/-- The names of the tables are told apart by their bytes, each from all others. -/
theorem Scope.distinct_byteNumber_text :
    distinct (all.map fun s => byteNumber s.text) = true := by
  decide +kernel

/-- **A scope is told by its name.** -/
theorem Scope.text_inj {s s' : Scope} (h : s.text = s'.text) : s = s' :=
  List.inj_on_of_nodup_map (nodup_of_distinct distinct_byteNumber_text) s.mem_all s'.mem_all
    (congrArg byteNumber h)

/-- **A slot is told by its name.** -/
theorem Slot.name_inj {s s' : Slot} (h : s.name = s'.name) : s = s' := by
  revert s s'
  decide

/-- A reason is told by its wording. -/
theorem Reason.text_inj {r r' : Reason} (h : r.text = r'.text) : r = r' := by
  cases r <;> cases r' <;> first | rfl | simp [text] at h

end ClassFile
