/-
**Access flags.**

Classes, methods and fields carry sets of flags in sixteen bits.  Each of the three has a table of
its own: the same bit may mean different things, or nothing, in another table.

Main definitions:

* `FlagTable`, `FlagTable.rows`, `FlagTable.mask` — the three tables, and the bits they know;
* `AccessFlags t` — a set of flags of table `t`, which never holds an unknown bit;
* `AccessFlags.ofBits?` — the flags with exactly the given bits; `AccessFlags.truncate` drops the
  unknown ones;
* `AccessFlags.names` — the names of the flags in a set, in the order of the table;
* `AccessFlags.union`, `inter`, `diff`, `symmDiff`, `compl` — the operations on sets of flags.
-/

set_option relaxedAutoImplicit false
set_option autoImplicit false

namespace ClassFile

/-! ### The tables -/

/-- The three tables of access flags. -/
inductive FlagTable
  | classes
  | methods
  | fields
  deriving DecidableEq

/-- The flags of a table, each with its bit, in the order of the class file format. -/
def FlagTable.rows : FlagTable → List (UInt16 × String)
  | .classes =>
      [(0x0001, "public"), (0x0010, "final"), (0x0020, "super"), (0x0200, "interface"),
       (0x0400, "abstract"), (0x1000, "synthetic"), (0x2000, "annotation"), (0x4000, "enum"),
       (0x8000, "module")]
  | .methods =>
      [(0x0001, "public"), (0x0002, "private"), (0x0004, "protected"), (0x0008, "static"),
       (0x0010, "final"), (0x0020, "synchronized"), (0x0040, "bridge"), (0x0080, "varargs"),
       (0x0100, "native"), (0x0400, "abstract"), (0x0800, "strict"), (0x1000, "synthetic")]
  | .fields =>
      [(0x0001, "public"), (0x0002, "private"), (0x0004, "protected"), (0x0008, "static"),
       (0x0010, "final"), (0x0040, "volatile"), (0x0080, "transient"), (0x1000, "synthetic"),
       (0x4000, "enum")]

/-- All bits that a table knows. -/
def FlagTable.mask (t : FlagTable) : UInt16 :=
  t.rows.foldr (fun row bits => row.1 ||| bits) 0

/-! ### Sets of flags -/

/-- A set of access flags, whose bits all lie within its table. -/
structure AccessFlags (t : FlagTable) where
  bits : UInt16
  within : bits &&& t.mask = bits
  deriving DecidableEq

/-- The bits that stay within a mask under an operation that works bit by bit. -/
private theorem within_of_toNat {a m : UInt16} (h : a.toNat &&& m.toNat = a.toNat) :
    a &&& m = a := by
  apply UInt16.toNat_inj.mp
  rw [UInt16.toNat_and]
  exact h

namespace AccessFlags

variable {t : FlagTable}

theorem toNat_within (a : AccessFlags t) : a.bits.toNat &&& t.mask.toNat = a.bits.toNat := by
  rw [← UInt16.toNat_and, a.within]

/-- No flag. -/
def empty : AccessFlags t :=
  ⟨0, by simp⟩

/-- Every flag of the table. -/
def all : AccessFlags t :=
  ⟨t.mask, by simp⟩

/-- The flags among the given bits; unknown bits are dropped. -/
def truncate (bits : UInt16) : AccessFlags t :=
  ⟨bits &&& t.mask, by rw [UInt16.and_assoc, UInt16.and_self]⟩

/-- The flags with exactly the given bits, if the table knows them all. -/
def ofBits? (bits : UInt16) : Option (AccessFlags t) :=
  if h : bits &&& t.mask = bits then some ⟨bits, h⟩ else none

/-- Every flag of `b` is in `a`. -/
def contains (a b : AccessFlags t) : Bool :=
  a.bits &&& b.bits == b.bits

/-- Some flag is in both sets. -/
def intersects (a b : AccessFlags t) : Bool :=
  a.bits &&& b.bits != 0

/-- The flags in either set. -/
def union (a b : AccessFlags t) : AccessFlags t where
  bits := a.bits ||| b.bits
  within := by
    apply within_of_toNat
    rw [UInt16.toNat_or, Nat.and_or_distrib_right, a.toNat_within, b.toNat_within]

/-- The flags in both sets. -/
def inter (a b : AccessFlags t) : AccessFlags t where
  bits := a.bits &&& b.bits
  within := by rw [UInt16.and_assoc, b.within]

/-- The flags of `a` that are not in `b`. -/
def diff (a b : AccessFlags t) : AccessFlags t where
  bits := a.bits &&& ~~~b.bits
  within := by rw [UInt16.and_comm a.bits, UInt16.and_assoc, a.within]

/-- The flags in exactly one of the two sets. -/
def symmDiff (a b : AccessFlags t) : AccessFlags t where
  bits := a.bits ^^^ b.bits
  within := by
    apply within_of_toNat
    rw [UInt16.toNat_xor, Nat.and_xor_distrib_right, a.toNat_within, b.toNat_within]

/-- The flags of the table that are not in `a`. -/
def compl (a : AccessFlags t) : AccessFlags t :=
  all.diff a

/-- The names of the flags in a set, in the order of the table. -/
def names (a : AccessFlags t) : List String :=
  (t.rows.filter fun row => a.bits &&& row.1 == row.1).map Prod.snd

end AccessFlags

end ClassFile
