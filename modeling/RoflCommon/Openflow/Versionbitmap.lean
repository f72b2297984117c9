/-
`cofhello_elem_versionbitmap`, and the HELLO message that carries it.

The class derives from `cmemory`: it inherits the octets of the element
header, and keeps the version numbers in a vector of its own. `clear()` is
the inherited function and sets the octets to zero; the versions stay
(`test_clear`). What removes versions is assignment and
`clear_ofp_versions()`, which the code modelled here never calls.
-/
import RoflCommon.Openflow
import RoflCommon.Lib.Wordset

namespace RoflCommon

/-- `cofhello_elem_versionbitmap`: the inherited memory (the element header)
and `bitmaps`, in which version `v` is bit `v % 32` of word `v / 32`. -/
structure Versionbitmap where
  mem : List UInt8
  bitmaps : List (BitVec 32)
deriving DecidableEq, Repr

namespace Versionbitmap

open Wordset

/-- The default constructor: an element header of type `OFPHET_VERSIONBITMAP`
and length zero, and no versions. -/
def new : Versionbitmap := ⟨[0, 1, 0, 0], []⟩

/-- The set of versions; numbers from 256 on can only come off the wire. -/
def test (b : Versionbitmap) (v : Nat) : Bool := Wordset.test b.bitmaps v

def addOfpVersion (b : Versionbitmap) (v : UInt8) : Versionbitmap :=
  { b with bitmaps := setBit (padTo (v.toNat / 32 + 1) b.bitmaps) v.toNat }

def dropOfpVersion (b : Versionbitmap) (v : UInt8) : Versionbitmap :=
  if b.bitmaps.length < v.toNat / 32 + 1 then b else { b with bitmaps := clearBit b.bitmaps v.toNat }

def hasOfpVersion (b : Versionbitmap) (v : UInt8) : Bool :=
  if b.bitmaps.length < v.toNat / 32 + 1 then false
  else (b.bitmaps.getD (v.toNat / 32) 0#32).getLsbD (v.toNat % 32)

/-- The first bit found from the top; the number of the version is returned
as an octet. -/
def getHighestOfpVersion (b : Versionbitmap) : UInt8 :=
  match highest b.bitmaps with
  | none => Openflow.OFP_VERSION_UNKNOWN
  | some v => UInt8.ofNat v

/-- `operator&`. -/
def and (a b : Versionbitmap) : Versionbitmap := { new with bitmaps := inter a.bitmaps b.bitmaps }

/-- `clear()`, inherited from `cmemory`: the memory is set to zero. -/
def clear (b : Versionbitmap) : Versionbitmap := { b with mem := b.mem.map fun _ => 0 }

/-- `length()`: the element header and the words, padded to eight octets. -/
def length (b : Versionbitmap) : Nat := (4 + b.bitmaps.length * 4 + 7) / 8 * 8

/-- `pack()` into octets that are zero: the header with the unpadded length,
then the words. -/
def pack (b : Versionbitmap) : List UInt8 :=
  let content := b.mem.take 2 ++ htobe16 (4 + b.bitmaps.length * 4) ++
    b.bitmaps.flatMap fun w => htobe32 w.toNat
  content ++ List.replicate (b.length - content.length) 0

/-! ## What each operation does to the set -/

@[simp] theorem test_new (v : Nat) : new.test v = false := Wordset.test_nil v

@[simp] theorem test_addOfpVersion (b : Versionbitmap) (v : UInt8) (u : Nat) :
    (b.addOfpVersion v).test u = (decide (u = v.toNat) || b.test u) := by
  simp only [test, addOfpVersion]
  rw [test_setBit (by decide) (by rw [length_padTo]; omega), test_padTo]

@[simp] theorem mem_dropOfpVersion (b : Versionbitmap) (v : UInt8) : (b.dropOfpVersion v).mem = b.mem := by
  unfold dropOfpVersion
  split <;> rfl

@[simp] theorem length_dropOfpVersion (b : Versionbitmap) (v : UInt8) :
    (b.dropOfpVersion v).bitmaps.length = b.bitmaps.length := by
  unfold dropOfpVersion
  split
  · rfl
  · exact length_clearBit _ _

@[simp] theorem test_dropOfpVersion (b : Versionbitmap) (v : UInt8) (u : Nat) :
    (b.dropOfpVersion v).test u = (!decide (u = v.toNat) && b.test u) := by
  unfold dropOfpVersion
  split
  next hshort =>
    have hnot : b.test v.toNat = false := test_eq_false_of_le (by decide) (by omega)
    by_cases hu : u = v.toNat
    · simp [hu, hnot]
    · simp [hu]
  next => exact test_clearBit b.bitmaps (by decide) u

@[simp] theorem test_and (a b : Versionbitmap) (v : Nat) : (a.and b).test v = (a.test v && b.test v) :=
  test_inter a.bitmaps b.bitmaps v

/-- **The versions survive `clear()`.** -/
@[simp] theorem test_clear (b : Versionbitmap) (v : Nat) : b.clear.test v = b.test v := rfl

theorem hasOfpVersion_eq (b : Versionbitmap) (v : UInt8) : b.hasOfpVersion v = b.test v.toNat := by
  unfold hasOfpVersion test
  split
  · rw [test_eq_false_of_le (by decide) (by omega)]
  · rfl

/-! ## The highest version -/

/-- Every version in the set is an octet, as every version `add_ofp_version`
is called with is. -/
def Octets (b : Versionbitmap) : Prop := ∀ v, b.test v = true → v < 256

theorem Octets.addOfpVersion {b : Versionbitmap} (h : b.Octets) (v : UInt8) : (b.addOfpVersion v).Octets := by
  intro u hu
  simp only [test_addOfpVersion, Bool.or_eq_true, decide_eq_true_eq] at hu
  rcases hu with rfl | hu
  · exact v.toNat_lt
  · exact h u hu

theorem Octets.and {a : Versionbitmap} (h : a.Octets) (b : Versionbitmap) : (a.and b).Octets := by
  intro v hv
  simp only [test_and, Bool.and_eq_true] at hv
  exact h v hv.1

/-- Where all versions are octets, the answer is the largest of them. -/
theorem getHighestOfpVersion_eq {b : Versionbitmap} {v : Nat} (hb : b.test v = true)
    (hmax : ∀ u, b.test u = true → u ≤ v) : b.getHighestOfpVersion = UInt8.ofNat v := by
  have h : highest b.bitmaps = some v := (highest_eq_some (by decide)).mpr ⟨hb, hmax⟩
  simp only [getHighestOfpVersion, h]

theorem getHighestOfpVersion_of_empty {b : Versionbitmap} (h : ∀ v, b.test v = false) :
    b.getHighestOfpVersion = Openflow.OFP_VERSION_UNKNOWN := by
  have h : highest b.bitmaps = none := (highest_eq_none (by decide)).mpr h
  simp only [getHighestOfpVersion, h]

/-- An answer other than `OFP_VERSION_UNKNOWN` is a member. -/
theorem test_getHighestOfpVersion {b : Versionbitmap} (h : b.Octets)
    (hne : b.getHighestOfpVersion ≠ Openflow.OFP_VERSION_UNKNOWN) :
    b.test b.getHighestOfpVersion.toNat = true := by
  unfold getHighestOfpVersion at hne ⊢
  cases hh : highest b.bitmaps with
  | none => simp [hh] at hne
  | some v =>
    have hv := test_of_highest hh
    have hlt : v < 256 := h v hv
    simp only [UInt8.toNat_ofNat', Nat.mod_eq_of_lt hlt]
    exact hv

theorem le_getHighestOfpVersion {b : Versionbitmap} (h : b.Octets) {v : Nat} (hv : b.test v = true) :
    v ≤ b.getHighestOfpVersion.toNat := by
  unfold getHighestOfpVersion
  cases hh : highest b.bitmaps with
  | none =>
    have hnot : b.test v = false := (highest_eq_none (by decide)).mp hh v
    rw [hv] at hnot
    cases hnot
  | some u =>
    have hu : u < 256 := h u (test_of_highest hh)
    simp only [UInt8.toNat_ofNat', Nat.mod_eq_of_lt hu]
    exact le_of_highest (by decide) hh hv

/-- Among versions from 1 to 255 the answer `OFP_VERSION_UNKNOWN` says that
there is none. -/
theorem getHighestOfpVersion_eq_unknown {b : Versionbitmap} (h : b.Octets) (h0 : b.test 0 = false) :
    b.getHighestOfpVersion = Openflow.OFP_VERSION_UNKNOWN ↔ ∀ v, b.test v = false := by
  refine ⟨fun heq v => ?_, getHighestOfpVersion_of_empty⟩
  by_contra hv
  simp only [Bool.not_eq_false] at hv
  have hle := le_getHighestOfpVersion h hv
  rw [heq] at hle
  obtain rfl : v = 0 := Nat.le_zero.mp hle
  rw [h0] at hv
  cases hv

/-- The answer depends on the set alone, not on how many words hold it. -/
theorem getHighestOfpVersion_congr {a b : Versionbitmap} (h : ∀ v, a.test v = b.test v) :
    a.getHighestOfpVersion = b.getHighestOfpVersion := by
  have : highest a.bitmaps = highest b.bitmaps := by
    cases hb : highest b.bitmaps with
    | none =>
      rw [highest_eq_none (by decide)] at hb ⊢
      exact fun v => (h v).trans (hb v)
    | some v =>
      rw [highest_eq_some (by decide)] at hb ⊢
      exact ⟨(h v).trans hb.1, fun u hu => hb.2 u ((h u).symm.trans hu)⟩
  simp only [getHighestOfpVersion, this]

end Versionbitmap

/-! ## HELLO -/

/-- `cofmsg_hello`; of the hello elements only the versionbitmap is kept. -/
structure CofmsgHello where
  version : UInt8
  xid : UInt32
  helloelems : Option Versionbitmap
deriving DecidableEq, Repr

namespace CofmsgHello

def length (m : CofmsgHello) : Nat := sizeofHeader + (m.helloelems.elim 0 Versionbitmap.length)

def pack (m : CofmsgHello) : List UInt8 :=
  Cofmsg.packHeader m.version Openflow13.OFPT_HELLO m.length m.xid ++ m.helloelems.elim [] Versionbitmap.pack

/-- The versions the message offers: its header version alone with a 1.0 or
1.2 header or without a versionbitmap, otherwise what the versionbitmap says. -/
def offers (m : CofmsgHello) (v : Nat) : Bool :=
  if m.version = Openflow10.OFP_VERSION ∨ m.version = Openflow12.OFP_VERSION then
    decide (v = m.version.toNat)
  else match m.helloelems with
    | none => decide (v = m.version.toNat)
    | some b => b.test v

/-- Only the header says which version the message offers. -/
def headerOnly (m : CofmsgHello) : Bool :=
  decide (m.version = Openflow10.OFP_VERSION ∨ m.version = Openflow12.OFP_VERSION) || m.helloelems.isNone

theorem offers_version {m : CofmsgHello} (h : m.headerOnly = true) : m.offers m.version.toNat = true := by
  simp only [headerOnly, Bool.or_eq_true, decide_eq_true_eq, Option.isNone_iff_eq_none] at h
  unfold offers
  split
  · simp
  · next hver => simp [h.resolve_left hver]

theorem eq_of_offers {m : CofmsgHello} {v : Nat} (h : m.headerOnly = true) (hv : m.offers v = true) :
    v = m.version.toNat := by
  simp only [headerOnly, Bool.or_eq_true, decide_eq_true_eq, Option.isNone_iff_eq_none] at h
  unfold offers at hv
  split at hv
  · simpa using hv
  · next hver => simpa [h.resolve_left hver] using hv

end CofmsgHello

end RoflCommon
