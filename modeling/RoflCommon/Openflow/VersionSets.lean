/-
`cofhello_elem_versionbitmap` as a set of versions: what `add_ofp_version` and
`drop_ofp_version` make of it, and what comes back from the wire.

`operator=` clears the words of the object it assigns to, `unpack` appends to them. So a
bitmap comes back in an object that holds no words, and in no other (`isSet_iff`).
-/
import RoflCommon.Openflow.Cofhelloelems
import Mathlib.Data.Finset.Basic
import Mathlib.Data.Finset.Insert

namespace RoflCommon

open Octets Cursor

/-- A call that changes the set. -/
inductive VersionCall
  | addOfpVersion (v : UInt8)
  | dropOfpVersion (v : UInt8)
deriving DecidableEq, Repr

namespace VersionCall

def apply (b : Versionbitmap) : VersionCall → Versionbitmap
  | addOfpVersion v => b.addOfpVersion v
  | dropOfpVersion v => b.dropOfpVersion v

/-- What the call is for. -/
def member (s : Finset UInt8) : VersionCall → Finset UInt8
  | addOfpVersion v => insert v s
  | dropOfpVersion v => s.erase v

end VersionCall

namespace Versionbitmap

/-- A new bitmap after some calls. -/
def build (calls : List VersionCall) : Versionbitmap := calls.foldl VersionCall.apply new

/-- The versions in it. -/
def members (calls : List VersionCall) : Finset UInt8 := calls.foldl VersionCall.member ∅

/-- The bitmap has the versions of the set, and room for no others than octets: eight words
at most, behind the header of the constructor. -/
structure Holds (b : Versionbitmap) (s : Finset UInt8) : Prop where
  mem : b.mem = new.mem
  length : b.bitmaps.length ≤ 8
  test : ∀ v : UInt8, b.test v.toNat = true ↔ v ∈ s

theorem holds_new : new.Holds ∅ where
  mem := rfl
  length := by decide
  test v := by simp

theorem Holds.apply {b : Versionbitmap} {s : Finset UInt8} (h : b.Holds s) (call : VersionCall) :
    (call.apply b).Holds (call.member s) := by
  cases call with
  | addOfpVersion v =>
    refine ⟨h.mem, ?_, fun u => ?_⟩
    · have hv := v.toNat_lt
      have := h.length
      simp only [VersionCall.apply, addOfpVersion, Wordset.setBit, List.length_modify, Wordset.length_padTo]
      omega
    · rw [VersionCall.apply, test_addOfpVersion, VersionCall.member, Finset.mem_insert, Bool.or_eq_true,
        decide_eq_true_eq, h.test, UInt8.toNat_inj]
  | dropOfpVersion v =>
    refine ⟨(mem_dropOfpVersion b v).trans h.mem, (length_dropOfpVersion b v).trans_le h.length, fun u => ?_⟩
    rw [VersionCall.apply, test_dropOfpVersion, VersionCall.member, Finset.mem_erase, Bool.and_eq_true,
      Bool.not_eq_true', decide_eq_false_iff_not, h.test, UInt8.toNat_inj]

theorem holds_build (calls : List VersionCall) : (build calls).Holds (members calls) := by
  have hfold : ∀ (calls : List VersionCall) {b : Versionbitmap} {s : Finset UInt8}, b.Holds s →
      (calls.foldl VersionCall.apply b).Holds (calls.foldl VersionCall.member s) := by
    intro calls
    induction calls with
    | nil => exact fun h => h
    | cons call calls ih => exact fun h => ih (h.apply call)
  exact hfold calls holds_new

namespace Holds

variable {a b : Versionbitmap} {s t : Finset UInt8}

theorem hasOfpVersion (h : b.Holds s) (v : UInt8) : b.hasOfpVersion v = true ↔ v ∈ s := by
  rw [hasOfpVersion_eq, h.test]

theorem and (ha : a.Holds s) (hb : b.Holds t) : (a.and b).Holds (s ∩ t) where
  mem := rfl
  length := by
    have := ha.length
    simp only [Versionbitmap.and, Wordset.length_inter]
    omega
  test v := by rw [test_and, Bool.and_eq_true, ha.test, hb.test, Finset.mem_inter]

/-- The words end before 256. -/
theorem octets (h : b.Holds s) : b.Octets := by
  intro v hv
  have hlt : v < b.bitmaps.length * 32 := Wordset.lt_of_test (by decide) hv
  have := h.length
  omega

theorem exists_mem (h : b.Holds s) {v : ℕ} (hv : b.test v = true) : ∃ u ∈ s, u.toNat = v := by
  have hlt : v < 256 := h.octets v hv
  have hnat : (UInt8.ofNat v).toNat = v := by rw [UInt8.toNat_ofNat', Nat.mod_eq_of_lt hlt]
  refine ⟨UInt8.ofNat v, (h.test _).mp ?_, hnat⟩
  rw [hnat]
  exact hv

theorem highest_of_empty (h : b.Holds ∅) : b.getHighestOfpVersion = Openflow.OFP_VERSION_UNKNOWN := by
  refine getHighestOfpVersion_of_empty fun v => ?_
  by_contra hv
  obtain ⟨u, hu, -⟩ := h.exists_mem (Bool.eq_true_of_not_eq_false hv)
  exact Finset.notMem_empty u hu

theorem le_highest (h : b.Holds s) {v : UInt8} (hv : v ∈ s) : v ≤ b.getHighestOfpVersion :=
  UInt8.le_iff_toNat_le.mpr (le_getHighestOfpVersion h.octets ((h.test v).mpr hv))

theorem highest_mem (h : b.Holds s) (hs : s.Nonempty) : b.getHighestOfpVersion ∈ s := by
  obtain ⟨v, hv⟩ := hs
  by_cases hunknown : b.getHighestOfpVersion = Openflow.OFP_VERSION_UNKNOWN
  · -- then the one member is 0, which is the number of `OFP_VERSION_UNKNOWN`
    have hle := h.le_highest hv
    rw [hunknown] at hle ⊢
    have hzero : v = Openflow.OFP_VERSION_UNKNOWN := by
      have hle := UInt8.le_iff_toNat_le.mp hle
      exact UInt8.toNat_inj.mp (Nat.le_zero.mp hle)
    rwa [← hzero]
  · exact (h.test _).mp (test_getHighestOfpVersion h.octets hunknown)

end Holds

/-! ## What comes back -/

theorem htobe32_eq (w : BitVec 32) : htobe32 w.toNat = octets 4 w.toNat := by
  have hw := w.isLt
  have h3 : w.toNat / 65536 / 256 = w.toNat / 16777216 := by omega
  have h1 : UInt8.ofNat (w.toNat % 65536 / 256) = UInt8.ofNat (w.toNat / 256) := by
    apply UInt8.toNat_inj.mp
    rw [UInt8.toNat_ofNat', UInt8.toNat_ofNat']
    omega
  have h0 : UInt8.ofNat (w.toNat % 65536) = UInt8.ofNat w.toNat := by
    apply UInt8.toNat_inj.mp
    rw [UInt8.toNat_ofNat', UInt8.toNat_ofNat']
    omega
  simp [htobe32, htobe16, Octets.octets, h3, h1, h0]

theorem words_flatMap (bs : List (BitVec 32)) (rest : List UInt8) :
    words bs.length (bs.flatMap (fun w => htobe32 w.toNat) ++ rest) = bs := by
  induction bs with
  | nil => rfl
  | cons w bs ih =>
    have hlt : w.toNat < 256 ^ 4 := w.isLt
    rw [List.length_cons, List.flatMap_cons, List.append_assoc, words, htobe32_eq, field_octets_of_lt hlt,
      List.drop_left' (length_octets 4 _), ih, BitVec.ofNat_toNat, BitVec.setWidth_eq]

theorem length_flatMap (bs : List (BitVec 32)) : (bs.flatMap fun w => htobe32 w.toNat).length = bs.length * 4 := by
  induction bs with
  | nil => rfl
  | cons w bs ih =>
    rw [List.flatMap_cons, List.length_append, ih, length_htobe32, List.length_cons]
    omega

theorem field_htobe16 {n : ℕ} (h : n < 65536) (rest : List UInt8) : field (htobe16 n ++ rest) 0 2 = n := by
  have heq : htobe16 n = octets 2 n := by simp [htobe16, Octets.octets]
  rw [heq, field_octets_of_lt h]

/-- The words are read behind those that the object has. -/
theorem unpack_pack {b : Versionbitmap} {s : Finset UInt8} (h : b.Holds s) (x : Versionbitmap) :
    x.unpack b.pack 0 b.length = .ok ⟨b.pack, x.bitmaps ++ b.bitmaps⟩ := by
  have hlength := h.length
  have hpack : b.pack = [0, 1] ++ (htobe16 (4 + b.bitmaps.length * 4) ++
      (b.bitmaps.flatMap (fun w => htobe32 w.toNat) ++ .replicate (b.length - (4 + b.bitmaps.length * 4)) 0)) := by
    have hcontent : (([0, 1] : List UInt8) ++ htobe16 (4 + b.bitmaps.length * 4) ++
        b.bitmaps.flatMap fun w => htobe32 w.toNat).length = 4 + b.bitmaps.length * 4 := by
      rw [List.length_append, length_flatMap]
      rfl
    have hmem : b.mem.take 2 = [0, 1] := by rw [h.mem]; rfl
    rw [pack, hmem, hcontent]
    simp only [List.append_assoc]
  have hlen : 4 + b.bitmaps.length * 4 ≤ b.length := by
    unfold Versionbitmap.length
    omega
  have hsize : b.pack.length = b.length := by
    rw [hpack, List.length_append, List.length_append, List.length_append, length_flatMap, List.length_replicate,
      length_htobe16]
    change 2 + _ = _
    omega
  have hfield : field b.pack 2 2 = 4 + b.bitmaps.length * 4 := by
    rw [hpack, field_append_right (by decide)]
    exact field_htobe16 (by omega) _
  have hbody : b.pack.drop 4 = b.bitmaps.flatMap (fun w => htobe32 w.toNat) ++
      .replicate (b.length - (4 + b.bitmaps.length * 4)) 0 := by
    rw [hpack]
    rfl
  have hcount : (4 + b.bitmaps.length * 4 - 4) / 4 = b.bitmaps.length := by omega
  rw [unpack, if_neg (by omega), octetsAt_eq (by omega), List.drop_zero, List.take_of_length_le (by omega)]
  simp only [hfield]
  rw [if_neg (by omega), if_neg (by omega), hcount, hbody, words_flatMap]

/-- What comes back is the bitmap: its words, and with them the octets it packs to. -/
structure Same (r b : Versionbitmap) : Prop where
  bitmaps : r.bitmaps = b.bitmaps
  pack : r.pack = b.pack

/-- The calls make the set they are for, which comes back in `x`, meets the set of other
calls, and has a greatest version. -/
structure IsSet (calls : List VersionCall) (x : Versionbitmap) : Prop where
  has : ∀ v, (build calls).hasOfpVersion v = true ↔ v ∈ members calls
  comesBack : ∃ r, x.unpack (build calls).pack 0 (build calls).length = .ok r ∧ r.Same (build calls)
  and : ∀ others v, ((build calls).and (build others)).hasOfpVersion v = true ↔ v ∈ members calls ∩ members others
  highest : (members calls).Nonempty →
    (build calls).getHighestOfpVersion ∈ members calls ∧ ∀ v ∈ members calls, v ≤ (build calls).getHighestOfpVersion
  unknown : members calls = ∅ → (build calls).getHighestOfpVersion = Openflow.OFP_VERSION_UNKNOWN

theorem pack_congr {a b : Versionbitmap} (hmem : a.mem.take 2 = b.mem.take 2) (hbitmaps : a.bitmaps = b.bitmaps) :
    a.pack = b.pack := by
  simp only [pack, Versionbitmap.length, hmem, hbitmaps]

theorem same_appended {b : Versionbitmap} {s : Finset UInt8} (h : b.Holds s) (words : List (BitVec 32)) :
    Same ⟨b.pack, words ++ b.bitmaps⟩ b ↔ words = [] := by
  refine ⟨fun hsame => List.append_left_eq_self.mp hsame.bitmaps, ?_⟩
  rintro rfl
  refine ⟨rfl, pack_congr ?_ rfl⟩
  change b.pack.take 2 = b.mem.take 2
  rw [pack, h.mem, List.append_assoc, List.append_assoc]
  rfl

/-- **A bitmap comes back in an object without words**; what is not about `unpack` holds of
every bitmap. -/
theorem isSet_iff (calls : List VersionCall) (x : Versionbitmap) : IsSet calls x ↔ x.bitmaps = [] := by
  have hbuilt := holds_build calls
  have hunpack := unpack_pack hbuilt x
  constructor
  · intro h
    obtain ⟨r, hr, hsame⟩ := h.comesBack
    rw [hunpack, Except.ok.injEq] at hr
    subst hr
    exact (same_appended hbuilt _).mp hsame
  · intro hx
    exact {
      has := hbuilt.hasOfpVersion
      comesBack := ⟨_, hunpack, (same_appended hbuilt _).mpr hx⟩
      and := fun others => (hbuilt.and (holds_build others)).hasOfpVersion
      highest := fun hne => ⟨hbuilt.highest_mem hne, fun v hv => hbuilt.le_highest hv⟩
      unknown := fun hempty => by
        rw [hempty] at hbuilt
        exact hbuilt.highest_of_empty }

/-- Version 1 has been unpacked into the object, and version 4 is next: it has both words. -/
theorem second_bitmap_appended :
    ∃ x, new.unpack (build [.addOfpVersion 1]).pack 0 8 = .ok x ∧
      ¬IsSet [.addOfpVersion 4] x := by
  refine ⟨⟨[0, 1, 0, 8, 0, 0, 0, 2], [2#32]⟩, by decide, fun h => ?_⟩
  obtain ⟨r, hr, hsame⟩ := h.comesBack
  have hr' : (⟨[0, 1, 0, 8, 0, 0, 0, 2], [2#32]⟩ : Versionbitmap).unpack (build [.addOfpVersion 4]).pack 0
      (build [.addOfpVersion 4]).length = .ok ⟨[0, 1, 0, 8, 0, 0, 0, 16], [2#32, 16#32]⟩ := by decide
  rw [hr', Except.ok.injEq] at hr
  subst hr
  exact absurd hsame.bitmaps (by decide)

end Versionbitmap
end RoflCommon
