/-
`cmemory`: putting octets into a block of memory, and taking octets out of it.

`insert` and `remove` are there twice, for an offset and for a pointer. The end of the block
is a position for the offset, not for the pointer. `remove` by offset never throws: it cuts
a length that reaches beyond the end, and from an offset beyond the end on it computes a
length below zero, as a `size_t`. `splices_iff` says where the four agree on one law.
-/
import Mathlib.Algebra.Order.Ring.Nat
import Mathlib.Data.List.Basic
import Mathlib.Tactic.Common

namespace RoflCommon

/-- `data`: whether there is a block, and the octets up to the size. -/
structure Cmemory where
  allocated : Bool
  octets : List UInt8
  null : allocated = false → octets = []
  size_lt : octets.length < 18446744073709551616

/-- How a function fails. What the source makes as `eOutOfRange` and `eSysCall` goes through
`set_func(..)`, which returns a reference to the base class, and is thrown as a `rofl::exception`;
only its text tells the two apart. -/
inductive CmemoryException
  /-- An `eOutOfRange` thrown like that, before anything is changed. -/
  | outOfRange
  /-- An `eSysCall` thrown like that: there is no memory. -/
  | sysCall
  /-- Octets outside of the block are written; what happens then is not defined. -/
  | overrun
deriving DecidableEq, Repr

/-- The sizes of which `calloc` has a block. -/
structure Calloc where
  available : ℕ → Bool
  lt_of_available : ∀ n, available n = true → n < 9223372036854775808

namespace Cmemory

def length (m : Cmemory) : ℕ := m.octets.length

theorem length_lt (m : Cmemory) : m.length < 18446744073709551616 := m.size_lt

/-- What `insert` and `remove` make of the octets. -/
def splice (octets : List UInt8) (offset removed inserted : ℕ) : List UInt8 :=
  octets.take offset ++ .replicate inserted 0 ++ octets.drop (offset + removed)

theorem length_splice {octets : List UInt8} {offset removed : ℕ} (h : offset + removed ≤ octets.length)
    (inserted : ℕ) : (splice octets offset removed inserted).length = octets.length - removed + inserted := by
  simp only [splice, List.length_append, List.length_take, List.length_replicate, List.length_drop]
  omega

theorem splice_nil (offset removed : ℕ) : splice [] offset removed 0 = [] := by
  simp [splice]

/-- What has been inserted is taken out again. -/
theorem splice_splice {octets : List UInt8} {offset : ℕ} (h : offset ≤ octets.length) (n : ℕ) :
    splice (splice octets offset 0 n) offset n 0 = octets := by
  have hlen : (octets.take offset).length = offset := by
    rw [List.length_take]
    omega
  have hfront : (octets.take offset ++ .replicate n 0).length = offset + n := by
    rw [List.length_append, hlen, List.length_replicate]
  have htake : (splice octets offset 0 n).take offset = octets.take offset := by
    rw [splice, List.append_assoc, List.take_left' hlen]
  have hdrop : (splice octets offset 0 n).drop (offset + n) = octets.drop offset := by
    rw [splice, List.drop_left' hfront, Nat.add_zero]
  rw [splice, htake, hdrop, List.replicate_zero, List.append_nil, List.take_append_drop]

/-! ## The functions -/

/-- `insert` at an offset; returned is a pointer to what has been inserted, here its offset. -/
def insert (calloc : Calloc) (m : Cmemory) (offset : UInt32) (len : UInt64) : Except CmemoryException (Cmemory × ℕ) :=
  if offset.toNat > m.length then .error .outOfRange
  else if m.allocated = false then
    if calloc.available len.toNat then
      .ok (⟨true, .replicate len.toNat 0, by simp, by simpa using len.toNat_lt⟩, 0)
    else .error .sysCall
  else
    let pLen := (m.length + len.toNat) % 18446744073709551616
    if calloc.available pLen then
      let octets := splice m.octets offset.toNat 0 len.toNat
      if h : octets.length ≤ pLen then .ok (⟨true, octets, by simp, by omega⟩, offset.toNat) else .error .overrun
    else .error .sysCall

/-- `insert` at a pointer, that many octets behind `somem()`. -/
def insertPtr (calloc : Calloc) (m : Cmemory) (ptr : ℤ) (len : UInt64) : Except CmemoryException (Cmemory × ℕ) :=
  if ¬(0 ≤ ptr ∧ ptr < m.length) then .error .outOfRange else m.insert calloc (.ofNat ptr.toNat) len

/-- `remove` at an offset. -/
def remove (m : Cmemory) (offset : UInt32) (len : UInt64) : Except CmemoryException Cmemory :=
  let len :=
    if (offset.toNat + len.toNat) % 18446744073709551616 > m.length then
      (m.length + 18446744073709551616 - offset.toNat) % 18446744073709551616
    else len.toNat
  if h : offset.toNat + len ≤ m.length then
    .ok ⟨m.allocated, splice m.octets offset.toNat len 0, fun hnull => by rw [m.null hnull]; exact splice_nil _ _, by
      have := m.size_lt
      rw [length_splice h]
      omega⟩
  else .error .overrun

/-- `remove` at a pointer; its end is an address, which may wrap. -/
def removePtr (m : Cmemory) (ptr : ℤ) (len : UInt64) : Except CmemoryException Cmemory :=
  if ¬(0 ≤ ptr ∧ ptr < m.length) then .error .outOfRange
  else if ¬(ptr + len.toNat) % 18446744073709551616 < m.length then .error .outOfRange
  else m.remove (.ofNat ptr.toNat) len

/-! ## The law -/

/-- `insert` and `remove` splice the octets, by offset and by pointer, and throw outside of the
block. The pointers are those to the positions that an offset can have, below 2 ^ 32; what is
further behind in a larger block is left out. -/
structure Splices (calloc : Calloc) (m : Cmemory) (o : UInt32) (n : UInt64) : Prop where
  insert : o.toNat ≤ m.length → ∃ m', m.insert calloc o n = .ok (m', o.toNat) ∧ m'.length = m.length + n.toNat ∧
    m'.octets = m.octets.take o.toNat ++ .replicate n.toNat 0 ++ m.octets.drop o.toNat
  remove : o.toNat + n.toNat ≤ m.length →
    ∃ m', m.remove o n = .ok m' ∧ m'.octets = m.octets.take o.toNat ++ m.octets.drop (o.toNat + n.toNat)
  restores : ∀ m' p, m.insert calloc o n = .ok (m', p) → ∃ m'', m'.remove o n = .ok m'' ∧ m''.octets = m.octets
  insertPtr : m.insertPtr calloc o.toNat n = m.insert calloc o n
  removePtr : m.removePtr o.toNat n = m.remove o n
  insertRange : m.length < o.toNat → m.insert calloc o n = .error .outOfRange
  removeRange : m.length < o.toNat + n.toNat → m.remove o n = .error .outOfRange

variable {calloc : Calloc} {m : Cmemory} {o : UInt32} {n : UInt64}

theorem insert_of_lt (h : m.length < o.toNat) : m.insert calloc o n = .error .outOfRange := if_pos h

/-- Within a block, where there is memory. -/
theorem insert_eq (hpos : 0 < m.length) (ho : o.toNat ≤ m.length)
    (hmem : calloc.available (m.length + n.toNat) = true) :
    ∃ m', m.insert calloc o n = .ok (m', o.toNat) ∧ m'.octets = splice m.octets o.toNat 0 n.toNat := by
  have hlt := calloc.lt_of_available _ hmem
  have hnull : m.allocated ≠ false := fun hnull => by
    rw [length, m.null hnull] at hpos
    cases hpos
  have hlen : (splice m.octets o.toNat 0 n.toNat).length = m.length + n.toNat := length_splice ho n.toNat
  have hwrap : (m.length + n.toNat) % 18446744073709551616 = m.length + n.toNat := Nat.mod_eq_of_lt (by omega)
  simp only [insert, if_neg (not_lt.mpr ho), if_neg hnull, hwrap, hmem, if_true]
  rw [dif_pos hlen.le]
  exact ⟨_, rfl, rfl⟩

/-- Nothing else is inserted into. -/
theorem available_of_insert (hpos : 0 < m.length) {m' : Cmemory} {p : ℕ} (h : m.insert calloc o n = .ok (m', p)) :
    calloc.available (m.length + n.toNat) = true := by
  have hnull : m.allocated ≠ false := fun hnull => by
    rw [length, m.null hnull] at hpos
    cases hpos
  by_cases ho : o.toNat > m.length
  · rw [insert_of_lt ho] at h
    cases h
  · simp only [insert, if_neg ho, if_neg hnull] at h
    split_ifs at h with hmem hroom
    have hlen : (splice m.octets o.toNat 0 n.toNat).length = m.length + n.toNat :=
      length_splice (not_lt.mp ho) n.toNat
    rw [hlen] at hroom
    rwa [Nat.mod_eq_of_lt (by omega)] at hmem

theorem remove_eq (h : o.toNat + n.toNat ≤ m.length) :
    ∃ m', m.remove o n = .ok m' ∧ m'.octets = splice m.octets o.toNat n.toNat 0 := by
  have hlt := m.length_lt
  have hlen : ¬(o.toNat + n.toNat) % 18446744073709551616 > m.length := by omega
  simp only [remove, if_neg hlen]
  rw [dif_pos h]
  exact ⟨_, rfl, rfl⟩

/-- What reaches beyond the end is cut there. -/
theorem remove_of_beyond (ho : o.toNat ≤ m.length) (h : m.length < o.toNat + n.toNat)
    (hwrap : o.toNat + n.toNat < 18446744073709551616) :
    ∃ m', m.remove o n = .ok m' ∧ m'.octets = m.octets.take o.toNat := by
  have hlt := m.length_lt
  have hlen : (o.toNat + n.toNat) % 18446744073709551616 > m.length := by omega
  have hcut : (m.length + 18446744073709551616 - o.toNat) % 18446744073709551616 = m.length - o.toNat := by omega
  simp only [remove, if_pos hlen, hcut]
  rw [dif_pos (by omega)]
  refine ⟨_, rfl, ?_⟩
  have hend : m.octets.length ≤ o.toNat + (m.length - o.toNat) := by
    change m.length ≤ _
    omega
  change splice m.octets o.toNat (m.length - o.toNat) 0 = _
  rw [splice, List.drop_of_length_le hend, List.replicate_zero, List.append_nil, List.append_nil]

/-- `remove` at an offset does not throw. -/
theorem remove_ne_outOfRange : m.remove o n ≠ .error .outOfRange := by
  simp only [remove]
  intro h
  split_ifs at h
  all_goals cases h

theorem splices_of_lt (h : o.toNat + n.toNat < m.length) (hmem : calloc.available (m.length + n.toNat) = true) :
    Splices calloc m o n := by
  have hlt := m.length_lt
  have hpos : 0 < m.length := by omega
  have ho : o.toNat ≤ m.length := by omega
  obtain ⟨mi, hinsert, hoctets⟩ := insert_eq hpos ho hmem
  have hlen : mi.length = m.length + n.toNat := by
    rw [length, hoctets, length_splice ho]
    rfl
  have hin : 0 ≤ (o.toNat : ℤ) ∧ (o.toNat : ℤ) < m.length := ⟨by omega, by omega⟩
  refine ⟨fun _ => ⟨mi, hinsert, hlen, ?_⟩, fun hle => ?_, fun m' p hm' => ?_, ?_, ?_, fun hover => by omega,
    fun hover => by omega⟩
  · rw [hoctets, splice, Nat.add_zero]
  · obtain ⟨mr, hremove, hmr⟩ := remove_eq hle
    exact ⟨mr, hremove, by rw [hmr, splice, List.replicate_zero, List.append_nil]⟩
  · rw [hinsert, Except.ok.injEq, Prod.mk.injEq] at hm'
    obtain ⟨rfl, -⟩ := hm'
    obtain ⟨mr, hremove, hmr⟩ := remove_eq (m := mi) (o := o) (n := n) (by omega)
    exact ⟨mr, hremove, by rw [hmr, hoctets, splice_splice ho]⟩
  · rw [insertPtr, if_neg (not_not.mpr hin), Int.toNat_natCast, UInt32.ofNat_toNat]
  · have hend : ((o.toNat : ℤ) + n.toNat) % 18446744073709551616 < m.length := by omega
    rw [removePtr, if_neg (not_not.mpr hin), if_neg (not_not.mpr hend), Int.toNat_natCast, UInt32.ofNat_toNat]

/-- **The law holds at an offset and a length that end before the end of the block**, where
there is memory. -/
theorem splices_iff (calloc : Calloc) (m : Cmemory) (o : UInt32) (n : UInt64) :
    Splices calloc m o n ↔ o.toNat + n.toNat < m.length ∧ calloc.available (m.length + n.toNat) = true := by
  refine ⟨fun h => ?_, fun h => splices_of_lt h.1 h.2⟩
  have hlt := m.length_lt
  have hle : o.toNat + n.toNat ≤ m.length := by
    by_contra hover
    exact remove_ne_outOfRange (h.removeRange (by omega))
  have hend : o.toNat + n.toNat ≠ m.length := by
    intro hend
    -- the pointer is at the end, or what is removed reaches it
    have hthrown : m.removePtr o.toNat n = .error .outOfRange := by
      by_cases hin : 0 ≤ (o.toNat : ℤ) ∧ (o.toNat : ℤ) < m.length
      · have hout : ¬((o.toNat : ℤ) + n.toNat) % 18446744073709551616 < m.length := by omega
        rw [removePtr, if_neg (not_not.mpr hin), if_pos hout]
      · rw [removePtr, if_pos hin]
    exact remove_ne_outOfRange (h.removePtr.symm.trans hthrown)
  have hpos : 0 < m.length := by omega
  obtain ⟨m', hinsert, -⟩ := h.insert (by omega)
  exact ⟨by omega, available_of_insert hpos hinsert⟩

/-- Two octets out of four: not at the end of the block by pointer, and beyond the end without
an exception. -/
theorem remove_at_the_end : ∃ m : Cmemory, m.octets = [1, 2, 3, 4] ∧ m.removePtr 2 2 = .error .outOfRange ∧
    (∃ m', m.remove 2 2 = .ok m' ∧ m'.octets = [1, 2]) ∧ (∃ m', m.remove 2 3 = .ok m' ∧ m'.octets = [1, 2]) ∧
      ∀ calloc, ¬Splices calloc m 2 2 ∧ ¬Splices calloc m 2 3 := by
  have hremove : ∀ m : Cmemory, m.octets = [1, 2, 3, 4] →
      (∃ m', m.remove 2 2 = .ok m' ∧ m'.octets = [1, 2]) ∧ ∃ m', m.remove 2 3 = .ok m' ∧ m'.octets = [1, 2] := by
    intro m hm
    have hlen : m.length = 4 := by rw [length, hm]; rfl
    have htwo := remove_eq (m := m) (o := 2) (n := 2) (by rw [hlen]; decide)
    have hthree := remove_of_beyond (m := m) (o := 2) (n := 3) (by rw [hlen]; decide) (by rw [hlen]; decide)
      (by decide)
    rw [hm] at htwo hthree
    exact ⟨htwo, hthree⟩
  have hptr : removePtr ⟨true, [1, 2, 3, 4], by simp, by decide⟩ 2 2 = .error .outOfRange := by
    rw [removePtr, if_neg (by decide), if_pos (by decide)]
  obtain ⟨htwo, hthree⟩ := hremove ⟨true, [1, 2, 3, 4], by simp, by decide⟩ rfl
  refine ⟨_, rfl, hptr, htwo, hthree, fun calloc => ⟨fun h => ?_, fun h => ?_⟩⟩
  · exact remove_ne_outOfRange (h.removePtr.symm.trans hptr)
  · exact remove_ne_outOfRange (h.removeRange (by decide))

end Cmemory
end RoflCommon
