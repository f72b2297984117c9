/-
`cbuffer`: a `cmemory` with a write and a read position.

The positions are kept in order by every operation, and the memory grows
where a position would leave it, so both facts are part of the type. What a
user of the class sees is `content`, the octets between the positions:
writing and `wseek` append to it, `rseek` drops from its head, `reset`
empties it.
-/
import Mathlib.Tactic.Common

namespace RoflCommon

/-- `cbuffer`: `size` octets of memory from address 0 on. The octets are of
any type, so that a model can follow where they came from. -/
structure Cbuffer (α : Type) where
  mem : Nat → α
  size : Nat
  wbytes : Nat
  rbytes : Nat
  rbytes_le : rbytes ≤ wbytes
  wbytes_le : wbytes ≤ size

namespace Cbuffer

variable {α : Type}

/-- The octets written and not yet read. -/
def content (b : Cbuffer α) : List α := (List.range' b.rbytes (b.wbytes - b.rbytes)).map b.mem

/-- `rmemlen()`: how much can be read. -/
def rmemlen (b : Cbuffer α) : Nat := b.wbytes - b.rbytes

/-- `empty()`. -/
def empty (b : Cbuffer α) : Bool := b.wbytes == b.rbytes

/-- Memory with `l` put at address `a`. -/
def store (mem : Nat → α) (a : Nat) (l : List α) (i : Nat) : α :=
  if a ≤ i then l[i - a]?.getD (mem i) else mem i

/-- Octets put to memory at the write position, as `recv` and `pack` do; the
position is not moved. -/
def write (b : Cbuffer α) (l : List α) : Cbuffer α := { b with mem := store b.mem b.wbytes l }

/-- `rseek(offset, SEEK_CUR)`; at or past the write position it starts over. -/
def rseek (b : Cbuffer α) (offset : Nat) : Cbuffer α :=
  if h : b.rbytes + offset < b.wbytes then
    ⟨b.mem, b.size, b.wbytes, b.rbytes + offset, Nat.le_of_lt h, b.wbytes_le⟩
  else ⟨b.mem, b.size, 0, 0, Nat.le_refl 0, Nat.zero_le _⟩

/-- `rseek(offset, SEEK_SET)`. -/
def rseekSet (b : Cbuffer α) (offset : Nat) : Cbuffer α :=
  if h : offset < b.wbytes then ⟨b.mem, b.size, b.wbytes, offset, Nat.le_of_lt h, b.wbytes_le⟩
  else ⟨b.mem, b.size, b.wbytes, b.wbytes, Nat.le_refl _, b.wbytes_le⟩

variable [Inhabited α]

/-- `cmemory::resize` sets the octets it adds to zero. -/
def grow (mem : Nat → α) (size : Nat) (i : Nat) : α := if i < size then mem i else default

/-- `cbuffer(len)`. -/
def new (len : Nat) : Cbuffer α := ⟨fun _ => default, len, 0, 0, Nat.le_refl 0, Nat.zero_le _⟩

/-- `wseek(offset, SEEK_CUR)`. -/
def wseek (b : Cbuffer α) (offset : Nat) : Cbuffer α where
  mem := if b.wbytes + offset > b.size then grow b.mem b.size else b.mem
  size := max b.size (b.wbytes + offset)
  wbytes := b.wbytes + offset
  rbytes := b.rbytes
  rbytes_le := Nat.le_trans b.rbytes_le (Nat.le_add_right _ _)
  wbytes_le := Nat.le_max_right _ _

/-- `wseek(offset, SEEK_SET)`, which ends with `rseek()`. -/
def wseekSet (b : Cbuffer α) (offset : Nat) : Cbuffer α :=
  let mem := if offset > b.size then grow b.mem b.size else b.mem
  if h : b.rbytes + 0 < offset then
    ⟨mem, max b.size offset, offset, b.rbytes, Nat.le_of_lt h, Nat.le_max_right _ _⟩
  else ⟨mem, max b.size offset, 0, 0, Nat.le_refl 0, Nat.zero_le _⟩

/-- `reset()`. -/
def reset (b : Cbuffer α) : Cbuffer α := (b.wseekSet 0).rseekSet 0

/-! ## What the operations do to the content -/

omit [Inhabited α] in
@[simp] theorem length_content (b : Cbuffer α) : b.content.length = b.rmemlen := by
  simp [content, rmemlen]

omit [Inhabited α] in
theorem empty_iff {b : Cbuffer α} : b.empty = true ↔ b.content = [] := by
  have := b.rbytes_le
  rw [← List.length_eq_zero_iff, length_content, empty, beq_iff_eq, rmemlen]
  omega

omit [Inhabited α] in
@[simp] theorem content_rseek (b : Cbuffer α) (n : Nat) : (b.rseek n).content = b.content.drop n := by
  unfold rseek
  split
  · next h =>
    simp only [content, ← List.map_drop, List.drop_range']
    congr 2
    · omega
    · omega
  · next h =>
    rw [List.drop_eq_nil_of_le]
    · simp [content]
    · rw [length_content, rmemlen]
      omega

omit [Inhabited α] in
@[simp] theorem size_rseek (b : Cbuffer α) (n : Nat) : (b.rseek n).size = b.size := by
  unfold rseek
  split <;> rfl

omit [Inhabited α] in
/-- A buffer read to its end is written from its start on. -/
theorem wbytes_rseek {b : Cbuffer α} {n : Nat} (h : (b.rseek n).content = []) : (b.rseek n).wbytes = 0 := by
  unfold rseek at h ⊢
  split at h
  next hn =>
    rw [← List.length_eq_zero_iff, length_content, rmemlen] at h
    dsimp only at h
    omega
  next hn => rw [dif_neg hn]

omit [Inhabited α] in
@[simp] theorem content_write (b : Cbuffer α) (l : List α) : (b.write l).content = b.content := by
  refine List.map_congr_left fun i hi => ?_
  simp only [write, List.mem_range'_1] at hi ⊢
  have := b.rbytes_le
  rw [store, if_neg (by omega)]

@[simp] theorem content_new (len : Nat) : (new len : Cbuffer α).content = [] := rfl

@[simp] theorem content_reset (b : Cbuffer α) : b.reset.content = [] := by
  simp [reset, wseekSet, rseekSet, content]

@[simp] theorem size_reset (b : Cbuffer α) : b.reset.size = b.size := by
  simp [reset, wseekSet, rseekSet]

/-- Passing over octets within the memory. -/
theorem wseek_of_le {b : Cbuffer α} {n : Nat} (h : b.wbytes + n ≤ b.size) :
    (b.wseek n).mem = b.mem ∧ (b.wseek n).size = b.size := by
  simp only [wseek]
  exact ⟨if_neg (by omega), Nat.max_eq_left h⟩

@[simp] theorem wseek_zero (b : Cbuffer α) : b.wseek 0 = b := by
  obtain ⟨mem, size, wbytes, rbytes, hr, hw⟩ := b
  simp [wseek, Nat.not_lt.mpr hw, hw]

/-- Octets written and then passed over by `wseek` come after the content. -/
theorem content_wseek_write {b : Cbuffer α} {l : List α} (h : b.wbytes + l.length ≤ b.size) :
    ((b.write l).wseek l.length).content = b.content ++ l := by
  have hr := b.rbytes_le
  have hmem := (wseek_of_le (b := b.write l) h).1
  have hnew : (List.range' b.wbytes l.length).map (store b.mem b.wbytes l) = l := by
    refine List.ext_getElem (by simp) fun i hi hi' => ?_
    have hi₂ : b.wbytes + 1 * i - b.wbytes = i := by omega
    simp only [List.getElem_map, List.getElem_range', store]
    rw [if_pos (by omega), hi₂, List.getElem?_eq_getElem hi', Option.getD_some]
  rw [← content_write b l, content, hmem]
  simp only [content, wseek, write]
  have hsplit : List.range' b.rbytes (b.wbytes + l.length - b.rbytes) =
      List.range' b.rbytes (b.wbytes - b.rbytes) ++ List.range' b.wbytes l.length := by
    have : b.wbytes = b.rbytes + (b.wbytes - b.rbytes) := by omega
    conv => rhs; rhs; rw [this]
    rw [List.range'_append_1]
    congr 1
    omega
  rw [hsplit, List.map_append, hnew]

end Cbuffer
end RoflCommon
