/-
Objects that carry stamps, in themselves and in what they contain: a version, a label, an owner.

`stamps` lists them and `reads` those that the operations of the object go by. `stamp v` is the
object with `v` in the place of every stamp and the rest as it was, so that an object is
`stamp v x` exactly if all its stamps are `v` and it is `x` but for the stamps
(`eq_stamp_iff`).
-/
import RoflCommon.Lib.Omap

namespace RoflCommon

class Stamped (V : outParam Type) (α : Type) where
  stamps : α → List V
  reads : α → List V
  stamp : V → α → α
  reads_subset (x : α) : reads x ⊆ stamps x
  stamp_stamp (v w : V) (x : α) : stamp w (stamp v x) = stamp w x
  stamp_eq_self (v : V) (x : α) : stamp v x = x ↔ ∀ w ∈ stamps x, w = v

namespace Stamped

variable {V α κ : Type}

/-- What carries no stamp. -/
@[reducible] def plain : Stamped V α where
  stamps _ := []
  reads _ := []
  stamp _ x := x
  reads_subset _ := List.Subset.refl _
  stamp_stamp _ _ _ := rfl
  stamp_eq_self _ _ := by simp

section

variable [Stamped V α]

theorem stamps_stamp (v : V) (x : α) : ∀ w ∈ stamps (stamp v x), w = v :=
  (stamp_eq_self v (stamp v x)).mp (stamp_stamp v v x)

/-- `y` is `x` but for the stamps. -/
def SameBut (x y : α) : Prop := ∀ w, stamp w y = stamp (V := V) w x

theorem eq_stamp_iff {v : V} {x y : α} : y = stamp v x ↔ (∀ w ∈ stamps y, w = v) ∧ SameBut (V := V) x y := by
  constructor
  · intro h
    subst h
    exact ⟨stamps_stamp v x, fun w => stamp_stamp v w x⟩
  · intro h
    obtain ⟨hall, hsame⟩ := h
    rw [← hsame v]
    exact ((stamp_eq_self v y).mpr hall).symm

end

/-! ## Maps -/

section

variable [LinearOrder κ] [Stamped V α]

theorem map_stamp_eq_self {v : V} {m : Omap κ α} :
    (m.map fun _ => stamp v) = m ↔ ∀ w ∈ m.values.flatMap stamps, w = v := by
  have hentries : (m.map fun _ => stamp v) = m ↔ ∀ e ∈ m.entries, stamp v e.2 = e.2 := by
    rw [Omap.ext_iff]
    show m.entries.map (fun e => (e.1, stamp v e.2)) = m.entries ↔ _
    conv_lhs => rhs; rw [← List.map_id m.entries]
    rw [List.map_inj_left]
    simp only [id, Prod.ext_iff, true_and]
  rw [hentries]
  simp only [stamp_eq_self, List.mem_flatMap, Omap.values, List.mem_map]
  constructor
  · intro h w hw
    obtain ⟨x, ⟨e, he, rfl⟩, hwx⟩ := hw
    exact h e he w hwx
  · intro h e he w hw
    exact h w ⟨e.2, ⟨e, he, rfl⟩, hw⟩

instance : Stamped V (Omap κ α) where
  stamps m := m.values.flatMap stamps
  reads m := m.values.flatMap reads
  stamp v m := m.map fun _ => stamp v
  reads_subset m := by
    intro w hw
    obtain ⟨x, hx, hwx⟩ := List.mem_flatMap.mp hw
    exact List.mem_flatMap.mpr ⟨x, hx, reads_subset x hwx⟩
  stamp_stamp v w m := by
    apply Omap.ext
    simp [Omap.map, stamp_stamp]
  stamp_eq_self _ _ := map_stamp_eq_self

/-- Two functions on the entries agree on a map exactly if they agree on its entries. -/
theorem map_eq_stamp_iff {v : V} {f : α → α} {m : Omap κ α} :
    (m.map fun _ => f) = stamp v m ↔ ∀ x ∈ m.values, f x = stamp v x := by
  rw [Omap.ext_iff]
  show m.entries.map (fun e => (e.1, f e.2)) = m.entries.map (fun e => (e.1, stamp v e.2)) ↔ _
  simp only [List.map_inj_left, Omap.values, List.mem_map, Prod.ext_iff, true_and, Prod.forall, Prod.exists,
    exists_eq_right, forall_exists_index]
  exact forall_comm

end

end Stamped

end RoflCommon
