/-
Bitmaps whose bits stand for ids, with a table for either direction: rows of a bit
and the id to add for it (`ids`), and rows of an id and the bit to set for it
(`bits`). The tables are lists as they are written down, and nothing is taken for
granted of them; `bits_ids` and `mem_ids_bits` say when one direction undoes the
other.
-/
import RoflCommon.Lib.Wordset

namespace Bitrows

variable {ι : Type*} {w : ℕ}

/-- The ids of the bits that are set, in the order of the rows. -/
def ids (rows : List (ℕ × ι)) (m : BitVec w) : List ι :=
  (rows.filter fun row => m &&& (1#w <<< row.1) ≠ 0#w).map Prod.snd

/-- The bits of ids; an id without a row has none. -/
def bits [BEq ι] (rows : List (ι × ℕ)) (is : List ι) : BitVec w :=
  is.foldl (fun m i =>
    match rows.lookup i with
    | none => m
    | some b => m ||| (1#w <<< b)) 0#w

theorem and_ne_zero {m : BitVec w} {b : ℕ} (hb : b < w) : m &&& (1#w <<< b) ≠ 0#w ↔ m.getLsbD b = true := by
  constructor
  · intro hne
    by_contra hbit
    refine hne (BitVec.eq_of_getLsbD_eq fun i hi => ?_)
    rw [BitVec.getLsbD_and, Wordset.getLsbD_one_shiftLeft hb, BitVec.getLsbD_zero]
    by_cases hib : i = b
    · rw [hib, Bool.eq_false_iff.mpr hbit, Bool.false_and]
    · simp [hib]
  · intro hbit h
    have hzero : (m &&& (1#w <<< b)).getLsbD b = false := by rw [h, BitVec.getLsbD_zero]
    rw [BitVec.getLsbD_and, Wordset.getLsbD_one_shiftLeft hb, hbit] at hzero
    simp at hzero

theorem mem_ids {rows : List (ℕ × ι)} (hrows : ∀ row ∈ rows, row.1 < w) {m : BitVec w} {i : ι} :
    i ∈ ids rows m ↔ ∃ b, (b, i) ∈ rows ∧ m.getLsbD b = true := by
  unfold ids
  rw [List.mem_map]
  constructor
  · rintro ⟨row, hrow, rfl⟩
    obtain ⟨hmem, hbit⟩ := List.mem_filter.mp hrow
    exact ⟨row.1, hmem, (and_ne_zero (hrows row hmem)).mp (of_decide_eq_true hbit)⟩
  · rintro ⟨b, hmem, hbit⟩
    exact ⟨(b, i), List.mem_filter.mpr ⟨hmem, decide_eq_true ((and_ne_zero (hrows _ hmem)).mpr hbit)⟩, rfl⟩

variable [BEq ι] [LawfulBEq ι]

theorem mem_of_lookup {rows : List (ι × ℕ)} {i : ι} {b : ℕ} (h : rows.lookup i = some b) : (i, b) ∈ rows := by
  obtain ⟨before, after, hrows, _⟩ := List.lookup_eq_some_iff.mp h
  rw [hrows]
  exact List.mem_append_right _ List.mem_cons_self

theorem getLsbD_foldl {rows : List (ι × ℕ)} (hrows : ∀ row ∈ rows, row.2 < w) (is : List ι)
    (m : BitVec w) (b : ℕ) :
    (is.foldl (fun m i =>
        match rows.lookup i with
        | none => m
        | some b => m ||| (1#w <<< b)) m).getLsbD b = true ↔
      m.getLsbD b = true ∨ ∃ i ∈ is, rows.lookup i = some b := by
  induction is generalizing m with
  | nil => simp
  | cons j is ih =>
    rw [List.foldl_cons, ih]
    cases hj : rows.lookup j with
    | none => simp [hj]
    | some c =>
      have hc : c < w := hrows _ (mem_of_lookup hj)
      have hbit : (m ||| (1#w <<< c)).getLsbD b = true ↔ m.getLsbD b = true ∨ c = b := by
        rw [BitVec.getLsbD_or, Wordset.getLsbD_one_shiftLeft hc, Bool.or_eq_true, decide_eq_true_eq, eq_comm (a := b)]
      simp only [hbit, List.mem_cons, exists_eq_or_imp, hj, Option.some.injEq, or_assoc]

theorem getLsbD_bits {rows : List (ι × ℕ)} (hrows : ∀ row ∈ rows, row.2 < w) {is : List ι} {b : ℕ} :
    (bits rows is : BitVec w).getLsbD b = true ↔ ∃ i ∈ is, rows.lookup i = some b := by
  unfold bits
  rw [getLsbD_foldl hrows]
  simp

/-- Bits to ids and back: every bit that is set has a row, and the id of the row has a
row for that bit. -/
theorem bits_ids {there : List (ℕ × ι)} {back : List (ι × ℕ)} (hthere : ∀ row ∈ there, row.1 < w)
    (hinv : ∀ row ∈ there, back.lookup row.2 = some row.1) (hback : ∀ row ∈ back, row.2 < w)
    {m : BitVec w} (hm : ∀ b < w, m.getLsbD b = true → b ∈ there.map Prod.fst) : bits back (ids there m) = m := by
  refine BitVec.eq_of_getLsbD_eq fun b _ => ?_
  rw [Bool.eq_iff_iff, getLsbD_bits hback]
  constructor
  · rintro ⟨i, hi, hlook⟩
    obtain ⟨c, hrow, hbit⟩ := (mem_ids hthere).mp hi
    have hc := hinv _ hrow
    rw [hlook, Option.some.injEq] at hc
    rw [hc]
    exact hbit
  · intro hbit
    obtain ⟨⟨c, i⟩, hrow, rfl⟩ := List.mem_map.mp (hm b (BitVec.lt_of_getLsbD hbit) hbit)
    exact ⟨i, (mem_ids hthere).mpr ⟨c, hrow, hbit⟩, hinv _ hrow⟩

/-- Ids to bits and back: what comes back are the ids of the rows of the bits. -/
theorem mem_ids_bits {there : List (ℕ × ι)} {back : List (ι × ℕ)} (hthere : ∀ row ∈ there, row.1 < w)
    (hback : ∀ row ∈ back, row.2 < w) {is : List ι} {i : ι} :
    i ∈ ids there (bits back is : BitVec w) ↔ ∃ j ∈ is, ∃ b, back.lookup j = some b ∧ (b, i) ∈ there := by
  rw [mem_ids hthere]
  constructor
  · rintro ⟨b, hrow, hbit⟩
    obtain ⟨j, hj, hlook⟩ := (getLsbD_bits hback).mp hbit
    exact ⟨j, hj, b, hlook, hrow⟩
  · rintro ⟨j, hj, b, hlook, hrow⟩
    exact ⟨b, hrow, (getLsbD_bits hback).mpr ⟨j, hj, hlook⟩⟩

end Bitrows
