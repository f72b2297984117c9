/-
Finite sets of natural numbers as lists of machine words: number `v` is bit
`v % w` of word `v / w`. Membership through insertion and through the
wordwise conjunction of two such sets of any lengths, and the largest member
as a downward search finds it.
-/
import Mathlib.Tactic.Common

namespace Wordset

variable {w : Nat}

/-- Bit `v % w` of word `v / w`; a word past the end counts as zero. -/
def test (bs : List (BitVec w)) (v : Nat) : Bool :=
  (bs.getD (v / w) 0#w).getLsbD (v % w)

/-- Sets a bit of a word that is there. -/
def setBit (bs : List (BitVec w)) (v : Nat) : List (BitVec w) :=
  bs.modify (v / w) (· ||| (1#w <<< (v % w)))

/-- Clears a bit; a word past the end has none. -/
def clearBit (bs : List (BitVec w)) (v : Nat) : List (BitVec w) :=
  bs.modify (v / w) (· &&& ~~~(1#w <<< (v % w)))

/-- Appends zero words up to length `n`. -/
def padTo (n : Nat) (bs : List (BitVec w)) : List (BitVec w) :=
  bs ++ List.replicate (n - bs.length) 0#w

/-- The wordwise conjunction, as long as the shorter set. -/
def inter (as bs : List (BitVec w)) : List (BitVec w) :=
  as.zipWith (· &&& ·) bs

/-- The largest member, searched downwards from the top bit of the last word. -/
def highest (bs : List (BitVec w)) : Option Nat :=
  (List.range (bs.length * w)).reverse.find? (test bs)

@[simp] theorem test_nil (v : Nat) : test ([] : List (BitVec w)) v = false := by
  simp [test]

theorem test_eq_false_of_le {bs : List (BitVec w)} {v : Nat} (hw : 0 < w)
    (h : bs.length * w ≤ v) : test bs v = false := by
  have hv : bs.length ≤ v / w := (Nat.le_div_iff_mul_le hw).mpr h
  simp [test, List.getD_eq_getElem?_getD, List.getElem?_eq_none hv]

theorem lt_of_test {bs : List (BitVec w)} {v : Nat} (hw : 0 < w) (h : test bs v = true) :
    v < bs.length * w := by
  by_contra hge
  rw [test_eq_false_of_le hw (by omega)] at h
  cases h

@[simp] theorem length_padTo (n : Nat) (bs : List (BitVec w)) :
    (padTo n bs).length = max n bs.length := by
  simp only [padTo, List.length_append, List.length_replicate]
  omega

@[simp] theorem test_padTo (n : Nat) (bs : List (BitVec w)) (v : Nat) :
    test (padTo n bs) v = test bs v := by
  simp only [test, padTo, List.getD_eq_getElem?_getD, List.getElem?_append]
  split
  · rfl
  · next h =>
    rw [List.getElem?_eq_none (l := bs) (by omega), List.getElem?_replicate]
    split <;> simp

theorem getLsbD_one_shiftLeft {n i : Nat} (hn : n < w) :
    (1#w <<< n).getLsbD i = decide (i = n) := by
  rw [BitVec.getLsbD_shiftLeft, BitVec.getLsbD_one]
  by_cases h : i = n
  · subst h
    simp [hn]
    omega
  · have : i < n ∨ i - n ≠ 0 := by omega
    rcases this with hlt | hne
    · simp [h, hlt]
    · simp [h, hne]

/-- Setting a bit of a word that is there adds exactly that member. -/
theorem test_setBit {bs : List (BitVec w)} {v : Nat} (hw : 0 < w) (hv : v / w < bs.length)
    (u : Nat) : test (setBit bs v) u = (decide (u = v) || test bs u) := by
  simp only [test, setBit, List.getD_eq_getElem?_getD, List.getElem?_modify]
  by_cases hword : v / w = u / w
  · have hu : u / w < bs.length := hword ▸ hv
    have hbit : (u % w = v % w) ↔ u = v := by
      constructor
      · intro h
        rw [← Nat.div_add_mod u w, ← Nat.div_add_mod v w, hword, h]
      · intro h
        rw [h]
    simp only [hword, if_true, List.getElem?_eq_getElem hu, Option.map_eq_map, Option.map_some, Option.getD_some,
      BitVec.getLsbD_or, getLsbD_one_shiftLeft (Nat.mod_lt v hw), hbit]
    exact Bool.or_comm _ _
  · have hne : u ≠ v := fun h => hword (by rw [h])
    simp [hword, hne]

@[simp] theorem length_clearBit (bs : List (BitVec w)) (v : Nat) : (clearBit bs v).length = bs.length :=
  List.length_modify _ _ _

/-- Clearing a bit takes exactly that member out. -/
theorem test_clearBit (bs : List (BitVec w)) {v : Nat} (hw : 0 < w) (u : Nat) :
    test (clearBit bs v) u = (!decide (u = v) && test bs u) := by
  simp only [test, clearBit, List.getD_eq_getElem?_getD, List.getElem?_modify]
  by_cases hword : v / w = u / w
  · have hbit : (u % w = v % w) ↔ u = v := by
      refine ⟨fun h => ?_, fun h => by rw [h]⟩
      rw [← Nat.div_add_mod u w, ← Nat.div_add_mod v w, hword, h]
    have hlt : u % w < w := Nat.mod_lt u hw
    cases hbs : bs[u / w]? with
    | none => simp [hword]
    | some b =>
      simp only [hword, if_true, Option.map_eq_map, Option.map_some, Option.getD_some, BitVec.getLsbD_and,
        BitVec.getLsbD_not, getLsbD_one_shiftLeft (Nat.mod_lt v hw), hbit, hlt, decide_true, Bool.true_and]
      exact Bool.and_comm _ _
  · have hne : u ≠ v := fun h => hword (by rw [h])
    simp [hword, hne]

@[simp] theorem length_inter (as bs : List (BitVec w)) :
    (inter as bs).length = min as.length bs.length := by
  simp [inter]

@[simp] theorem test_inter (as bs : List (BitVec w)) (v : Nat) :
    test (inter as bs) v = (test as v && test bs v) := by
  simp only [test, inter, List.getD_eq_getElem?_getD, List.getElem?_zipWith]
  cases as[v / w]? <;> cases bs[v / w]? <;> simp

/-! ## The largest member -/

theorem test_of_highest {bs : List (BitVec w)} {v : Nat} (h : highest bs = some v) :
    test bs v = true :=
  List.find?_some h

theorem highest_eq_none (hw : 0 < w) {bs : List (BitVec w)} :
    highest bs = none ↔ ∀ v, test bs v = false := by
  simp only [highest, List.find?_eq_none, List.mem_reverse, List.mem_range, Bool.not_eq_true]
  constructor
  · intro h v
    by_contra hv
    exact hv (h v (lt_of_test hw (by simpa using hv)))
  · exact fun h v _ => h v

theorem le_of_highest (hw : 0 < w) {bs : List (BitVec w)} {v u : Nat} (h : highest bs = some v)
    (hu : test bs u = true) : u ≤ v := by
  by_contra hlt
  obtain ⟨-, as, cs, hsplit, has⟩ := List.find?_eq_some_iff_append.mp h
  have hmem : u ∈ (List.range (bs.length * w)).reverse := by simpa using lt_of_test hw hu
  have hsorted : (List.range (bs.length * w)).reverse.Pairwise (· > ·) := by
    simpa [List.pairwise_reverse] using List.pairwise_lt_range
  rw [hsplit] at hmem hsorted
  simp only [List.mem_append, List.mem_cons] at hmem
  rcases hmem with hu' | rfl | hu'
  · simpa [hu] using has u hu'
  · omega
  · have := (List.pairwise_append.mp hsorted).2.1
    have := (List.pairwise_cons.mp this).1 u hu'
    omega

/-- The largest member is the one member no member exceeds. -/
theorem highest_eq_some (hw : 0 < w) {bs : List (BitVec w)} {v : Nat} :
    highest bs = some v ↔ test bs v = true ∧ ∀ u, test bs u = true → u ≤ v := by
  constructor
  · exact fun h => ⟨test_of_highest h, fun u hu => le_of_highest hw h hu⟩
  · rintro ⟨hv, hmax⟩
    cases h : highest bs with
    | none => rw [(highest_eq_none hw).mp h v] at hv; cases hv
    | some u =>
      have h₁ := hmax u (test_of_highest h)
      have h₂ := le_of_highest hw h hv
      rw [Nat.le_antisymm h₁ h₂]

end Wordset
