/-
Splitting a list into pieces, as a loop within a loop does it: items are added
to a piece while its length is short of a limit, and pieces are begun while
items are left.

The loops build their pieces by any operation `add`. Where the length of a
piece is the total weight of its items, what they build are the pieces of
`groups` (`pieces_eq`), and what holds of these holds of the loops: they make
up the list, and all of them stay within a bound exactly when no item takes a
piece past it (`Fits`).
-/
import Mathlib.Data.List.Infix
import Mathlib.Tactic.Common

namespace Chunks

variable {α β : Type*}

/-! ## The loops -/

/-- The inner loop: what it builds, and the items it leaves. -/
def fill (add : β → α → β) (length : β → Nat) (limit : Nat) (b : β) : List α → β × List α
  | [] => (b, [])
  | x :: xs => if length b < limit then fill add length limit (add b x) xs else (b, x :: xs)

/-- The outer loop, of at most `n` rounds. -/
def pieces (add : β → α → β) (length : β → Nat) (limit : Nat) (new : β) : Nat → List α → List β
  | 0, _ => []
  | _ + 1, [] => []
  | n + 1, x :: xs =>
    let (b, rest) := fill add length limit new (x :: xs)
    b :: pieces add length limit new n rest

/-- Items that are changed as they are added. -/
theorem pieces_map {γ : Type*} (add : β → α → β) (length : β → Nat) (limit : Nat) (new : β) (f : γ → α) (n : Nat)
    (xs : List γ) :
    pieces (fun b x => add b (f x)) length limit new n xs = pieces add length limit new n (xs.map f) := by
  have hfill : ∀ b ys, fill add length limit b (ys.map f) =
      ((fill (fun b x => add b (f x)) length limit b ys).1,
        (fill (fun b x => add b (f x)) length limit b ys).2.map f) := by
    intro b ys
    induction ys generalizing b with
    | nil => rfl
    | cons y ys ih =>
      simp only [List.map_cons, fill]
      split
      · exact ih _
      · rfl
  induction n generalizing xs with
  | zero => rfl
  | succ n ih =>
    cases xs with
    | nil => rfl
    | cons x xs =>
      have hcons := hfill new (x :: xs)
      rw [List.map_cons] at hcons
      simp only [List.map_cons, pieces, hcons, ih]

/-! ## Groups of items -/

/-- The total weight of items. -/
def total (w : α → Nat) : List α → Nat
  | [] => 0
  | x :: xs => w x + total w xs

@[simp] theorem total_append (w : α → Nat) (xs ys : List α) : total w (xs ++ ys) = total w xs + total w ys := by
  induction xs with
  | nil => simp [total]
  | cons x xs ih =>
    simp only [List.cons_append, total, ih]
    omega

/-- The rest of a group that weighs `acc` so far, and the groups after it. -/
def cut (w : α → Nat) (limit : Nat) (acc : Nat) : List α → List α × List (List α)
  | [] => ([], [])
  | x :: xs =>
    if acc < limit then
      let (g, gs) := cut w limit (acc + w x) xs
      (x :: g, gs)
    else
      let (g, gs) := cut w limit (w x) xs
      ([], (x :: g) :: gs)

def groups (w : α → Nat) (limit : Nat) : List α → List (List α)
  | [] => []
  | x :: xs =>
    let (g, gs) := cut w limit (w x) xs
    (x :: g) :: gs

section

variable (w : α → Nat) (limit : Nat)

theorem cut_flatten (acc : Nat) (xs : List α) : (cut w limit acc xs).1 ++ (cut w limit acc xs).2.flatten = xs := by
  induction xs generalizing acc with
  | nil => rfl
  | cons x xs ih =>
    unfold cut
    split
    · simpa using ih (acc + w x)
    · simpa using ih (w x)

/-- The groups make up the list. -/
theorem groups_flatten (xs : List α) : (groups w limit xs).flatten = xs := by
  cases xs with
  | nil => rfl
  | cons x xs => simpa [groups] using cut_flatten w limit (w x) xs

/-- The groups after a group are those of the items after it. -/
theorem groups_cut (acc : Nat) (xs : List α) :
    groups w limit (cut w limit acc xs).2.flatten = (cut w limit acc xs).2 := by
  induction xs generalizing acc with
  | nil => rfl
  | cons x xs ih =>
    unfold cut
    split
    · simpa using ih (acc + w x)
    · simp [groups, cut_flatten]

theorem groups_ne_nil {xs : List α} (h : xs ≠ []) : groups w limit xs ≠ [] := by
  cases xs with
  | nil => exact absurd rfl h
  | cons x xs => simp [groups]

end

/-! ## What the loops build -/

section

variable {add : β → α → β} {length : β → Nat} {limit : Nat} {new : β} {w : α → Nat}

theorem fill_eq (g : List α) {xs : List α}
    (hlen : ∀ h, h <+: g ++ xs → length (h.foldl add new) = total w h) :
    fill add length limit (g.foldl add new) xs =
      ((g ++ (cut w limit (total w g) xs).1).foldl add new, (cut w limit (total w g) xs).2.flatten) := by
  induction xs generalizing g with
  | nil => simp [fill, cut]
  | cons x xs ih =>
    have hg := hlen g (List.prefix_append _ _)
    unfold fill cut
    rw [hg]
    split
    · have hnext := ih (g ++ [x]) (by simpa using hlen)
      simpa [total] using hnext
    · simp [cut_flatten]

/-- The pieces are built from the groups, when their lengths are the total
weights of their items. -/
theorem pieces_eq (hlimit : 0 < limit) {n : Nat} {xs : List α} (hn : xs.length ≤ n)
    (hlen : ∀ h, h <:+: xs → length (h.foldl add new) = total w h) :
    pieces add length limit new n xs = (groups w limit xs).map fun g => g.foldl add new := by
  induction n generalizing xs with
  | zero =>
    obtain rfl : xs = [] := List.length_eq_zero_iff.mp (by omega)
    rfl
  | succ n ih =>
    cases xs with
    | nil => rfl
    | cons x xs =>
      have hnew : length new = 0 := hlen [] (List.nil_infix)
      have hfill : fill add length limit new (x :: xs) =
          ((x :: (cut w limit (w x) xs).1).foldl add new, (cut w limit (w x) xs).2.flatten) := by
        have htail : fill add length limit (add new x) xs =
            (([x] ++ (cut w limit (total w [x]) xs).1).foldl add new, (cut w limit (total w [x]) xs).2.flatten) :=
          fill_eq [x] fun h hh => hlen h hh.isInfix
        simpa [fill, hnew, hlimit, total] using htail
      have hsuffix : (cut w limit (w x) xs).2.flatten <:+ x :: xs := by
        refine ⟨x :: (cut w limit (w x) xs).1, ?_⟩
        simp [cut_flatten]
      have hlength : (cut w limit (w x) xs).2.flatten.length ≤ n := by
        have := congrArg List.length (cut_flatten w limit (w x) xs)
        simp only [List.length_append, List.length_cons] at this hn
        omega
      have hrest := ih hlength fun h hh => hlen h (hh.trans hsuffix.isInfix)
      simp only [pieces, hfill, hrest, groups_cut]
      rfl

end

/-! ## One group -/

section

variable {w : α → Nat} {limit : Nat}

theorem cut_eq_nil (acc : Nat) (xs : List α) :
    (cut w limit acc xs).2 = [] ↔ xs = [] ∨ acc + total w xs.dropLast < limit := by
  induction xs generalizing acc with
  | nil => simp [cut]
  | cons x xs ih =>
    unfold cut
    split
    next hacc =>
      rw [ih]
      cases xs with
      | nil => simpa [total] using hacc
      | cons y ys => simp [total, Nat.add_assoc]
    next hacc =>
      simp only [List.cons_ne_nil, false_or, false_iff]
      omega

/-- There is one group exactly when all items but the last weigh less than the limit. -/
theorem groups_eq_singleton {xs : List α} (h : xs ≠ []) (hlimit : 0 < limit) :
    groups w limit xs = [xs] ↔ total w xs.dropLast < limit := by
  cases xs with
  | nil => exact absurd rfl h
  | cons x xs =>
    have hcut : (cut w limit (w x) xs).2 = [] ↔ total w (x :: xs).dropLast < limit := by
      rw [cut_eq_nil]
      cases xs with
      | nil => simpa [total] using hlimit
      | cons y ys => simp [total]
    rw [← hcut]
    constructor
    · intro hg
      exact (List.cons.inj hg).2
    · intro hg
      have hall := cut_flatten w limit (w x) xs
      rw [hg] at hall
      simpa [groups, hg] using hall

end

/-! ## Groups within a bound -/

/-- No item takes a group past `max`, when the first one weighs `acc` so far. -/
def Fits (w : α → Nat) (limit max acc : Nat) : List α → Prop
  | [] => True
  | x :: xs =>
    if acc < limit then acc + w x ≤ max ∧ Fits w limit max (acc + w x) xs
    else w x ≤ max ∧ Fits w limit max (w x) xs

instance Fits.decidable (w : α → Nat) (limit max : Nat) :
    ∀ acc xs, Decidable (Fits w limit max acc xs)
  | _, [] => inferInstanceAs (Decidable True)
  | acc, x :: xs =>
    have := Fits.decidable w limit max (acc + w x) xs
    have := Fits.decidable w limit max (w x) xs
    inferInstanceAs (Decidable (if acc < limit then acc + w x ≤ max ∧ Fits w limit max (acc + w x) xs
      else w x ≤ max ∧ Fits w limit max (w x) xs))

section

variable {w : α → Nat} {limit max : Nat}

theorem fits_iff_cut {acc : Nat} {xs : List α} (hacc : acc ≤ max) :
    Fits w limit max acc xs ↔
      acc + total w (cut w limit acc xs).1 ≤ max ∧ ∀ g ∈ (cut w limit acc xs).2, total w g ≤ max := by
  induction xs generalizing acc with
  | nil => simpa [Fits, cut, total] using hacc
  | cons x xs ih =>
    unfold Fits cut
    split
    · by_cases hx : acc + w x ≤ max
      · simp [hx, ih hx, total, Nat.add_assoc]
      · simp only [hx, false_and, total, false_iff, not_and]
        omega
    · by_cases hx : w x ≤ max
      · simp [hx, ih hx, hacc, total]
      · simp only [hx, false_and, total, false_iff, not_and, List.forall_mem_cons]
        omega

/-- **All groups stay within the bound exactly when no item takes one past it.** -/
theorem fits_iff (hlimit : 0 < limit) {xs : List α} :
    (∀ g ∈ groups w limit xs, total w g ≤ max) ↔ Fits w limit max 0 xs := by
  cases xs with
  | nil => simp [groups, Fits]
  | cons x xs =>
    by_cases hx : w x ≤ max
    · simp [groups, Fits, hlimit, hx, fits_iff_cut hx, total]
    · simp only [groups, Fits, hlimit, hx, if_true, Nat.zero_add, false_and, List.forall_mem_cons, total,
        iff_false, not_and]
      omega

/-- Items that fit next to what is short of the limit never take a group past the bound. -/
theorem fits_of_le (hlimit : 0 < limit) (acc : Nat) {xs : List α} (h : ∀ x ∈ xs, limit + w x ≤ max + 1) :
    Fits w limit max acc xs := by
  induction xs generalizing acc with
  | nil => trivial
  | cons x xs ih =>
    have hx := h x (by simp)
    have hxs := fun acc => ih acc fun y hy => h y (by simp [hy])
    unfold Fits
    split
    · exact ⟨by omega, hxs _⟩
    · exact ⟨by omega, hxs _⟩

end

end Chunks
