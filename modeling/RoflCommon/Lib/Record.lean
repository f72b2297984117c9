/-
Records of a fixed layout: numbers in so many octets each, and octets between
them that nobody writes. Writing a record leaves those, and what is behind the
record, as it was (`drop_write`, `write_append`); reading gives back what was
written where each number fits its field (`read_write`).
-/
import RoflCommon.Lib.Octets

namespace Record

open Octets

inductive Slot
  | field (n : ℕ)
  | pad (n : ℕ)
deriving DecidableEq, Repr

abbrev Layout := List Slot

def Slot.size : Slot → ℕ
  | field n => n
  | pad n => n

def size (l : Layout) : ℕ := (l.map Slot.size).sum

/-- The numbers of the fields, one after another, into a buffer. -/
def write : Layout → List ℕ → List UInt8 → List UInt8
  | [], _, buf => buf
  | .pad n :: l, vs, buf => buf.take n ++ write l vs (buf.drop n)
  | .field n :: l, v :: vs, buf => octets n v ++ write l vs (buf.drop n)
  | .field _ :: _, [], buf => buf

def read : Layout → List UInt8 → List ℕ
  | [], _ => []
  | .pad n :: l, buf => read l (buf.drop n)
  | .field n :: l, buf => number (buf.take n) :: read l (buf.drop n)

/-- There is a number for each field, and it fits. -/
def Fits : Layout → List ℕ → Prop
  | [], vs => vs = []
  | .pad _ :: l, vs => Fits l vs
  | .field n :: l, v :: vs => v < 256 ^ n ∧ Fits l vs
  | .field _ :: _, [] => False

@[simp] theorem size_nil : size [] = 0 := rfl

@[simp] theorem size_cons (s : Slot) (l : Layout) : size (s :: l) = s.size + size l := by simp [size]

theorem length_write {l : Layout} {vs : List ℕ} (h : Fits l vs) {buf : List UInt8} (hbuf : size l ≤ buf.length) :
    (write l vs buf).length = buf.length := by
  induction l generalizing vs buf with
  | nil => rfl
  | cons s l ih =>
    rw [size_cons] at hbuf
    have hdrop : size l ≤ (buf.drop s.size).length := by
      rw [List.length_drop]
      omega
    cases s with
    | pad n =>
      rw [Slot.size] at hbuf hdrop
      rw [write, List.length_append, ih h hdrop, List.length_take, List.length_drop]
      omega
    | field n =>
      rw [Slot.size] at hbuf hdrop
      cases vs with
      | nil => exact absurd h id
      | cons v vs =>
        rw [write, List.length_append, length_octets, ih h.2 hdrop, List.length_drop]
        omega

theorem write_append {l : Layout} (vs : List ℕ) {buf : List UInt8} (hbuf : size l ≤ buf.length) (rest : List UInt8) :
    write l vs (buf ++ rest) = write l vs buf ++ rest := by
  induction l generalizing vs buf with
  | nil => rfl
  | cons s l ih =>
    rw [size_cons] at hbuf
    have hdrop : size l ≤ (buf.drop s.size).length := by
      rw [List.length_drop]
      omega
    cases s with
    | pad n =>
      rw [Slot.size] at hbuf hdrop
      rw [write, write, List.take_append_of_le_length (by omega), List.drop_append_of_le_length (by omega), ih _ hdrop,
        List.append_assoc]
    | field n =>
      rw [Slot.size] at hbuf hdrop
      cases vs with
      | nil => rfl
      | cons v vs =>
        rw [write, write, List.drop_append_of_le_length (by omega), ih _ hdrop, List.append_assoc]

theorem read_append {l : Layout} {buf : List UInt8} (hbuf : size l ≤ buf.length) (rest : List UInt8) :
    read l (buf ++ rest) = read l buf := by
  induction l generalizing buf with
  | nil => rfl
  | cons s l ih =>
    rw [size_cons] at hbuf
    have hdrop : size l ≤ (buf.drop s.size).length := by
      rw [List.length_drop]
      omega
    cases s with
    | pad n =>
      rw [Slot.size] at hbuf hdrop
      rw [read, read, List.drop_append_of_le_length (by omega), ih hdrop]
    | field n =>
      rw [Slot.size] at hbuf hdrop
      rw [read, read, List.take_append_of_le_length (by omega), List.drop_append_of_le_length (by omega), ih hdrop]

theorem read_write {l : Layout} {vs : List ℕ} (h : Fits l vs) {buf : List UInt8} (hbuf : size l ≤ buf.length) :
    read l (write l vs buf) = vs := by
  induction l generalizing vs buf with
  | nil => exact h.symm
  | cons s l ih =>
    rw [size_cons] at hbuf
    have hdrop : size l ≤ (buf.drop s.size).length := by
      rw [List.length_drop]
      omega
    cases s with
    | pad n =>
      rw [Slot.size] at hbuf hdrop
      have htake : (buf.take n).length = n := List.length_take_of_le (by omega)
      rw [write, read, List.drop_left' htake, ih h hdrop]
    | field n =>
      rw [Slot.size] at hbuf hdrop
      cases vs with
      | nil => exact absurd h id
      | cons v vs =>
        rw [write, read, List.take_left' (length_octets n v), List.drop_left' (length_octets n v),
          number_octets_of_lt h.1, ih h.2 hdrop]

theorem write_split {l : Layout} (vs : List ℕ) {buf : List UInt8} (h : size l ≤ buf.length) :
    write l vs buf = write l vs (buf.take (size l)) ++ buf.drop (size l) := by
  have htake : (buf.take (size l)).length = size l := List.length_take_of_le h
  rw [← write_append vs htake.ge, List.take_append_drop]

/-- What is behind the record stays. -/
theorem drop_write {l : Layout} {vs : List ℕ} (h : Fits l vs) {buf : List UInt8} (hbuf : size l ≤ buf.length) :
    (write l vs buf).drop (size l) = buf.drop (size l) := by
  have htake : (buf.take (size l)).length = size l := List.length_take_of_le hbuf
  rw [write_split vs hbuf, List.drop_left' ((length_write h htake.ge).trans htake)]

/-- Whatever is read fits. -/
theorem fits_read (l : Layout) (buf : List UInt8) : Fits l (read l buf) := by
  induction l generalizing buf with
  | nil => rfl
  | cons s l ih =>
    cases s with
    | pad n => exact ih _
    | field n =>
      have hlt : number (buf.take n) < 256 ^ n :=
        (number_lt _).trans_le (Nat.pow_le_pow_right (by decide) (List.length_take_le n buf))
      exact ⟨hlt, ih _⟩

end Record
