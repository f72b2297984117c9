/-
Numbers in network byte order: `octets n v` writes the low `n` octets of `v`,
`number` reads octets back. Writing loses what does not fit (`number_octets`),
reading loses nothing (`octets_number`). `field` reads out of the middle of a
buffer.
-/
import Mathlib.Algebra.Order.Ring.Nat
import Mathlib.Data.Nat.ModEq
import Mathlib.Tactic.Ring

namespace Octets

/-- The low `n` octets of `v`, the highest of them first. -/
def octets : ℕ → ℕ → List UInt8
  | 0, _ => []
  | n + 1, v => UInt8.ofNat (v / 256 ^ n) :: octets n v

/-- What the octets stand for. -/
def number : List UInt8 → ℕ
  | [] => 0
  | b :: bs => b.toNat * 256 ^ bs.length + number bs

@[simp] theorem length_octets (n v : ℕ) : (octets n v).length = n := by
  induction n with
  | zero => rfl
  | succ n ih => simp [octets, ih]

@[simp] theorem take_octets (n v : ℕ) : (octets n v).take n = octets n v :=
  List.take_of_length_le (length_octets n v).le

theorem number_lt (bs : List UInt8) : number bs < 256 ^ bs.length := by
  induction bs with
  | nil => simp [number]
  | cons b bs ih =>
    have hb : b.toNat + 1 ≤ 256 := b.toNat_lt
    calc number (b :: bs) < b.toNat * 256 ^ bs.length + 256 ^ bs.length := by simpa [number] using ih
      _ = (b.toNat + 1) * 256 ^ bs.length := by ring
      _ ≤ 256 * 256 ^ bs.length := Nat.mul_le_mul_right _ hb
      _ = 256 ^ (b :: bs).length := by rw [List.length_cons, pow_succ, mul_comm]

/-- What does not fit is lost. -/
theorem number_octets (n v : ℕ) : number (octets n v) = v % 256 ^ n := by
  induction n with
  | zero => simp [octets, number, Nat.mod_one]
  | succ n ih =>
    have hhead : (UInt8.ofNat (v / 256 ^ n)).toNat = v / 256 ^ n % 256 := UInt8.toNat_ofNat'
    rw [octets, number, ih, hhead, length_octets, Nat.mod_pow_succ]
    ring

theorem number_octets_of_lt {n v : ℕ} (h : v < 256 ^ n) : number (octets n v) = v := by
  rw [number_octets, Nat.mod_eq_of_lt h]

theorem octets_add_mul (n k v : ℕ) : octets n (k * 256 ^ n + v) = octets n v := by
  induction n generalizing k with
  | zero => rfl
  | succ n ih =>
    have hpow : k * 256 ^ (n + 1) = k * 256 * 256 ^ n := by ring
    have hdiv : (k * 256 * 256 ^ n + v) / 256 ^ n = k * 256 + v / 256 ^ n := by
      rw [add_comm, Nat.add_mul_div_right _ _ (Nat.pow_pos (by decide)), add_comm]
    rw [hpow, octets, octets, hdiv, ih]
    congr 1
    apply UInt8.toNat_inj.mp
    simp

/-- Nothing is lost in reading. -/
theorem octets_mod (n v : ℕ) : octets n (v % 256 ^ n) = octets n v := by
  conv_rhs => rw [← Nat.div_add_mod' v (256 ^ n)]
  exact (octets_add_mul n _ _).symm

theorem octets_number (bs : List UInt8) : octets bs.length (number bs) = bs := by
  induction bs with
  | nil => rfl
  | cons b bs ih =>
    have hdiv : (b.toNat * 256 ^ bs.length + number bs) / 256 ^ bs.length = b.toNat := by
      rw [add_comm, Nat.add_mul_div_right _ _ (Nat.pow_pos (by decide)), Nat.div_eq_of_lt (number_lt bs), zero_add]
    rw [List.length_cons, octets, number, hdiv, octets_add_mul, ih, UInt8.ofNat_toNat]

/-- The high octets stand before the low ones. -/
theorem octets_add (m n v : ℕ) : octets (m + n) v = octets m (v / 256 ^ n) ++ octets n v := by
  induction m with
  | zero => rw [Nat.zero_add, octets, List.nil_append]
  | succ m ih =>
    rw [Nat.succ_add, octets, ih, octets, List.cons_append, Nat.div_div_eq_div_mul, ← pow_add, Nat.add_comm n m]

theorem number_append (a b : List UInt8) : number (a ++ b) = number a * 256 ^ b.length + number b := by
  induction a with
  | nil => rw [List.nil_append, number, zero_mul, zero_add]
  | cons x a ih =>
    rw [List.cons_append, number, number, ih, List.length_append, pow_add]
    ring

/-! ### Fields of a buffer -/

/-- The number in the `n` octets from `off`. -/
def field (buf : List UInt8) (off n : ℕ) : ℕ := number ((buf.drop off).take n)

theorem field_lt (buf : List UInt8) (off n : ℕ) : field buf off n < 256 ^ n :=
  (number_lt _).trans_le (Nat.pow_le_pow_right (by decide) (List.length_take_le n _))

theorem field_octets (n v : ℕ) (rest : List UInt8) : field (octets n v ++ rest) 0 n = v % 256 ^ n := by
  rw [field, List.drop_zero, List.take_left' (length_octets n v), number_octets]

theorem field_octets_of_lt {n v : ℕ} (h : v < 256 ^ n) (rest : List UInt8) : field (octets n v ++ rest) 0 n = v := by
  rw [field_octets, Nat.mod_eq_of_lt h]

theorem field_append_right {a : List UInt8} {off : ℕ} (h : a.length ≤ off) (b : List UInt8) (n : ℕ) :
    field (a ++ b) off n = field b (off - a.length) n := by
  rw [field, field, List.drop_append, List.drop_eq_nil_of_le h, List.nil_append]

theorem field_append_left {a : List UInt8} {off n : ℕ} (h : off + n ≤ a.length) (b : List UInt8) :
    field (a ++ b) off n = field a off n := by
  have hle : n ≤ (a.drop off).length := by
    rw [List.length_drop]
    omega
  rw [field, field, List.drop_append_of_le_length (by omega), List.take_append_of_le_length hle]

/-- A field that begins with all of `a`. -/
theorem field_append_across (a : List UInt8) {b : List UInt8} {n : ℕ} (h : n ≤ b.length) :
    field (a ++ b) 0 (a.length + n) = number a * 256 ^ n + field b 0 n := by
  rw [field, field, List.drop_zero, List.drop_zero, List.take_length_add_append, number_append,
    List.length_take_of_le h]

theorem field_drop (buf : List UInt8) (m off n : ℕ) : field (buf.drop m) off n = field buf (m + off) n := by
  rw [field, field, List.drop_drop]

theorem field_take {buf : List UInt8} {m off n : ℕ} (h : off + n ≤ m) : field (buf.take m) off n = field buf off n := by
  rw [field, field, List.drop_take, List.take_take, Nat.min_eq_left (by omega)]

theorem number_replicate (n : ℕ) : number (.replicate n 0) = 0 := by
  induction n with
  | zero => rfl
  | succ n ih => simp [List.replicate_succ, number, ih]

theorem field_replicate (m off n : ℕ) : field (.replicate m 0) off n = 0 := by
  rw [field, List.drop_replicate, List.take_replicate, number_replicate]

end Octets
