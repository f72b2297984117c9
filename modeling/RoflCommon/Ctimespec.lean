/-
`ctimespec`: points in time as seconds and nanoseconds, and the arithmetic of the timers.

`operator+` carries when the nanoseconds are more than a second, not when they are exactly
one. `operator-` has zero for what would be negative; `operator-=` leaves the object as it
is then, and also where the difference is zero. `get_relative_timeout` returns the
milliseconds as an `int`, which is enough for 24 days. `exact_iff_fits` says where none of this
shows.
-/
import Mathlib.Algebra.Order.Ring.Int
import Mathlib.Tactic.Ring
import Mathlib.Tactic.Linarith

namespace RoflCommon

/-- `struct timespec`; the clock that the time is of does not matter to what follows. -/
structure Ctimespec where
  tvSec : ℤ
  tvNsec : ℤ
deriving DecidableEq, Repr

namespace Ctimespec

def CC_TIMER_ONE_SECOND_S : ℤ := 1
def CC_TIMER_ONE_SECOND_NS : ℤ := 1000000000

/-- What a computation in `long`, or in `time_t`, yields, where that is defined. -/
def long (n : ℤ) : Option ℤ := if -9223372036854775808 ≤ n ∧ n ≤ 9223372036854775807 then some n else none

/-- The conversion of a `long` to an `int`. -/
def toInt (n : ℤ) : ℤ := n.bmod 4294967296

/-- `operator+`. -/
def add (a b : Ctimespec) : Option Ctimespec := do
  let sec ← long (a.tvSec + b.tvSec)
  let nsec ← long (a.tvNsec + b.tvNsec)
  if nsec > CC_TIMER_ONE_SECOND_NS then
    return ⟨← long (sec + CC_TIMER_ONE_SECOND_S), ← long (nsec - CC_TIMER_ONE_SECOND_NS)⟩
  else
    return ⟨sec, nsec⟩

/-- `operator-`. -/
def sub (a b : Ctimespec) : Option Ctimespec := do
  if a.tvSec > b.tvSec then
    if b.tvNsec > a.tvNsec then
      let nsec ← long ((← long (a.tvNsec - b.tvNsec)) + CC_TIMER_ONE_SECOND_NS)
      return ⟨← long ((← long (a.tvSec - b.tvSec)) - CC_TIMER_ONE_SECOND_S), nsec⟩
    else
      return ⟨← long (a.tvSec - b.tvSec), ← long (a.tvNsec - b.tvNsec)⟩
  else if a.tvSec = b.tvSec then
    if a.tvNsec > b.tvNsec then return ⟨0, ← long (a.tvNsec - b.tvNsec)⟩
    else return ⟨0, 0⟩
  else return ⟨0, 0⟩

/-- `operator+=`. -/
def addAssign (a b : Ctimespec) : Option Ctimespec := do
  let sec ← long (a.tvSec + b.tvSec)
  let nsec ← long (a.tvNsec + b.tvNsec)
  if nsec > CC_TIMER_ONE_SECOND_NS then
    return ⟨← long (sec + CC_TIMER_ONE_SECOND_S), ← long (nsec - CC_TIMER_ONE_SECOND_NS)⟩
  else
    return ⟨sec, nsec⟩

/-- `operator-=`: nothing is assigned where `operator-` returns what it starts with. -/
def subAssign (a b : Ctimespec) : Option Ctimespec := do
  if a.tvSec > b.tvSec then
    if b.tvNsec > a.tvNsec then
      let nsec ← long ((← long (a.tvNsec - b.tvNsec)) + CC_TIMER_ONE_SECOND_NS)
      return ⟨← long ((← long (a.tvSec - b.tvSec)) - CC_TIMER_ONE_SECOND_S), nsec⟩
    else
      return ⟨← long (a.tvSec - b.tvSec), ← long (a.tvNsec - b.tvNsec)⟩
  else if a.tvSec = b.tvSec then
    if a.tvNsec > b.tvNsec then return ⟨0, ← long (a.tvNsec - b.tvNsec)⟩
    else return a
  else return a

/-- `operator==`. -/
def eq (a b : Ctimespec) : Bool := a.tvSec == b.tvSec && a.tvNsec == b.tvNsec

/-- `operator!=`. -/
def ne (a b : Ctimespec) : Bool := !a.eq b

/-- `operator<`. -/
def lt (a b : Ctimespec) : Bool :=
  if a.tvSec < b.tvSec then true else if a.tvSec > b.tvSec then false else a.tvNsec < b.tvNsec

/-- `operator<=`. -/
def le (a b : Ctimespec) : Bool := a.lt b || a.eq b

/-- `operator>`. -/
def gt (a b : Ctimespec) : Bool :=
  if a.tvSec > b.tvSec then true else if a.tvSec < b.tvSec then false else a.tvNsec > b.tvNsec

/-- `operator>=`. -/
def ge (a b : Ctimespec) : Bool := a.gt b || a.eq b

/-- The milliseconds from a time to this one, as `run_loop` waits for them. -/
def getRelativeTimeout (t referenceTime : Ctimespec) : Option ℤ := do
  let delta ← t.sub referenceTime
  let ms ← long ((← long (1000 * delta.tvSec)) + delta.tvNsec.tdiv 1000000)
  return toInt ms

/-! ## Exact arithmetic -/

/-- The time in nanoseconds. -/
def ns (t : Ctimespec) : ℤ := t.tvSec * 1000000000 + t.tvNsec

/-- Less than a second of nanoseconds, and seconds that a `time_t` has. -/
structure Normalised (t : Ctimespec) : Prop where
  sec_nonneg : 0 ≤ t.tvSec
  sec_le : t.tvSec ≤ 9223372036854775807
  nsec_nonneg : 0 ≤ t.tvNsec
  nsec_lt : t.tvNsec < 1000000000

/-- The operators compare by nanoseconds. -/
structure Compares (a b : Ctimespec) : Prop where
  eq : a.eq b = true ↔ a.ns = b.ns
  ne : a.ne b = true ↔ a.ns ≠ b.ns
  lt : a.lt b = true ↔ a.ns < b.ns
  le : a.le b = true ↔ a.ns ≤ b.ns
  gt : a.gt b = true ↔ b.ns < a.ns
  ge : a.ge b = true ↔ b.ns ≤ a.ns

/-- The arithmetic of two times is that of their nanoseconds. -/
structure Exact (a b : Ctimespec) : Prop where
  add : ∃ c, a.add b = some c ∧ c.Normalised ∧ c.ns = a.ns + b.ns
  addAssign : a.addAssign b = a.add b
  sub : b.ns ≤ a.ns → ∃ c, a.sub b = some c ∧ c.Normalised ∧ c.ns = a.ns - b.ns
  clamp : a.ns < b.ns → a.sub b = some ⟨0, 0⟩
  subAssign : a.subAssign b = a.sub b
  cancel : ∃ c, a.add b = some c ∧ c.sub b = some a
  compares : a.Compares b
  /-- The whole milliseconds that are left, of which none are lost. -/
  timeout : ∃ ms, a.getRelativeTimeout b = some ms ∧ 0 ≤ ms ∧ ms * 1000000 ≤ max 0 (a.ns - b.ns) ∧
    ms = max 0 (a.ns - b.ns) / 1000000

/-- The nanoseconds together are not a second, the seconds are not too many; the first time is
the later one or zero, and less than 2^31 milliseconds away. -/
structure Fits (a b : Ctimespec) : Prop where
  carry : a.tvNsec + b.tvNsec ≠ 1000000000
  sec : a.ns + b.ns < 9223372036854775808 * 1000000000
  later : b.ns < a.ns ∨ a.ns = 0
  near : a.ns - b.ns < 2147483648 * 1000000

theorem long_of_range {n : ℤ} (h : -9223372036854775808 ≤ n) (h' : n ≤ 9223372036854775807) : long n = some n :=
  if_pos ⟨h, h'⟩

/-- The normalised time of so many nanoseconds. -/
def ofNs (n : ℤ) : Ctimespec := ⟨n / 1000000000, n % 1000000000⟩

variable {a b : Ctimespec}

@[simp] theorem ns_ofNs (n : ℤ) : (ofNs n).ns = n := by
  simp only [ns, ofNs]
  omega

theorem normalised_ofNs {n : ℤ} (h : 0 ≤ n) (h' : n < 9223372036854775808 * 1000000000) : (ofNs n).Normalised := by
  refine ⟨?_, ?_, ?_, ?_⟩
  all_goals
    simp only [ofNs]
    omega

namespace Normalised

theorem ns_nonneg (h : a.Normalised) : 0 ≤ a.ns := by
  have := h.sec_nonneg
  have := h.nsec_nonneg
  unfold ns
  omega

theorem ns_lt (h : a.Normalised) : a.ns < 9223372036854775808 * 1000000000 := by
  have := h.sec_le
  have := h.nsec_lt
  unfold ns
  omega

theorem eq_ofNs (h : a.Normalised) : a = ofNs a.ns := by
  obtain ⟨sec, nsec⟩ := a
  have hnonneg : 0 ≤ nsec := h.nsec_nonneg
  have hlt : nsec < 1000000000 := h.nsec_lt
  simp only [ofNs, ns, mk.injEq]
  constructor <;> omega

theorem ns_inj (ha : a.Normalised) (hb : b.Normalised) : a.ns = b.ns ↔ a = b := by
  refine ⟨fun h => ?_, fun h => by rw [h]⟩
  rw [ha.eq_ofNs, hb.eq_ofNs, h]

/-! ### Sum -/

theorem add_eq (ha : a.Normalised) (hb : b.Normalised) (hcarry : a.tvNsec + b.tvNsec ≠ 1000000000)
    (hsec : a.ns + b.ns < 9223372036854775808 * 1000000000) : a.add b = some (ofNs (a.ns + b.ns)) := by
  obtain ⟨ha₁, ha₂, ha₃, ha₄⟩ := ha
  obtain ⟨hb₁, hb₂, hb₃, hb₄⟩ := hb
  unfold ns at hsec ⊢
  have hs : long (a.tvSec + b.tvSec) = some (a.tvSec + b.tvSec) := long_of_range (by omega) (by omega)
  have hn : long (a.tvNsec + b.tvNsec) = some (a.tvNsec + b.tvNsec) := long_of_range (by omega) (by omega)
  have hone : CC_TIMER_ONE_SECOND_S = 1 := rfl
  have hsecond : CC_TIMER_ONE_SECOND_NS = 1000000000 := rfl
  simp only [add, hs, hn, Option.bind_eq_bind, Option.bind_some]
  by_cases hgt : a.tvNsec + b.tvNsec > CC_TIMER_ONE_SECOND_NS
  · have hs' : long (a.tvSec + b.tvSec + CC_TIMER_ONE_SECOND_S) = some (a.tvSec + b.tvSec + 1) :=
      long_of_range (by omega) (by omega)
    have hn' : long (a.tvNsec + b.tvNsec - CC_TIMER_ONE_SECOND_NS) = some (a.tvNsec + b.tvNsec - 1000000000) :=
      long_of_range (by omega) (by omega)
    rw [if_pos hgt, hs', hn']
    simp only [Option.bind_some, Option.pure_def, Option.some.injEq, ofNs, mk.injEq]
    constructor <;> omega
  · rw [if_neg hgt]
    simp only [Option.pure_def, Option.some.injEq, ofNs, mk.injEq]
    constructor <;> omega

/-- Exactly one second of nanoseconds is not carried. -/
theorem add_of_second (h : a.tvNsec + b.tvNsec = 1000000000) {c : Ctimespec} (hc : a.add b = some c) :
    c.tvNsec = 1000000000 := by
  have hn : long 1000000000 = some 1000000000 := long_of_range (by decide) (by decide)
  have hcarry : ¬(1000000000 : ℤ) > CC_TIMER_ONE_SECOND_NS := by decide
  simp only [add, h, hn, Option.bind_eq_bind, Option.bind_some, if_neg hcarry] at hc
  obtain ⟨sec, -, hc⟩ := Option.bind_eq_some_iff.mp hc
  obtain rfl := Option.some.inj hc
  rfl

theorem exists_add_iff (ha : a.Normalised) (hb : b.Normalised) :
    (∃ c, a.add b = some c ∧ c.Normalised ∧ c.ns = a.ns + b.ns) ↔
      a.tvNsec + b.tvNsec ≠ 1000000000 ∧ a.ns + b.ns < 9223372036854775808 * 1000000000 := by
  constructor
  · intro ⟨c, hc, hnormal, hns⟩
    refine ⟨fun hsecond => ?_, hns ▸ hnormal.ns_lt⟩
    have hnsec := add_of_second hsecond hc
    have := hnormal.nsec_lt
    omega
  · intro ⟨hcarry, hsec⟩
    have := ha.ns_nonneg
    have := hb.ns_nonneg
    exact ⟨_, add_eq ha hb hcarry hsec, normalised_ofNs (by omega) hsec, ns_ofNs _⟩

/-! ### Difference -/

/-- `operator-` is exact, and zero where the difference would be negative. -/
theorem sub_eq (ha : a.Normalised) (hb : b.Normalised) : a.sub b = some (ofNs (max 0 (a.ns - b.ns))) := by
  obtain ⟨ha₁, ha₂, ha₃, ha₄⟩ := ha
  obtain ⟨hb₁, hb₂, hb₃, hb₄⟩ := hb
  unfold ns
  have hs : long (a.tvSec - b.tvSec) = some (a.tvSec - b.tvSec) := long_of_range (by omega) (by omega)
  have hn : long (a.tvNsec - b.tvNsec) = some (a.tvNsec - b.tvNsec) := long_of_range (by omega) (by omega)
  simp only [sub, hs, hn, CC_TIMER_ONE_SECOND_NS, CC_TIMER_ONE_SECOND_S, Option.bind_eq_bind, Option.bind_some,
    Option.pure_def]
  by_cases hsec : a.tvSec > b.tvSec
  · rw [if_pos hsec]
    by_cases hborrow : b.tvNsec > a.tvNsec
    · have hn' : long (a.tvNsec - b.tvNsec + 1000000000) = some (a.tvNsec - b.tvNsec + 1000000000) :=
        long_of_range (by omega) (by omega)
      have hs' : long (a.tvSec - b.tvSec - 1) = some (a.tvSec - b.tvSec - 1) := long_of_range (by omega) (by omega)
      rw [if_pos hborrow, hn', hs']
      simp only [Option.bind_some, Option.some.injEq, ofNs, mk.injEq]
      constructor <;> omega
    · rw [if_neg hborrow]
      simp only [Option.some.injEq, ofNs, mk.injEq]
      constructor <;> omega
  · rw [if_neg hsec]
    split_ifs with heq hnsec
    · simp only [Option.some.injEq, ofNs, mk.injEq]
      constructor <;> omega
    · simp only [Option.some.injEq, ofNs, mk.injEq]
      constructor <;> omega
    · simp only [Option.some.injEq, ofNs, mk.injEq]
      constructor <;> omega

/-- `operator-=` is it where something is left. -/
theorem subAssign_eq (ha : a.Normalised) (hb : b.Normalised) :
    a.subAssign b = if b.ns < a.ns then a.sub b else some a := by
  obtain ⟨ha₁, ha₂, ha₃, ha₄⟩ := ha
  obtain ⟨hb₁, hb₂, hb₃, hb₄⟩ := hb
  unfold ns subAssign sub
  by_cases hsec : a.tvSec > b.tvSec
  · have hlt : b.tvSec * 1000000000 + b.tvNsec < a.tvSec * 1000000000 + a.tvNsec := by omega
    simp only [if_pos hsec, if_pos hlt]
  · by_cases heq : a.tvSec = b.tvSec
    · by_cases hnsec : a.tvNsec > b.tvNsec
      · have hlt : b.tvSec * 1000000000 + b.tvNsec < a.tvSec * 1000000000 + a.tvNsec := by omega
        simp only [if_neg hsec, if_pos heq, if_pos hnsec, if_pos hlt]
      · have hge : ¬b.tvSec * 1000000000 + b.tvNsec < a.tvSec * 1000000000 + a.tvNsec := by omega
        simp only [if_neg hsec, if_pos heq, if_neg hnsec, if_neg hge, Option.pure_def]
    · have hge : ¬b.tvSec * 1000000000 + b.tvNsec < a.tvSec * 1000000000 + a.tvNsec := by omega
      simp only [if_neg hsec, if_neg heq, if_neg hge, Option.pure_def]

theorem subAssign_eq_sub_iff (ha : a.Normalised) (hb : b.Normalised) :
    a.subAssign b = a.sub b ↔ b.ns < a.ns ∨ a.ns = 0 := by
  rw [ha.subAssign_eq hb]
  by_cases hlt : b.ns < a.ns
  · simp [hlt]
  · have hzero : a.sub b = some (ofNs 0) := by
      rw [ha.sub_eq hb, max_eq_left (by omega)]
    rw [if_neg hlt, hzero, Option.some.injEq, or_iff_right hlt]
    refine ⟨fun h => by rw [h, ns_ofNs], fun h => ?_⟩
    rw [ha.eq_ofNs, h]

/-! ### Comparison -/

theorem compares (ha : a.Normalised) (hb : b.Normalised) : a.Compares b := by
  obtain ⟨ha₁, ha₂, ha₃, ha₄⟩ := ha
  obtain ⟨hb₁, hb₂, hb₃, hb₄⟩ := hb
  have heq : a.eq b = true ↔ a.ns = b.ns := by
    unfold ns eq
    rw [Bool.and_eq_true, beq_iff_eq, beq_iff_eq]
    omega
  have hlt : a.lt b = true ↔ a.ns < b.ns := by
    unfold ns lt
    split_ifs with hless hmore
    · exact iff_of_true rfl (by omega)
    · exact iff_of_false (by decide) (by omega)
    · rw [decide_eq_true_eq]
      omega
  have hgt : a.gt b = true ↔ b.ns < a.ns := by
    unfold ns gt
    split_ifs with hmore hless
    · exact iff_of_true rfl (by omega)
    · exact iff_of_false (by decide) (by omega)
    · rw [decide_eq_true_eq]
      omega
  refine ⟨heq, ?_, hlt, ?_, hgt, ?_⟩
  · rw [ne, Bool.not_eq_true', ← Bool.not_eq_true, heq]
  · rw [le, Bool.or_eq_true, hlt, heq]
    omega
  · rw [ge, Bool.or_eq_true, hgt, heq]
    omega

/-! ### The time left -/

theorem getRelativeTimeout_eq (ha : a.Normalised) (hb : b.Normalised) (hnear : a.ns - b.ns < 2147483648 * 1000000) :
    a.getRelativeTimeout b = some (max 0 (a.ns - b.ns) / 1000000) := by
  generalize hleft : max 0 (a.ns - b.ns) = left
  have hmax : 0 ≤ left ∧ left < 2147483648 * 1000000 := by omega
  have hsec : long (1000 * (left / 1000000000)) = some (1000 * (left / 1000000000)) :=
    long_of_range (by omega) (by omega)
  have hms : 1000 * (left / 1000000000) + (left % 1000000000) / 1000000 = left / 1000000 := by omega
  have hlong : long (left / 1000000) = some (left / 1000000) := long_of_range (by omega) (by omega)
  have hint : toInt (left / 1000000) = left / 1000000 :=
    Int.bmod_eq_of_le_mul_two (by push_cast; omega) (by push_cast; omega)
  rw [getRelativeTimeout, ha.sub_eq hb, hleft]
  simp only [ofNs, Option.bind_eq_bind, Option.bind_some, hsec, Option.pure_def]
  rw [Int.tdiv_eq_ediv_of_nonneg (by omega), hms, hlong, Option.bind_some, hint]

/-- From 2^31 milliseconds on some of them are lost. -/
theorem near_of_getRelativeTimeout {ms : ℤ} (h : a.getRelativeTimeout b = some ms)
    (hms : ms = max 0 (a.ns - b.ns) / 1000000) : a.ns - b.ns < 2147483648 * 1000000 := by
  obtain ⟨delta, -, h⟩ := Option.bind_eq_some_iff.mp h
  obtain ⟨sec, -, h⟩ := Option.bind_eq_some_iff.mp h
  obtain ⟨total, -, h⟩ := Option.bind_eq_some_iff.mp h
  obtain rfl := Option.some.inj h
  have hlt : toInt total < (4294967296 + 1) / 2 := Int.bmod_lt (by decide)
  omega

/-! ### Together -/

theorem cancel (ha : a.Normalised) (hb : b.Normalised) (hcarry : a.tvNsec + b.tvNsec ≠ 1000000000)
    (hsec : a.ns + b.ns < 9223372036854775808 * 1000000000) : ∃ c, a.add b = some c ∧ c.sub b = some a := by
  have hpos := ha.ns_nonneg
  have hpos' := hb.ns_nonneg
  have hsum : (ofNs (a.ns + b.ns)).Normalised := normalised_ofNs (by omega) hsec
  refine ⟨_, ha.add_eq hb hcarry hsec, ?_⟩
  rw [hsum.sub_eq hb, ns_ofNs, add_sub_cancel_right, max_eq_right hpos, ← ha.eq_ofNs]

end Normalised

/-- **The arithmetic is exact where** nothing is carried at exactly one second, the sum is a
time, `operator-=` leaves something or starts with nothing, and the time left is an `int`. -/
theorem exact_iff_fits (ha : a.Normalised) (hb : b.Normalised) : Exact a b ↔ Fits a b := by
  constructor
  · intro h
    obtain ⟨hcarry, hsec⟩ := (ha.exists_add_iff hb).mp h.add
    obtain ⟨ms, hms, -, -, hexact⟩ := h.timeout
    have hnear := Normalised.near_of_getRelativeTimeout hms hexact
    exact ⟨hcarry, hsec, (ha.subAssign_eq_sub_iff hb).mp h.subAssign, hnear⟩
  · intro h
    have hpos := hb.ns_nonneg
    have hlt := ha.ns_lt
    refine ⟨(ha.exists_add_iff hb).mpr ⟨h.carry, h.sec⟩, rfl, fun hle => ?_, fun hlater => ?_,
      (ha.subAssign_eq_sub_iff hb).mpr h.later, ha.cancel hb h.carry h.sec, ha.compares hb, ?_⟩
    · refine ⟨_, ha.sub_eq hb, normalised_ofNs (le_max_left _ _) (by omega), ?_⟩
      rw [ns_ofNs, max_eq_right (by omega)]
    · rw [ha.sub_eq hb, max_eq_left (by omega)]
      rfl
    · exact ⟨_, ha.getRelativeTimeout_eq hb h.near, by omega, by omega, rfl⟩

/-- 3.5 and 1.7 seconds: the sum carries, and the difference borrows. -/
theorem exact_of_seconds : Exact ⟨3, 500000000⟩ ⟨1, 700000000⟩ :=
  (exact_iff_fits ⟨by decide, by decide, by decide, by decide⟩ ⟨by decide, by decide, by decide, by decide⟩).mpr
    ⟨by decide, by decide, by decide, by decide⟩

/-- Two half seconds are not carried, 1 second taken from itself stays, and 30 days are
milliseconds below zero. -/
theorem boundaries_not_exact :
    add ⟨0, 500000000⟩ ⟨0, 500000000⟩ = some ⟨0, 1000000000⟩ ∧ subAssign ⟨1, 0⟩ ⟨1, 0⟩ = some ⟨1, 0⟩ ∧
      getRelativeTimeout ⟨2592000, 0⟩ ⟨0, 0⟩ = some (-1702967296) ∧
      ¬Exact ⟨0, 500000000⟩ ⟨0, 500000000⟩ := by
  refine ⟨by decide, by decide, by decide, fun h => ?_⟩
  obtain ⟨c, hc, hnormal, -⟩ := h.add
  have hnsec := hnormal.nsec_lt
  rw [show add ⟨0, 500000000⟩ ⟨0, 500000000⟩ = some ⟨0, 1000000000⟩ by decide] at hc
  obtain rfl := Option.some.inj hc
  exact absurd hnsec (by decide)

end Ctimespec
end RoflCommon
