/-
How long a socket waits before it tries to connect again: `backoff_reconnect`.

The delay is doubled behind the comparison with the maximum, so it is within the limits
only where doubling meets the maximum: where that is the start times a power of two
(`backs_iff`). The constructor sets 1 and 60, and the delays are 1, 2, 4, 8, 16, 32, 64, 60.
-/
import RoflCommon.Lib.Runs
import Mathlib.Algebra.Order.Ring.Int
import Mathlib.Tactic.Ring
import Mathlib.Tactic.Linarith

namespace RoflCommon

/-- `reconnect_backoff_start` and `reconnect_backoff_max`, both `int`. -/
structure BackoffConfig where
  start : ℤ
  max : ℤ
  start_le_max : start ≤ max
  intMin_le : -2147483648 ≤ start
  le_intMax : max ≤ 2147483647

structure Backoff where
  /-- `reconnect_backoff_current`. -/
  current : ℤ
  /-- `TIMER_ID_RECONNECT` has been set. -/
  pending : Bool
  /-- The delays that have been scheduled, the last one first, each with whether it was a reset. -/
  scheduled : List (Bool × ℤ)
deriving DecidableEq, Repr

namespace Backoff

/-- The constructor gives both the same number. -/
def new (cfg : BackoffConfig) : Backoff := ⟨cfg.start, false, []⟩

/-- What an `int` times two is, where that is defined. -/
def twice (n : ℤ) : Option ℤ := if -2147483648 ≤ 2 * n ∧ 2 * n ≤ 2147483647 then some (2 * n) else none

def schedule (b : Backoff) (reset : Bool) (delay : ℤ) : Backoff :=
  ⟨delay, true, (reset, delay) :: b.scheduled⟩

/-- `none` where the doubling overflows. -/
def backoffReconnect (cfg : BackoffConfig) (b : Backoff) (resetTimeout : Bool) : Option Backoff :=
  if b.pending then some b
  else if resetTimeout then some (b.schedule true cfg.start)
  else if cfg.max ≤ b.current then some (b.schedule false cfg.max)
  else (twice b.current).map (b.schedule false)

inductive Act
  | backoffReconnect (resetTimeout : Bool)
  /-- The timer expires. What `handle_timeout` makes of it are the actions that follow. -/
  | expire
deriving DecidableEq, Repr

def step (cfg : BackoffConfig) (b : Backoff) : Act → Option Backoff
  | .backoffReconnect resetTimeout => b.backoffReconnect cfg resetTimeout
  | .expire => if b.pending then some { b with pending := false } else none

/-- The delays of all runs are within the limits, do not get shorter without a reset, and are
at the maximum from some number of failures on. -/
structure Backs (cfg : BackoffConfig) : Prop where
  defined : ∀ acts b, Runs.run (step cfg) (new cfg) acts = some b → ∀ reset, b.backoffReconnect cfg reset ≠ none
  bounded : ∀ acts b, Runs.run (step cfg) (new cfg) acts = some b →
    ∀ e ∈ b.scheduled, cfg.start ≤ e.2 ∧ e.2 ≤ cfg.max
  ascends : ∀ acts b, Runs.run (step cfg) (new cfg) acts = some b → ∀ after e mid d before,
    b.scheduled = after ++ e :: (mid ++ d :: before) → (∀ f ∈ e :: mid, f.1 = false) → d.2 ≤ e.2
  reaches : ∃ n, ∀ acts b, Runs.run (step cfg) (new cfg) acts = some b → ∀ after e mid before,
    b.scheduled = after ++ e :: (mid ++ before) → (∀ f ∈ e :: mid, f.1 = false) → n ≤ mid.length → e.2 = cfg.max

/-! ## Where doubling meets the maximum -/

/-- How often the start has been doubled after some calls, the last one first. -/
def power (k : ℕ) : List Bool → ℕ
  | [] => 0
  | true :: _ => 0
  | false :: resets => min (power k resets + 1) k

/-- What they have scheduled. -/
def delays (cfg : BackoffConfig) (k : ℕ) : List Bool → List (Bool × ℤ)
  | [] => []
  | reset :: resets => (reset, cfg.start * 2 ^ power k (reset :: resets)) :: delays cfg k resets

variable {cfg : BackoffConfig} {b b' : Backoff} {k : ℕ}

theorem power_le (resets : List Bool) : power k resets ≤ k := by
  cases resets with
  | nil => exact Nat.zero_le k
  | cons reset resets =>
    cases reset with
    | true => exact Nat.zero_le k
    | false => exact Nat.min_le_right _ _

/-- Failures, one after the other. -/
theorem power_append {fails : List Bool} (h : ∀ f ∈ fails, f = false) (resets : List Bool) :
    power k (fails ++ resets) = min (power k resets + fails.length) k := by
  induction fails with
  | nil => simpa using power_le resets
  | cons f fails ih =>
    have hf : f = false := h f List.mem_cons_self
    rw [hf, List.cons_append, power, ih fun f hf => h f (List.mem_cons_of_mem _ hf), List.length_cons]
    omega

theorem delays_append {resets : List Bool} {after before : List (Bool × ℤ)}
    (h : delays cfg k resets = after ++ before) :
    ∃ resets', resets = after.map Prod.fst ++ resets' ∧ before = delays cfg k resets' := by
  induction after generalizing resets with
  | nil => exact ⟨resets, rfl, h.symm⟩
  | cons d after ih =>
    cases resets with
    | nil => cases h
    | cons reset resets =>
      rw [delays, List.cons_append, List.cons.injEq] at h
      obtain ⟨resets', rfl, hbefore⟩ := ih h.2
      exact ⟨resets', by rw [← h.1]; rfl, hbefore⟩

theorem delays_cons {resets : List Bool} {e : Bool × ℤ} {before : List (Bool × ℤ)}
    (h : e :: before = delays cfg k resets) : e.2 = cfg.start * 2 ^ power k resets := by
  cases resets with
  | nil => cases h
  | cons reset resets =>
    rw [delays, List.cons.injEq] at h
    rw [h.1]

/-- Failures among what has been scheduled, and the power at the last of them. -/
theorem delays_fails {resets : List Bool} {after mid before : List (Bool × ℤ)} {e : Bool × ℤ}
    (h : delays cfg k resets = after ++ e :: (mid ++ before)) (hfails : ∀ f ∈ e :: mid, f.1 = false) :
    ∃ resets', before = delays cfg k resets' ∧
      e.2 = cfg.start * 2 ^ min (power k resets' + (mid.length + 1)) k := by
  obtain ⟨later, -, hlater⟩ := delays_append h
  obtain ⟨resets', hresets, hbefore⟩ : ∃ resets', later = (e :: mid).map Prod.fst ++ resets' ∧
      before = delays cfg k resets' := delays_append hlater.symm
  refine ⟨resets', hbefore, ?_⟩
  have hall : ∀ f ∈ (e :: mid).map Prod.fst, f = false := by
    intro f hf
    obtain ⟨d, hd, rfl⟩ := List.mem_map.mp hf
    exact hfails d hd
  rw [delays_cons hlater, hresets, power_append hall, List.length_map, List.length_cons]

/-- Up to the maximum the powers go up. -/
theorem pow_le_pow (hk : cfg.max = cfg.start * 2 ^ k) {i j : ℕ} (hij : i ≤ j) (hj : j ≤ k) :
    cfg.start * 2 ^ i ≤ cfg.start * 2 ^ j := by
  by_cases hstart : 0 ≤ cfg.start
  · exact mul_le_mul_of_nonneg_left (pow_le_pow_right₀ (by norm_num) hij) hstart
  · -- below zero the maximum is the start
    have hzero : k = 0 := by
      by_contra hpos
      have htwo : (2 : ℤ) ^ 1 ≤ 2 ^ k := pow_le_pow_right₀ (by norm_num) (Nat.one_le_iff_ne_zero.mpr hpos)
      have := cfg.start_le_max
      nlinarith
    have hi : i = 0 := by omega
    have hj' : j = 0 := by omega
    rw [hi, hj']

/-- The invariant of the runs. -/
def Doubles (cfg : BackoffConfig) (k : ℕ) (b : Backoff) : Prop :=
  ∃ resets, b.scheduled = delays cfg k resets ∧ b.current = cfg.start * 2 ^ power k resets

theorem doubles_new : Doubles cfg k (new cfg) := ⟨[], rfl, by simp [new, power]⟩

theorem doubles_schedule {resets : List Bool} (reset : Bool) (h : b.scheduled = delays cfg k resets) :
    Doubles cfg k (b.schedule reset (cfg.start * 2 ^ power k (reset :: resets))) :=
  ⟨reset :: resets, by rw [schedule, h, delays], rfl⟩

/-- A failure schedules the next power. -/
theorem fails_eq (hk : cfg.max = cfg.start * 2 ^ k) {resets : List Bool} (hpending : b.pending = false)
    (hcurrent : b.current = cfg.start * 2 ^ power k resets) :
    b.backoffReconnect cfg false = some (b.schedule false (cfg.start * 2 ^ power k (false :: resets))) := by
  have hle := power_le (k := k) resets
  have hnext : power k (false :: resets) = min (power k resets + 1) k := rfl
  have hup := pow_le_pow hk (i := power k resets) (j := power k (false :: resets)) (by omega) (power_le _)
  have htop := pow_le_pow hk (i := power k (false :: resets)) (j := k) (power_le _) le_rfl
  simp only [backoffReconnect, hpending, Bool.false_eq_true, if_false]
  by_cases hmax : cfg.max ≤ b.current
  · have heq : cfg.max = cfg.start * 2 ^ power k (false :: resets) := by
      rw [hcurrent] at hmax
      omega
    rw [if_pos hmax, heq]
  · have hlt : power k resets < k := by
      refine lt_of_le_of_ne hle fun heq => hmax ?_
      rw [hk, hcurrent, heq]
    have hpow : 2 * b.current = cfg.start * 2 ^ power k (false :: resets) := by
      rw [hcurrent, hnext, min_eq_left (by omega), pow_succ]
      ring
    have hstart := pow_le_pow hk (i := 0) (j := power k (false :: resets)) (Nat.zero_le _) (power_le _)
    have hdefined : twice b.current = some (cfg.start * 2 ^ power k (false :: resets)) := by
      have := cfg.intMin_le
      have := cfg.le_intMax
      unfold twice
      rw [hpow]
      refine if_pos ⟨?_, ?_⟩
      · rw [pow_zero, mul_one] at hstart
        omega
      · omega
    rw [if_neg hmax, hdefined]
    rfl

theorem doubles_backoffReconnect (hk : cfg.max = cfg.start * 2 ^ k) (hb : Doubles cfg k b) (reset : Bool) :
    ∃ b', b.backoffReconnect cfg reset = some b' ∧ Doubles cfg k b' := by
  obtain ⟨resets, hscheduled, hcurrent⟩ := hb
  cases hpending : b.pending with
  | true => exact ⟨b, if_pos hpending, resets, hscheduled, hcurrent⟩
  | false =>
    refine ⟨_, ?_, doubles_schedule reset hscheduled⟩
    cases reset with
    | true => simp [backoffReconnect, hpending, power]
    | false => exact fails_eq hk hpending hcurrent

theorem doubles_step (hk : cfg.max = cfg.start * 2 ^ k) {a : Act} (hb : Doubles cfg k b)
    (hstep : step cfg b a = some b') : Doubles cfg k b' := by
  cases a with
  | backoffReconnect reset =>
    obtain ⟨next, hnext, hdoubles⟩ := doubles_backoffReconnect hk hb reset
    rw [step, hnext, Option.some.injEq] at hstep
    exact hstep ▸ hdoubles
  | expire =>
    simp only [step] at hstep
    split_ifs at hstep
    obtain rfl := Option.some.inj hstep
    exact hb

theorem doubles_run (hk : cfg.max = cfg.start * 2 ^ k) {acts : List Act} {b : Backoff}
    (h : Runs.run (step cfg) (new cfg) acts = some b) : Doubles cfg k b :=
  Runs.invariant (fun _ _ _ hb hstep => doubles_step hk hb hstep) doubles_new h

theorem backs_of_pow (hk : cfg.max = cfg.start * 2 ^ k) : Backs cfg where
  defined acts b h reset := by
    obtain ⟨b', hb', -⟩ := doubles_backoffReconnect hk (doubles_run hk h) reset
    rw [hb']
    exact Option.some_ne_none _
  bounded acts b h e he := by
    obtain ⟨resets, hscheduled, -⟩ := doubles_run hk h
    obtain ⟨after, before, hsplit⟩ := List.append_of_mem he
    rw [hscheduled] at hsplit
    obtain ⟨later, -, hlater⟩ := delays_append hsplit
    rw [delays_cons hlater]
    have hlow := pow_le_pow hk (i := 0) (j := power k later) (Nat.zero_le _) (power_le _)
    rw [pow_zero, mul_one] at hlow
    exact ⟨hlow, hk ▸ pow_le_pow hk (power_le _) le_rfl⟩
  ascends acts b h after e mid d before hsplit hfails := by
    obtain ⟨resets, hscheduled, -⟩ := doubles_run hk h
    rw [hscheduled] at hsplit
    obtain ⟨resets', hbefore, he⟩ := delays_fails hsplit hfails
    rw [delays_cons hbefore, he]
    have := power_le (k := k) resets'
    exact pow_le_pow hk (by omega) (Nat.min_le_right _ _)
  reaches := by
    refine ⟨k, fun acts b h after e mid before hsplit hfails hlen => ?_⟩
    obtain ⟨resets, hscheduled, -⟩ := doubles_run hk h
    rw [hscheduled] at hsplit
    obtain ⟨resets', -, he⟩ := delays_fails hsplit hfails
    rw [he, hk, min_eq_right (by omega)]

/-! ## Where it does not -/

/-- Failures alone, where the maximum is not met: the delay goes on doubling. -/
theorem exists_fails (h : Backs cfg) (hne : ∀ k, cfg.max ≠ cfg.start * 2 ^ k) (i : ℕ) :
    ∃ acts b, Runs.run (step cfg) (new cfg) acts = some b ∧ b.pending = false ∧ b.current = cfg.start * 2 ^ i ∧
      b.scheduled.length = i ∧ (∀ f ∈ b.scheduled, f.1 = false) ∧ ∀ e ∈ b.scheduled.head?, e.2 = b.current := by
  induction i with
  | zero => exact ⟨[], new cfg, rfl, rfl, by simp [new], rfl, by simp [new], by simp [new]⟩
  | succ i ih =>
    obtain ⟨acts, b, hrun, hpending, hcurrent, hlen, hflags, hhead⟩ := ih
    have hlt : b.current < cfg.max := by
      refine lt_of_le_of_ne ?_ fun heq => hne i (heq.symm.trans hcurrent)
      cases hs : b.scheduled with
      | nil =>
        rw [hs] at hlen
        rw [hcurrent, ← hlen]
        simpa using cfg.start_le_max
      | cons e es =>
        have he := (h.bounded acts b hrun e (by simp [hs])).2
        rwa [hhead e (by simp [hs])] at he
    have hdefined := h.defined acts b hrun false
    have hfail : b.backoffReconnect cfg false = (twice b.current).map (b.schedule false) := by
      simp only [backoffReconnect, hpending, Bool.false_eq_true, if_false, if_neg (not_le.mpr hlt)]
    have htwice : twice b.current = some (2 * b.current) := by
      refine if_pos ?_
      by_contra hover
      rw [hfail, twice, if_neg hover] at hdefined
      exact hdefined rfl
    have hnext : step cfg b (.backoffReconnect false) = some (b.schedule false (2 * b.current)) := by
      rw [step, hfail, htwice]
      rfl
    refine ⟨acts ++ [.backoffReconnect false, .expire], { b.schedule false (2 * b.current) with pending := false },
      Runs.run_append.mpr ⟨b, hrun, Runs.run_cons.mpr ⟨_, hnext, rfl⟩⟩, rfl, ?_, ?_, ?_, ?_⟩
    · change 2 * b.current = _
      rw [hcurrent, pow_succ]
      ring
    · change b.scheduled.length + 1 = i + 1
      rw [hlen]
    · intro f hf
      cases List.mem_cons.mp hf with
      | inl heq => rw [heq]
      | inr hmem => exact hflags f hmem
    · intro e he
      obtain rfl : (false, 2 * b.current) = e := Option.some.inj he
      rfl

theorem pow_of_backs (h : Backs cfg) : ∃ k, cfg.max = cfg.start * 2 ^ k := by
  by_contra hne
  have hne : ∀ k, cfg.max ≠ cfg.start * 2 ^ k := fun k hk => hne ⟨k, hk⟩
  obtain ⟨n, hreaches⟩ := h.reaches
  obtain ⟨acts, b, hrun, -, hcurrent, hlen, hflags, hhead⟩ := exists_fails h hne (n + 1)
  cases hs : b.scheduled with
  | nil =>
    rw [hs] at hlen
    cases hlen
  | cons e mid =>
    rw [hs] at hlen hflags hhead
    have hmax := hreaches acts b hrun [] e mid [] (by simpa using hs) hflags (Nat.le_of_eq (Nat.succ.inj hlen).symm)
    rw [hhead e rfl, hcurrent] at hmax
    exact hne (n + 1) hmax.symm

/-- **The delays are within the limits, do not get shorter and reach the maximum exactly
where** that is the start times a power of two. -/
theorem backs_iff (cfg : BackoffConfig) : Backs cfg ↔ ∃ k, cfg.max = cfg.start * 2 ^ k :=
  ⟨pow_of_backs, fun ⟨_, hk⟩ => backs_of_pow hk⟩

/-- What the constructor sets. -/
def defaults : BackoffConfig := ⟨1, 60, by decide, by decide, by decide⟩

/-- The sixth failure after a reset waits 64 seconds, the next one 60. -/
theorem sixth_failure_waits_too_long :
    (∃ b, Runs.run (step defaults) (new defaults)
      (.backoffReconnect true :: (List.replicate 7 [.expire, .backoffReconnect false]).flatten) = some b ∧
      b.scheduled.map Prod.snd = [60, 64, 32, 16, 8, 4, 2, 1]) ∧ ¬Backs defaults := by
  have hrun : ∃ b, Runs.run (step defaults) (new defaults)
      (.backoffReconnect true :: (List.replicate 7 [.expire, .backoffReconnect false]).flatten) = some b ∧
      b.scheduled.map Prod.snd = [60, 64, 32, 16, 8, 4, 2, 1] := ⟨_, rfl, by decide⟩
  refine ⟨hrun, fun h => ?_⟩
  obtain ⟨b, hb, hdelays⟩ := hrun
  have hmem : (64 : ℤ) ∈ b.scheduled.map Prod.snd := by
    rw [hdelays]
    decide
  obtain ⟨e, he, heq⟩ := List.mem_map.mp hmem
  have hmax := (h.bounded _ b hb e he).2
  rw [heq] at hmax
  exact absurd hmax (by decide)

end Backoff
end RoflCommon
