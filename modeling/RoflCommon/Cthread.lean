/-
The timers of a thread: `ctimer` and the functions of `cthread` about them.

One set holds the timers of all objects the thread serves, in the order of
their times and, among equal times, of their ids. Whose timer it is does not
enter into the order, so that of two objects' timers with one id and one time
the second is not inserted (`armed_addTimer_self`).
-/
import RoflCommon.Lib.Oset
import Mathlib.Data.Prod.Lex

namespace RoflCommon

/-- The times are those of the monotonic clock. -/
structure Ctimer where
  timerEnv : Nat
  timerId : Nat
  tspec : Nat
deriving DecidableEq, Repr

namespace Ctimer

/-- What `operator<` compares. -/
def key (t : Ctimer) : Nat ×ₗ Nat := toLex (t.tspec, t.timerId)

/-- `ctimer_find_by_timer_env_and_id`. -/
def Is (env id : Nat) (t : Ctimer) : Prop := t.timerEnv = env ∧ t.timerId = id

instance (env id : Nat) (t : Ctimer) : Decidable (t.Is env id) := instDecidableAnd

theorem key_eq {t u : Ctimer} : t.key = u.key ↔ t.tspec = u.tspec ∧ t.timerId = u.timerId := by
  simp [key]

theorem tspec_le {t u : Ctimer} (h : t.key ≤ u.key) : t.tspec ≤ u.tspec := by
  have hlex := Prod.Lex.le_iff.mp h
  simp only [key, ofLex_toLex] at hlex
  omega

end Ctimer

/-- An object has at most one timer of an id. -/
structure Cthread where
  orderedTimers : Oset Ctimer.key
  single : ∀ t ∈ orderedTimers, ∀ u ∈ orderedTimers, t.timerEnv = u.timerEnv → t.timerId = u.timerId → t = u

namespace Cthread

def new : Cthread := ⟨.empty, fun _ h => absurd h (Oset.not_mem_empty _)⟩

/-- The timer of an object and an id is unique. -/
theorem eq_of_is {th : Cthread} {env id : Nat} {t u : Ctimer} (ht : t ∈ th.orderedTimers)
    (hu : u ∈ th.orderedTimers) (h : t.Is env id) (h' : u.Is env id) : t = u :=
  th.single t ht u hu (h.1.trans h'.1.symm) (h.2.trans h'.2.symm)

theorem mem_dropped {th : Cthread} {env id : Nat} {t : Ctimer} :
    t ∈ th.orderedTimers.eraseP (·.Is env id) ↔ t ∈ th.orderedTimers ∧ ¬ t.Is env id := by
  rw [Oset.mem_eraseP fun t ht u hu h h' => ?_, decide_eq_true_iff]
  exact eq_of_is ht hu (of_decide_eq_true h) (of_decide_eq_true h')

/-- `drop_timer`. -/
def dropTimer (th : Cthread) (env id : Nat) : Cthread where
  orderedTimers := th.orderedTimers.eraseP (·.Is env id)
  single t ht u hu := th.single t (mem_dropped.mp ht).1 u (mem_dropped.mp hu).1

theorem mem_dropTimer {th : Cthread} {env id : Nat} {t : Ctimer} :
    t ∈ (th.dropTimer env id).orderedTimers ↔ t ∈ th.orderedTimers ∧ ¬ t.Is env id := mem_dropped

/-- A timer of another object has the id and the time. -/
def Taken (th : Cthread) (env id tspec : Nat) : Prop :=
  ∃ u ∈ th.orderedTimers.elems, u.timerEnv ≠ env ∧ u.timerId = id ∧ u.tspec = tspec

instance (th : Cthread) (env id tspec : Nat) : Decidable (th.Taken env id tspec) := List.decidableBEx _ _

/-- The key of a timer to be added is in the set exactly when it is taken. -/
theorem exists_key_iff {th : Cthread} {env id tspec : Nat} :
    (∃ u ∈ (th.dropTimer env id).orderedTimers, u.key = Ctimer.key ⟨env, id, tspec⟩) ↔ th.Taken env id tspec := by
  constructor
  · intro h
    obtain ⟨u, hu, hkey⟩ := h
    obtain ⟨hmem, hnot⟩ := mem_dropTimer.mp hu
    obtain ⟨htime, hid⟩ := Ctimer.key_eq.mp hkey
    exact ⟨u, hmem, fun henv => hnot ⟨henv, hid⟩, hid, htime⟩
  · intro h
    obtain ⟨u, hmem, henv, hid, htime⟩ := h
    exact ⟨u, mem_dropTimer.mpr ⟨hmem, fun his => henv his.1⟩, Ctimer.key_eq.mpr ⟨htime, hid⟩⟩

/-- The timers after `add_timer`: the timer the object has is erased, the new one
inserted. -/
def added (th : Cthread) (env id tspec : Nat) : Oset Ctimer.key :=
  (th.dropTimer env id).orderedTimers.insert ⟨env, id, tspec⟩

theorem mem_added {th : Cthread} {env id tspec : Nat} {t : Ctimer} :
    t ∈ th.added env id tspec ↔
      ¬ th.Taken env id tspec ∧ t = ⟨env, id, tspec⟩ ∨ t ∈ th.orderedTimers ∧ ¬ t.Is env id := by
  rw [← mem_dropTimer]
  unfold added
  by_cases htaken : th.Taken env id tspec
  · obtain ⟨u, hu, hkey⟩ := exists_key_iff.mpr htaken
    rw [Oset.insert_of_mem hu hkey]
    simp [htaken]
  · rw [Oset.mem_insert fun u hu hkey => htaken (exists_key_iff.mp ⟨u, hu, hkey⟩)]
    simp [htaken]

/-- `add_timer`. -/
def addTimer (th : Cthread) (env id tspec : Nat) : Cthread where
  orderedTimers := th.added env id tspec
  single t ht u hu henv hid := by
    cases mem_added.mp ht with
    | inl ht =>
      cases mem_added.mp hu with
      | inl hu => rw [ht.2, hu.2]
      | inr hu =>
        rw [ht.2] at henv hid
        exact absurd ⟨henv.symm, hid.symm⟩ hu.2
    | inr ht =>
      cases mem_added.mp hu with
      | inl hu =>
        rw [hu.2] at henv hid
        exact absurd ⟨henv, hid⟩ ht.2
      | inr hu => exact th.single t ht.1 u hu.1 henv hid

/-- What the thread does with its first timer, once it has expired: it is
removed, and `handle_timeout` called. -/
def nextExpired (th : Cthread) (now : Nat) : Option (Ctimer × Cthread) :=
  match th.orderedTimers.first with
  | none => none
  | some t =>
    if t.tspec ≤ now then
      some (t, {
        orderedTimers := th.orderedTimers.eraseFirst
        single := fun t ht u hu => th.single t (List.mem_of_mem_tail ht) u (List.mem_of_mem_tail hu) })
    else none

/-- `drop_timers`: all timers of the object. -/
def dropTimers (th : Cthread) (env : Nat) : Cthread where
  orderedTimers := th.orderedTimers.filter (·.timerEnv != env)
  single t ht u hu := th.single t (Oset.mem_filter.mp ht).1 u (Oset.mem_filter.mp hu).1

def hasTimer (th : Cthread) (env id : Nat) : Bool := th.orderedTimers.elems.any fun t => decide (t.Is env id)

/-- The loop of `run_loop` over the expired timers, with those it fires. -/
def expireLoop (now : Nat) : Nat → Cthread → List Ctimer × Cthread
  | 0, th => ([], th)
  | fuel + 1, th =>
    match th.nextExpired now with
    | none => ([], th)
    | some (t, th) => (t :: (expireLoop now fuel th).1, (expireLoop now fuel th).2)

/-- Each round of the loop removes a timer. -/
def expire (th : Cthread) (now : Nat) : List Ctimer × Cthread := expireLoop now th.orderedTimers.size th

/-- When the timer of the object expires, if it is armed. -/
def armed (th : Cthread) (env id : Nat) : Option Nat :=
  (th.orderedTimers.elems.find? fun t => decide (t.Is env id)).map (·.tspec)

/-! ## What is armed -/

theorem armed_eq_some {th : Cthread} {env id tspec : Nat} :
    th.armed env id = some tspec ↔ ⟨env, id, tspec⟩ ∈ th.orderedTimers := by
  unfold armed
  rw [Option.map_eq_some_iff]
  constructor
  · intro h
    obtain ⟨t, ht, rfl⟩ := h
    obtain ⟨rfl, rfl⟩ : t.Is env id := by simpa using List.find?_some ht
    exact List.mem_of_find?_eq_some ht
  · intro h
    have his : (⟨env, id, tspec⟩ : Ctimer).Is env id := ⟨rfl, rfl⟩
    cases hfind : th.orderedTimers.elems.find? fun t => decide (t.Is env id) with
    | none =>
      have := List.find?_eq_none.mp hfind _ h
      simp [his] at this
    | some t =>
      have ht : t.Is env id := by simpa using List.find?_some hfind
      have heq := eq_of_is (List.mem_of_find?_eq_some hfind) h ht his
      exact ⟨t, rfl, by rw [heq]⟩

/-- What has the same timers of an object and an id is armed alike. -/
theorem armed_congr {th th' : Cthread} {env id : Nat}
    (h : ∀ tspec, (⟨env, id, tspec⟩ : Ctimer) ∈ th'.orderedTimers ↔ ⟨env, id, tspec⟩ ∈ th.orderedTimers) :
    th'.armed env id = th.armed env id := by
  refine Option.ext fun tspec => ?_
  rw [armed_eq_some, armed_eq_some, h]

/-- **A timer another object has at the time is in the way of the new one, and
the old one is gone.** -/
theorem armed_addTimer_self (th : Cthread) (env id tspec : Nat) :
    (th.addTimer env id tspec).armed env id = if th.Taken env id tspec then none else some tspec := by
  refine Option.ext fun u => ?_
  have hmem : (⟨env, id, u⟩ : Ctimer) ∈ (th.addTimer env id tspec).orderedTimers ↔ _ := mem_added
  have his : (⟨env, id, u⟩ : Ctimer).Is env id := ⟨rfl, rfl⟩
  rw [armed_eq_some, hmem]
  by_cases htaken : th.Taken env id tspec
  · simp [htaken, his]
  · simp [htaken, his, eq_comm]

/-- Adding a timer leaves the others as they are. -/
theorem armed_addTimer_of_ne {th : Cthread} {env id env' id' tspec : Nat} (h : ¬ (env' = env ∧ id' = id)) :
    (th.addTimer env' id' tspec).armed env id = th.armed env id := by
  refine armed_congr fun u => ?_
  have hmem : (⟨env, id, u⟩ : Ctimer) ∈ (th.addTimer env' id' tspec).orderedTimers ↔ _ := mem_added
  have hnot : ¬ (⟨env, id, u⟩ : Ctimer).Is env' id' := fun his => h ⟨his.1.symm, his.2.symm⟩
  rw [hmem, and_iff_left hnot, or_iff_right]
  intro hnew
  injection hnew.2 with henv hid
  exact h ⟨henv.symm, hid.symm⟩

theorem armed_dropTimer_of_ne {th : Cthread} {env id env' id' : Nat} (h : ¬ (env' = env ∧ id' = id)) :
    (th.dropTimer env' id').armed env id = th.armed env id := by
  refine armed_congr fun u => ?_
  have hnot : ¬ (⟨env, id, u⟩ : Ctimer).Is env' id' := fun his => h ⟨his.1.symm, his.2.symm⟩
  rw [mem_dropTimer, and_iff_left hnot]

theorem nextExpired_eq_some {th th' : Cthread} {now : Nat} {t : Ctimer} (h : th.nextExpired now = some (t, th')) :
    th.orderedTimers.first = some t ∧ t.tspec ≤ now ∧ th'.orderedTimers = th.orderedTimers.eraseFirst := by
  unfold nextExpired at h
  split at h
  · cases h
  next u hfirst =>
    split_ifs at h with hexpired
    obtain ⟨rfl, rfl⟩ := Prod.mk.inj (Option.some.inj h)
    exact ⟨hfirst, hexpired, rfl⟩

theorem mem_nextExpired {th th' : Cthread} {now : Nat} {t u : Ctimer} (h : th.nextExpired now = some (t, th')) :
    u ∈ th'.orderedTimers ↔ u ∈ th.orderedTimers ∧ u ≠ t := by
  obtain ⟨hfirst, -, herase⟩ := nextExpired_eq_some h
  rw [herase, Oset.mem_eraseFirst hfirst]

/-- Only the expired timer goes. -/
theorem armed_nextExpired_of_not_is {th th' : Cthread} {now env id : Nat} {t : Ctimer}
    (h : th.nextExpired now = some (t, th')) (hnot : ¬ t.Is env id) : th'.armed env id = th.armed env id := by
  refine armed_congr fun u => ?_
  rw [mem_nextExpired h, and_iff_left]
  intro heq
  exact hnot (heq ▸ ⟨rfl, rfl⟩)

theorem hasTimer_eq (th : Cthread) (env id : Nat) : th.hasTimer env id = (th.armed env id).isSome := by
  rw [hasTimer, armed, Option.isSome_map, List.isSome_find?]

theorem armed_dropTimers (th : Cthread) (env env' id : Nat) :
    (th.dropTimers env).armed env' id = if env' = env then none else th.armed env' id := by
  refine Option.ext fun u => ?_
  have hmem : (⟨env', id, u⟩ : Ctimer) ∈ (th.dropTimers env).orderedTimers ↔ _ := Oset.mem_filter
  rw [armed_eq_some, hmem]
  by_cases henv : env' = env
  · simp [henv]
  · simp [henv, armed_eq_some]

theorem armed_dropTimer_self (th : Cthread) (env id : Nat) : (th.dropTimer env id).armed env id = none := by
  refine Option.eq_none_iff_forall_ne_some.mpr fun u hu => ?_
  exact (mem_dropTimer.mp (armed_eq_some.mp hu)).2 ⟨rfl, rfl⟩

/-! ## What expires -/

theorem nextExpired_eq_none {th : Cthread} {now : Nat} (h : th.nextExpired now = none) :
    ∀ t ∈ th.orderedTimers, now < t.tspec := by
  intro t ht
  unfold nextExpired at h
  split at h
  case h_1 hfirst => exact absurd ht (Oset.first_eq_none.mp hfirst t)
  case h_2 u hfirst =>
    split_ifs at h with hexpired
    have hle := Ctimer.tspec_le (Oset.le_of_first hfirst ht)
    omega

/-- The timer that expires first is none later than another. -/
theorem nextExpired_le {th th' : Cthread} {now : Nat} {t u : Ctimer} (h : th.nextExpired now = some (t, th'))
    (hu : u ∈ th.orderedTimers) : t.tspec ≤ u.tspec :=
  Ctimer.tspec_le (Oset.le_of_first (nextExpired_eq_some h).1 hu)

theorem armed_nextExpired_of_is {th th' : Cthread} {now : Nat} {t : Ctimer}
    (h : th.nextExpired now = some (t, th')) : th'.armed t.timerEnv t.timerId = none := by
  refine Option.eq_none_iff_forall_ne_some.mpr fun u hu => ?_
  obtain ⟨hmem, hne⟩ := (mem_nextExpired h).mp (armed_eq_some.mp hu)
  have ht := Oset.mem_of_first (nextExpired_eq_some h).1
  exact hne (eq_of_is hmem ht ⟨rfl, rfl⟩ ⟨rfl, rfl⟩)

/-- **The loop fires what has expired, in the order of the set, and leaves the
rest.** -/
theorem expireLoop_eq (now : Nat) {fuel : Nat} {th : Cthread} (h : th.orderedTimers.size ≤ fuel) :
    (expireLoop now fuel th).1 = th.orderedTimers.elems.filter (·.tspec ≤ now) ∧
      (expireLoop now fuel th).2.orderedTimers = th.orderedTimers.filter (now < ·.tspec) := by
  induction fuel generalizing th with
  | zero =>
    have hnil : th.orderedTimers.elems = [] := List.length_eq_zero_iff.mp (Nat.le_zero.mp h)
    have hall : ∀ t ∈ th.orderedTimers, decide (now < t.tspec) = true := fun t ht => by
      rw [Oset.mem_def, hnil] at ht
      cases ht
    simp [expireLoop, hnil, Oset.filter_eq_self hall]
  | succ fuel ih =>
    unfold expireLoop
    cases hnext : th.nextExpired now with
    | none =>
      have hall := nextExpired_eq_none hnext
      have hnil : th.orderedTimers.elems.filter (·.tspec ≤ now) = [] :=
        List.filter_eq_nil_iff.mpr fun t ht => by simpa using hall t ht
      simp [hnil, Oset.filter_eq_self fun t ht => decide_eq_true (hall t ht)]
    | some p =>
      obtain ⟨t, th'⟩ := p
      obtain ⟨hfirst, hexpired, herase⟩ := nextExpired_eq_some hnext
      have helems := Oset.elems_of_first hfirst
      have hsize : th'.orderedTimers.size ≤ fuel := by
        have hlength := congrArg List.length helems
        rw [List.length_cons] at hlength
        rw [herase]
        unfold Oset.size at h ⊢
        omega
      obtain ⟨hfired, hleft⟩ := ih hsize
      rw [herase] at hfired hleft
      constructor
      · simp only [hfired]
        simp [helems, hexpired]
      · simp only [hleft]
        exact Oset.filter_eraseFirst hfirst (by simpa using hexpired)

end Cthread

end RoflCommon
