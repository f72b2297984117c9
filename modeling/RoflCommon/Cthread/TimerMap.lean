/-
The timers of a thread as a map from objects and timer ids to deadlines.

The set is such a map as long as no timer is armed for a time at which another
object has one of the same id. `ctimer::operator<` takes the two for the same,
and the later one is not armed; what it replaces is gone all the same
(`refines_iff_meets`).
-/
import RoflCommon.Cthread
import RoflCommon.Lib.Runs
import Mathlib.Logic.Function.Basic

namespace RoflCommon

/-- The deadline of the timer of an object with an id. -/
abbrev TimerMap := Nat → Nat → Option Nat

namespace TimerMap

def set (m : TimerMap) (env id : Nat) (deadline : Option Nat) : TimerMap :=
  Function.update m env (Function.update (m env) id deadline)

def clear (m : TimerMap) (env : Nat) : TimerMap := Function.update m env fun _ => none

/-- The deadlines that have not passed. -/
def expire (m : TimerMap) (now : Nat) : TimerMap := fun env id => (m env id).filter (now < ·)

/-- The timer is armed and its deadline has passed. -/
def Due (m : TimerMap) (now : Nat) (t : Ctimer) : Prop := m t.timerEnv t.timerId = some t.tspec ∧ t.tspec ≤ now

theorem set_apply (m : TimerMap) (env id env' id' : Nat) (deadline : Option Nat) :
    m.set env id deadline env' id' = if env' = env ∧ id' = id then deadline else m env' id' := by
  unfold set
  by_cases henv : env' = env
  · subst henv
    by_cases hid : id' = id
    · simp [hid]
    · simp [hid]
  · simp [henv]

theorem clear_apply (m : TimerMap) (env env' id : Nat) : m.clear env env' id = if env' = env then none else m env' id := by
  unfold clear
  by_cases henv : env' = env
  · simp [henv]
  · simp [henv]

end TimerMap

/-- The timers of a thread beside the map, and what the last step has fired. -/
structure Timers where
  thread : Cthread
  map : TimerMap
  fired : List Ctimer

namespace Timers

inductive Act
  | addTimer (env id tspec : Nat)
  | dropTimer (env id : Nat)
  | dropTimers (env : Nat)
  /-- One round of the loop over the expired timers, and all of them. -/
  | fire (now : Nat)
  | expire (now : Nat)
deriving DecidableEq, Repr

/-- Whose timers the step may change. -/
def Act.Concerns (env : Nat) : Act → Prop
  | .addTimer e _ _ | .dropTimer e _ | .dropTimers e => e = env
  | .fire _ | .expire _ => True

def fire (s : Timers) (now : Nat) : Timers :=
  match s.thread.nextExpired now with
  | none => { s with fired := [] }
  | some (t, thread) => ⟨thread, s.map.set t.timerEnv t.timerId none, [t]⟩

def step (s : Timers) : Act → Option Timers
  | .addTimer env id tspec => some ⟨s.thread.addTimer env id tspec, s.map.set env id (some tspec), []⟩
  | .dropTimer env id => some ⟨s.thread.dropTimer env id, s.map.set env id none, []⟩
  | .dropTimers env => some ⟨s.thread.dropTimers env, s.map.clear env, []⟩
  | .fire now => some (s.fire now)
  | .expire now => some ⟨(s.thread.expire now).2, s.map.expire now, (s.thread.expire now).1⟩

def new : Timers := ⟨.new, fun _ _ => none, []⟩

/-- What a step fires: of the deadlines that have passed the first, or all of
them in their order. -/
def Fires (m : TimerMap) (fired : List Ctimer) : Act → Prop
  | .fire now =>
    (fired = [] ∧ ∀ t, ¬ m.Due now t) ∨ ∃ t, fired = [t] ∧ m.Due now t ∧ ∀ u, m.Due now u → t.tspec ≤ u.tspec
  | .expire now => (fired.Pairwise fun t u => t.tspec ≤ u.tspec) ∧ fired.Nodup ∧ ∀ t, t ∈ fired ↔ m.Due now t
  | _ => fired = []

/-- The step does to the timers what it does to the map. -/
structure Exact (s : Timers) (a : Act) (s' : Timers) : Prop where
  armed : ∀ env id, s'.thread.armed env id = s'.map env id
  has : ∀ env id, s'.thread.hasTimer env id = (s'.map env id).isSome
  fires : Fires s.map s'.fired a
  others : ∀ env, ¬ a.Concerns env → ∀ id, s'.thread.armed env id = s.thread.armed env id

/-- No other object has a timer of the id at the time. -/
def Ok (s : Timers) : Act → Prop
  | .addTimer env id tspec => ¬ s.thread.Taken env id tspec
  | _ => True

instance (s : Timers) (a : Act) : Decidable (s.Ok a) :=
  match a with
  | .addTimer _ _ _ => instDecidableNot
  | .dropTimer _ _ | .dropTimers _ | .fire _ | .expire _ => isTrue trivial

/-- The set of the timers is the map. -/
def Refines (s : Timers) : Prop := ∀ env id, s.thread.armed env id = s.map env id

theorem refines_new : Refines new := by
  intro env id
  rfl

/-- What is due is what the set holds of expired timers. -/
theorem Refines.due_iff {s : Timers} (h : s.Refines) {now : Nat} {t : Ctimer} :
    s.map.Due now t ↔ t ∈ s.thread.orderedTimers ∧ t.tspec ≤ now := by
  rw [TimerMap.Due, ← h, Cthread.armed_eq_some]

/-! ## The steps -/

/-- Nothing changes the timers of an object it is not about. -/
theorem armed_of_not_concerns {s s' : Timers} {a : Act} (hstep : s.step a = some s') {env : Nat}
    (h : ¬ a.Concerns env) (id : Nat) : s'.thread.armed env id = s.thread.armed env id := by
  cases a with
  | addTimer env' id' tspec =>
    obtain rfl := Option.some.inj hstep
    exact Cthread.armed_addTimer_of_ne fun heq => h heq.1
  | dropTimer env' id' =>
    obtain rfl := Option.some.inj hstep
    exact Cthread.armed_dropTimer_of_ne fun heq => h heq.1
  | dropTimers env' =>
    obtain rfl := Option.some.inj hstep
    have hne : env ≠ env' := fun heq => h heq.symm
    rw [Cthread.armed_dropTimers, if_neg hne]
  | fire | expire => exact absurd trivial h

theorem Refines.fire {s : Timers} (h : s.Refines) (now : Nat) :
    (s.fire now).Refines ∧ Fires s.map (s.fire now).fired (.fire now) := by
  unfold Timers.fire
  cases hnext : s.thread.nextExpired now with
  | none =>
    refine ⟨h, .inl ⟨rfl, fun t ht => ?_⟩⟩
    obtain ⟨hmem, hle⟩ := h.due_iff.mp ht
    have := Cthread.nextExpired_eq_none hnext t hmem
    omega
  | some p =>
    obtain ⟨t, thread⟩ := p
    obtain ⟨hfirst, hexpired, -⟩ := Cthread.nextExpired_eq_some hnext
    refine ⟨fun env id => ?_, .inr ⟨t, rfl, h.due_iff.mpr ⟨Oset.mem_of_first hfirst, hexpired⟩, fun u hu => ?_⟩⟩
    · simp only [TimerMap.set_apply]
      split
      next heq =>
        rw [heq.1, heq.2]
        exact Cthread.armed_nextExpired_of_is hnext
      next hne =>
        rw [← h]
        exact Cthread.armed_nextExpired_of_not_is hnext fun his => hne ⟨his.1.symm, his.2.symm⟩
    · exact Cthread.nextExpired_le hnext (h.due_iff.mp hu).1

theorem Refines.expire {s : Timers} (h : s.Refines) (now : Nat) :
    (∀ env id, (s.thread.expire now).2.armed env id = s.map.expire now env id) ∧
      Fires s.map (s.thread.expire now).1 (.expire now) := by
  obtain ⟨hfired, hleft⟩ := Cthread.expireLoop_eq now (Nat.le_refl s.thread.orderedTimers.size)
  constructor
  · intro env id
    refine Option.ext fun u => ?_
    have hmem : (⟨env, id, u⟩ : Ctimer) ∈ (s.thread.expire now).2.orderedTimers ↔
        ⟨env, id, u⟩ ∈ s.thread.orderedTimers ∧ now < u := by
      unfold Cthread.expire
      rw [hleft, Oset.mem_filter, decide_eq_true_iff]
    rw [Cthread.armed_eq_some, hmem, ← Cthread.armed_eq_some, h, TimerMap.expire, Option.filter_eq_some_iff,
      decide_eq_true_iff]
  · unfold Cthread.expire
    simp only [Fires, hfired]
    have hsorted := s.thread.orderedTimers.ascending.filter fun t => decide (t.tspec ≤ now)
    refine ⟨hsorted.imp fun hlt => Ctimer.tspec_le hlt.le, hsorted.imp fun hlt heq => ?_, fun t => ?_⟩
    · rw [heq] at hlt
      exact lt_irrefl _ hlt
    · rw [h.due_iff, List.mem_filter, decide_eq_true_iff, Oset.mem_def]

theorem Refines.step {s s' : Timers} {a : Act} (h : s.Refines) (hok : s.Ok a) (hstep : s.step a = some s') :
    s'.Refines ∧ Fires s.map s'.fired a := by
  cases a with
  | addTimer env id tspec =>
    obtain rfl := Option.some.inj hstep
    refine ⟨fun env' id' => ?_, rfl⟩
    simp only [TimerMap.set_apply]
    split
    next heq =>
      rw [heq.1, heq.2, Cthread.armed_addTimer_self]
      exact if_neg hok
    next hne =>
      rw [← h]
      exact Cthread.armed_addTimer_of_ne fun heq => hne ⟨heq.1.symm, heq.2.symm⟩
  | dropTimer env id =>
    obtain rfl := Option.some.inj hstep
    refine ⟨fun env' id' => ?_, rfl⟩
    simp only [TimerMap.set_apply]
    split
    next heq =>
      rw [heq.1, heq.2]
      exact Cthread.armed_dropTimer_self s.thread env id
    next hne =>
      rw [← h]
      exact Cthread.armed_dropTimer_of_ne fun heq => hne ⟨heq.1.symm, heq.2.symm⟩
  | dropTimers env =>
    obtain rfl := Option.some.inj hstep
    refine ⟨fun env' id' => ?_, rfl⟩
    simp only [Cthread.armed_dropTimers, TimerMap.clear_apply]
    rw [h]
  | fire now =>
    obtain rfl := Option.some.inj hstep
    exact h.fire now
  | expire now =>
    obtain rfl := Option.some.inj hstep
    exact h.expire now

theorem Refines.exact {s s' : Timers} {a : Act} (h : s.Refines) (hok : s.Ok a) (hstep : s.step a = some s') :
    Exact s a s' := by
  obtain ⟨hrefines, hfires⟩ := h.step hok hstep
  exact {
    armed := hrefines
    has := fun env id => by rw [Cthread.hasTimer_eq, hrefines]
    fires := hfires
    others := fun env hnot => armed_of_not_concerns hstep hnot }

/-- A timer that is not armed for another's sake is missing. -/
theorem Exact.ok {s s' : Timers} {a : Act} (hstep : s.step a = some s') (hx : Exact s a s') : s.Ok a := by
  cases a with
  | addTimer env id tspec =>
    obtain rfl := Option.some.inj hstep
    intro htaken
    have harmed := hx.armed env id
    simp only [TimerMap.set_apply] at harmed
    rw [if_pos ⟨trivial, trivial⟩, Cthread.armed_addTimer_self, if_pos htaken] at harmed
    cases harmed
  | dropTimer | dropTimers | fire | expire => trivial

/-- **The timers are the map, along a run, exactly when no step arms a timer for
a time at which another object has one of the same id.** -/
theorem refines_iff_meets {as : List Act} : Runs.Along step Exact new as ↔ Runs.Meets step Ok new as := by
  obtain ⟨t, ht⟩ : ∃ t, Runs.run step new as = some t := by
    generalize new = s
    induction as generalizing s with
    | nil => exact ⟨s, rfl⟩
    | cons a as ih =>
      obtain ⟨m, hm⟩ : ∃ m, s.step a = some m := by cases a <;> exact ⟨_, rfl⟩
      obtain ⟨t, ht⟩ := ih m
      exact ⟨t, Runs.run_cons.mpr ⟨m, hm, ht⟩⟩
  have keep : ∀ s a s', Refines s → s.Ok a → s.step a = some s' → Refines s' :=
    fun s a s' hs hok hstep => (hs.step hok hstep).1
  constructor
  · intro hQ
    exact Runs.meets_of_along keep (fun s a s' hs hstep hx => hx.ok hstep) refines_new ht hQ
  · intro hok
    exact Runs.along_of_meets keep (fun s a s' hs hok hstep => hs.exact hok hstep) refines_new hok

/-- Two objects arm their timers of one id for one time: the second has none. -/
theorem second_timer_missing : ∃ s t, Runs.run step new [.addTimer 1 0 50] = some s ∧
    s.step (.addTimer 2 0 50) = some t ∧ t.map 2 0 = some 50 ∧ t.thread.hasTimer 2 0 = false ∧
    ¬ Exact s (.addTimer 2 0 50) t := by
  refine ⟨_, _, rfl, rfl, rfl, by decide +kernel, fun hx => ?_⟩
  have hhas := hx.has 2 0
  exact absurd hhas (by decide +kernel)

end Timers

end RoflCommon
