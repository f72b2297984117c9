/-
Runs of a labelled transition system given by a partial step function
`step : σ → α → Option σ`: an action is enabled where `step` answers, and
says itself how every choice of the environment falls.

The rules here package the induction on a run once. `invariant` is for
unconditional invariants; `invariant_of_meets` for runs all of whose steps
meet a condition on the state before the step; `along_of_meets` turns a
statement about one step into a statement about every step of a run.
-/
import Mathlib.Tactic.Common

namespace Runs

variable {σ α : Type*}

/-- The state after the actions `as`, when each of them is enabled in turn. -/
def run (step : σ → α → Option σ) : σ → List α → Option σ
  | s, [] => some s
  | s, a :: as => (step s a).bind fun s' => run step s' as

/-- Every step the run takes meets `ok` in the state before it. -/
def Meets (step : σ → α → Option σ) (ok : σ → α → Prop) : σ → List α → Prop
  | _, [] => True
  | s, a :: as =>
    ok s a ∧ match step s a with
      | none => True
      | some s' => Meets step ok s' as

/-- Every step the run takes, from `s` by `a` to `s'`, has `Q s a s'`. -/
def Along (step : σ → α → Option σ) (Q : σ → α → σ → Prop) : σ → List α → Prop
  | _, [] => True
  | s, a :: as =>
    match step s a with
    | none => True
    | some s' => Q s a s' ∧ Along step Q s' as

variable {step : σ → α → Option σ} {ok : σ → α → Prop} {Q : σ → α → σ → Prop}

@[simp] theorem run_nil (s : σ) : run step s [] = some s := rfl

theorem run_cons {s t : σ} {a : α} {as : List α} :
    run step s (a :: as) = some t ↔ ∃ m, step s a = some m ∧ run step m as = some t := by
  simp [run, Option.bind_eq_some_iff]

theorem run_append {s t : σ} {as bs : List α} :
    run step s (as ++ bs) = some t ↔ ∃ m, run step s as = some m ∧ run step m bs = some t := by
  induction as generalizing s with
  | nil => simp
  | cons a as ih =>
    simp only [List.cons_append, run_cons, ih]
    constructor
    · rintro ⟨m, h, n, hm, hn⟩
      exact ⟨n, ⟨m, h, hm⟩, hn⟩
    · rintro ⟨n, ⟨m, h, hm⟩, hn⟩
      exact ⟨m, h, n, hm, hn⟩

@[simp] theorem meets_nil (s : σ) : Meets step ok s [] := trivial

theorem meets_cons {s m : σ} {a : α} {as : List α} (h : step s a = some m) :
    Meets step ok s (a :: as) ↔ ok s a ∧ Meets step ok m as := by
  simp [Meets, h]

theorem meets_append {s t : σ} {as bs : List α} (h : run step s as = some t) :
    Meets step ok s (as ++ bs) ↔ Meets step ok s as ∧ Meets step ok t bs := by
  induction as generalizing s with
  | nil =>
    obtain rfl : s = t := by simpa using h
    simp
  | cons a as ih =>
    obtain ⟨m, hm, ht⟩ := run_cons.mp h
    rw [List.cons_append, meets_cons hm, meets_cons hm, ih ht, and_assoc]

@[simp] theorem along_nil (s : σ) : Along step Q s [] := trivial

theorem along_cons {s m : σ} {a : α} {as : List α} (h : step s a = some m) :
    Along step Q s (a :: as) ↔ Q s a m ∧ Along step Q m as := by
  simp [Along, h]

theorem along_append {s t : σ} {as bs : List α} (h : run step s as = some t) :
    Along step Q s (as ++ bs) ↔ Along step Q s as ∧ Along step Q t bs := by
  induction as generalizing s with
  | nil =>
    obtain rfl : s = t := by simpa using h
    simp
  | cons a as ih =>
    obtain ⟨m, hm, ht⟩ := run_cons.mp h
    rw [List.cons_append, along_cons hm, along_cons hm, ih ht, and_assoc]

/-- What holds of every step holds of the last one. -/
theorem along_last {s m t : σ} {a : α} {as : List α} (h : Along step Q s (as ++ [a]))
    (hrun : run step s as = some m) (hstep : step m a = some t) : Q m a t :=
  ((along_cons hstep).mp ((along_append hrun).mp h).2).1

instance decidableMeets [∀ s a, Decidable (ok s a)] : ∀ s as, Decidable (Meets step ok s as)
  | _, [] => inferInstanceAs (Decidable True)
  | s, a :: as =>
    match h : step s a with
    | none => decidable_of_iff (ok s a) (by simp [Meets, h])
    | some m =>
      have := decidableMeets m as
      decidable_of_iff (ok s a ∧ Meets step ok m as) (meets_cons h).symm

/-! ## Invariants -/

/-- What every step keeps, every run keeps. -/
theorem invariant {I : σ → Prop} (keep : ∀ s a s', I s → step s a = some s' → I s') {s t : σ}
    {as : List α} (hs : I s) (h : run step s as = some t) : I t := by
  induction as generalizing s with
  | nil =>
    obtain rfl : s = t := by simpa using h
    exact hs
  | cons a as ih =>
    obtain ⟨m, hm, ht⟩ := run_cons.mp h
    exact ih (keep s a m hs hm) ht

/-- What every step meeting `ok` keeps, every run of such steps keeps. -/
theorem invariant_of_meets {I : σ → Prop}
    (keep : ∀ s a s', I s → ok s a → step s a = some s' → I s') {s t : σ} {as : List α}
    (hs : I s) (hok : Meets step ok s as) (h : run step s as = some t) : I t := by
  induction as generalizing s with
  | nil =>
    obtain rfl : s = t := by simpa using h
    exact hs
  | cons a as ih =>
    obtain ⟨m, hm, ht⟩ := run_cons.mp h
    obtain ⟨ha, has⟩ := (meets_cons hm).mp hok
    exact ih (keep s a m hs ha hm) has ht

/-- With an invariant of the steps meeting `ok`, what holds of one such step
holds of every step of such a run. -/
theorem along_of_meets {I : σ → Prop}
    (keep : ∀ s a s', I s → ok s a → step s a = some s' → I s')
    (here : ∀ s a s', I s → ok s a → step s a = some s' → Q s a s') {s : σ} {as : List α}
    (hs : I s) (hok : Meets step ok s as) : Along step Q s as := by
  induction as generalizing s with
  | nil => trivial
  | cons a as ih =>
    cases hm : step s a with
    | none => simp [Along, hm]
    | some m =>
      obtain ⟨ha, has⟩ := (meets_cons hm).mp hok
      exact (along_cons hm).mpr ⟨here s a m hs ha hm, ih (keep s a m hs ha hm) has⟩

/-- Where, under an invariant, a step has the property exactly when it meets
the condition, a run has it at every step exactly when every step meets the
condition. -/
theorem along_iff_meets {I : σ → Prop} (keep : ∀ s a s', I s → step s a = some s' → I s')
    (here : ∀ s a s', I s → step s a = some s' → (Q s a s' ↔ ok s a)) {s t : σ} {as : List α} (hs : I s)
    (h : run step s as = some t) : Along step Q s as ↔ Meets step ok s as := by
  induction as generalizing s with
  | nil => simp
  | cons a as ih =>
    obtain ⟨m, hm, ht⟩ := run_cons.mp h
    rw [along_cons hm, meets_cons hm, here s a m hs hm, ih (keep s a m hs hm) ht]

/-- The same of a run of actions of a kind, each step for itself. -/
theorem along_iff_meets_of_forall {P : α → Prop}
    (here : ∀ s a s', P a → step s a = some s' → (Q s a s' ↔ ok s a)) {s t : σ} {as : List α}
    (hP : ∀ a ∈ as, P a) (h : run step s as = some t) : Along step Q s as ↔ Meets step ok s as := by
  induction as generalizing s with
  | nil => simp
  | cons a as ih =>
    obtain ⟨m, hm, ht⟩ := run_cons.mp h
    rw [along_cons hm, meets_cons hm, here s a m (hP a List.mem_cons_self) hm,
      ih (fun b hb => hP b (List.mem_cons_of_mem a hb)) ht]

/-- Where, under `I`, a step has the property exactly when it meets the condition,
and such a step keeps `I`, a run has the property at every step exactly when every
step meets the condition. `J` is what every step keeps. -/
theorem along_iff_meets_of_keep {I J : σ → Prop} (keep : ∀ s a s', J s → step s a = some s' → J s')
    (here : ∀ s a s', J s → I s → step s a = some s' → (Q s a s' ↔ ok s a))
    (next : ∀ s a s', J s → I s → step s a = some s' → ok s a → I s') {s t : σ} {as : List α} (hJ : J s)
    (hI : I s) (h : run step s as = some t) : Along step Q s as ↔ Meets step ok s as := by
  induction as generalizing s with
  | nil => simp
  | cons a as ih =>
    obtain ⟨m, hm, ht⟩ := run_cons.mp h
    rw [along_cons hm, meets_cons hm, here s a m hJ hI hm]
    exact and_congr_right fun hok => ih (keep s a m hJ hm) (next s a m hJ hI hm hok) ht

/-- Where a step keeps `I` exactly when it meets the condition, a run keeps it
throughout exactly when every step meets the condition. -/
theorem along_next_iff_meets {I J : σ → Prop} (keep : ∀ s a s', J s → step s a = some s' → J s')
    (here : ∀ s a s', J s → I s → step s a = some s' → (I s' ↔ ok s a)) {s t : σ} {as : List α} (hJ : J s)
    (hI : I s) (h : run step s as = some t) : Along step (fun _ _ s' => I s') s as ↔ Meets step ok s as :=
  along_iff_meets_of_keep keep here (fun s a s' hJ hI hstep => (here s a s' hJ hI hstep).mpr) hJ hI h

/-- Where a step having the property meets the condition, under an invariant
that such steps keep, a run that has it at every step meets the condition. -/
theorem meets_of_along {I : σ → Prop} (keep : ∀ s a s', I s → ok s a → step s a = some s' → I s')
    (here : ∀ s a s', I s → step s a = some s' → Q s a s' → ok s a) {s t : σ} {as : List α} (hs : I s)
    (h : run step s as = some t) (hQ : Along step Q s as) : Meets step ok s as := by
  induction as generalizing s with
  | nil => trivial
  | cons a as ih =>
    obtain ⟨m, hm, ht⟩ := run_cons.mp h
    obtain ⟨ha, has⟩ := (along_cons hm).mp hQ
    have hok := here s a m hs hm ha
    exact (meets_cons hm).mpr ⟨hok, ih (keep s a m hs hok hm) ht has⟩

theorem Meets.and {ok' : σ → α → Prop} {s : σ} {as : List α} (h : Meets step ok s as)
    (h' : Meets step ok' s as) : Meets step (fun s a => ok s a ∧ ok' s a) s as := by
  induction as generalizing s with
  | nil => trivial
  | cons a as ih =>
    refine ⟨⟨h.1, h'.1⟩, ?_⟩
    have h₂ := h.2
    have h₂' := h'.2
    split at h₂ <;> simp_all

/-- A condition on the actions alone is met by a run of such actions. -/
theorem meets_of_forall {ok : α → Prop} {s : σ} {as : List α} (h : ∀ a ∈ as, ok a) :
    Meets step (fun _ a => ok a) s as := by
  induction as generalizing s with
  | nil => trivial
  | cons a as ih =>
    refine ⟨h a (by simp), ?_⟩
    split
    · trivial
    · exact ih fun b hb => h b (by simp [hb])

end Runs
