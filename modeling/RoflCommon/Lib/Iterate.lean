/-
Loops that nothing bounds. A turn of the loop goes on in another state, ends the loop or
fails; the loop comes to an end in `r` (`Ends`) where so many turns do, and there is at
most one such `r` (`Ends.unique`). `ends_next` is one turn, `ends_iterate` are turns that are
known one by one, `Ends.rule` is what every turn keeps, and `forall_step_next` what each of them
does. `ends_of_measure` is for loops that do come to an end, and `not_ends_of_fixed` for those
that stay where they are.
-/
import Mathlib.Data.Nat.Basic
import Mathlib.Logic.Relation
import Mathlib.Tactic.Common

namespace Iterate

variable {σ ε : Type*}

/-- `some` goes on in a state, `none` ends. -/
abbrev Body (σ ε : Type*) := σ → Except ε (Option σ)

/-- `none` where there are more turns than that. -/
def run (body : Body σ ε) : ℕ → σ → Option (Except ε σ)
  | 0, _ => none
  | n + 1, s =>
    match body s with
    | .error e => some (.error e)
    | .ok none => some (.ok s)
    | .ok (some s') => run body n s'

def Ends (body : Body σ ε) (s : σ) (r : Except ε σ) : Prop := ∃ n, run body n s = some r

/-- From one turn to the next. -/
def Step (body : Body σ ε) (s s' : σ) : Prop := body s = .ok (some s')

variable {body : Body σ ε} {s s' : σ} {r r' : Except ε σ}

theorem ends_error {e : ε} (h : body s = .error e) : Ends body s r ↔ r = .error e := by
  constructor
  · rintro ⟨n, hn⟩
    cases n with
    | zero => cases hn
    | succ n =>
      rw [run, h] at hn
      exact (Option.some.inj hn).symm
  · rintro rfl
    exact ⟨1, by rw [run, h]⟩

theorem ends_done (h : body s = .ok none) : Ends body s r ↔ r = .ok s := by
  constructor
  · rintro ⟨n, hn⟩
    cases n with
    | zero => cases hn
    | succ n =>
      rw [run, h] at hn
      exact (Option.some.inj hn).symm
  · rintro rfl
    exact ⟨1, by rw [run, h]⟩

theorem ends_next (h : body s = .ok (some s')) : Ends body s r ↔ Ends body s' r := by
  constructor
  · rintro ⟨n, hn⟩
    cases n with
    | zero => cases hn
    | succ n =>
      rw [run, h] at hn
      exact ⟨n, hn⟩
  · rintro ⟨n, hn⟩
    refine ⟨n + 1, ?_⟩
    rw [run, h]
    exact hn

theorem Ends.unique (h : Ends body s r) (h' : Ends body s r') : r = r' := by
  obtain ⟨n, hn⟩ := h
  induction n generalizing s with
  | zero => cases hn
  | succ n ih =>
    rw [run] at hn
    cases hb : body s with
    | error e =>
      rw [hb] at hn
      rw [(ends_error hb).mp h']
      exact (Option.some.inj hn).symm
    | ok o =>
      cases o with
      | none =>
        rw [hb] at hn
        rw [(ends_done hb).mp h']
        exact (Option.some.inj hn).symm
      | some t =>
        rw [hb] at hn
        exact ih ((ends_next hb).mp h') hn

/-- Turns that are known one by one. -/
theorem ends_iterate {f : ℕ → σ} {n : ℕ} (h : ∀ k, k < n → body (f k) = .ok (some (f (k + 1)))) :
    Ends body (f 0) r ↔ Ends body (f n) r := by
  induction n with
  | zero => rfl
  | succ n ih =>
    have hlast := h n (Nat.lt_succ_self n)
    exact (ih fun k hk => h k (by omega)).trans (ends_next hlast)

/-- A turn that leaves all as it was is taken again. -/
theorem not_ends_of_fixed (h : body s = .ok (some s)) : ¬Ends body s r := by
  rintro ⟨n, hn⟩
  induction n with
  | zero => cases hn
  | succ n ih =>
    rw [run, h] at hn
    exact ih hn

/-- All turns that a loop takes: none where it stops at once. -/
theorem forall_step_stop (h : ∀ s', ¬Step body s s') {P : σ → σ → Prop} :
    ∀ t t', Relation.ReflTransGen (Step body) s t → Step body t t' → P t t' := by
  intro t t' ht hstep
  rcases ht.cases_head with rfl | ⟨u, hu, _⟩
  · exact absurd hstep (h t')
  · exact absurd hu (h u)

theorem forall_step_done (h : body s = .ok none) {P : σ → σ → Prop} :
    ∀ t t', Relation.ReflTransGen (Step body) s t → Step body t t' → P t t' :=
  forall_step_stop fun s' hstep => by cases h.symm.trans hstep

theorem forall_step_error {e : ε} (h : body s = .error e) {P : σ → σ → Prop} :
    ∀ t t', Relation.ReflTransGen (Step body) s t → Step body t t' → P t t' :=
  forall_step_stop fun s' hstep => by cases h.symm.trans hstep

/-- The first one, and those behind it. -/
theorem forall_step_next (h : body s = .ok (some s')) {P : σ → σ → Prop} :
    (∀ t t', Relation.ReflTransGen (Step body) s t → Step body t t' → P t t') ↔
      P s s' ∧ ∀ t t', Relation.ReflTransGen (Step body) s' t → Step body t t' → P t t' := by
  constructor
  · intro hall
    exact ⟨hall s s' .refl h, fun t t' ht => hall t t' (ht.head h)⟩
  · rintro ⟨hfirst, hrest⟩ t t' ht hstep
    rcases ht.cases_head with rfl | ⟨u, hu, htail⟩
    · cases h.symm.trans hstep
      exact hfirst
    · cases h.symm.trans hu
      exact hrest t t' htail hstep

/-- Every turn that goes on keeps `I` and takes something from a measure. -/
theorem ends_of_measure {I : σ → Prop} (m : σ → ℕ)
    (hstep : ∀ s s', I s → body s = .ok (some s') → I s' ∧ m s' < m s) (hs : I s) : ∃ r, Ends body s r := by
  induction hn : m s using Nat.strongRecOn generalizing s with
  | ind n ih =>
    cases hb : body s with
    | error e => exact ⟨_, (ends_error hb).mpr rfl⟩
    | ok o =>
      cases o with
      | none => exact ⟨_, (ends_done hb).mpr rfl⟩
      | some t =>
        obtain ⟨ht, hlt⟩ := hstep s t hs hb
        obtain ⟨r, hr⟩ := ih (m t) (by omega) ht rfl
        exact ⟨r, (ends_next hb).mpr hr⟩

/-- What every turn keeps holds at the end, where the last turn ends the loop. -/
theorem Ends.rule {I : σ → Prop} (hstep : ∀ s s', I s → body s = .ok (some s') → I s') (hs : I s) {t : σ}
    (h : Ends body s (.ok t)) : I t ∧ body t = .ok none := by
  obtain ⟨n, hn⟩ := h
  induction n generalizing s with
  | zero => cases hn
  | succ n ih =>
    rw [run] at hn
    cases hb : body s with
    | error e =>
      rw [hb] at hn
      cases Option.some.inj hn
    | ok o =>
      cases o with
      | none =>
        rw [hb] at hn
        cases Option.some.inj hn
        exact ⟨hs, hb⟩
      | some u =>
        rw [hb] at hn
        exact ih (hstep s u hs hb) hn

end Iterate
