/-
Loops over a buffer. A turn of the loop is handed what is left of the buffer, and
either ends the loop, or takes symbols off the buffer and goes on, or fails. Where
every turn that goes on takes something off (`Advances`), there are no more turns than
symbols, and the loop has the rules it is read by: `loop_next` and `loop_end` for a
turn, `loop_encode` for encoded elements in front of the rest, and `loop_rule` for what
is kept from turn to turn along with the length that is left.
-/
import Mathlib.Data.List.Basic
import Mathlib.Tactic.Common

namespace Loop

variable {α σ ε β : Type*}

/-- `some (s, n)` goes on in `s` behind the first `n` symbols, `none` ends. -/
abbrev Turn (α σ ε : Type*) := σ → List α → Except ε (Option (σ × ℕ))

def run (turn : Turn α σ ε) : ℕ → σ → List α → Except ε σ
  | 0, s, _ => .ok s
  | n + 1, s, l =>
    match turn s l with
    | .error e => .error e
    | .ok none => .ok s
    | .ok (some (s', k)) => run turn n s' (l.drop k)

/-- The loop, in one turn more than there are symbols. -/
def loop (turn : Turn α σ ε) (s : σ) (l : List α) : Except ε σ := run turn (l.length + 1) s l

/-- A turn that goes on takes something off, and not more than there is. -/
def Advances (turn : Turn α σ ε) : Prop :=
  ∀ s l s' k, turn s l = .ok (some (s', k)) → 0 < k ∧ k ≤ l.length

variable {turn : Turn α σ ε}

theorem run_add (hturn : Advances turn) {n : ℕ} {l : List α} (h : l.length < n) (k : ℕ) (s : σ) :
    run turn (n + k) s l = run turn n s l := by
  induction n generalizing l s with
  | zero => omega
  | succ n ih =>
    rw [show n + 1 + k = n + k + 1 by omega, run, run]
    cases ht : turn s l with
    | error e => rfl
    | ok r =>
      cases r with
      | none => rfl
      | some p =>
        obtain ⟨hpos, hle⟩ := hturn s l p.1 p.2 ht
        refine ih ?_ p.1
        rw [List.length_drop]
        omega

theorem loop_end {s : σ} {l : List α} (h : turn s l = .ok none) : loop turn s l = .ok s := by
  rw [loop, run, h]

theorem loop_error {s : σ} {l : List α} {e : ε} (h : turn s l = .error e) : loop turn s l = .error e := by
  rw [loop, run, h]

theorem loop_next (hturn : Advances turn) {s s' : σ} {l : List α} {k : ℕ} (h : turn s l = .ok (some (s', k))) :
    loop turn s l = loop turn s' (l.drop k) := by
  obtain ⟨hpos, hle⟩ := hturn s l s' k h
  have hlen : (l.drop k).length < (l.drop k).length + 1 := Nat.lt_succ_self _
  have hfuel : l.length = (l.drop k).length + 1 + (k - 1) := by
    rw [List.length_drop]
    omega
  rw [loop, run, h]
  dsimp only
  rw [hfuel, run_add hturn hlen, loop]

/-- Encoded elements in front of a rest with `P`, which more elements in front preserve:
each of them is taken into the state. -/
theorem loop_encode (hturn : Advances turn) {encode : β → List α} {put : σ → β → σ} {bs : List β} {P : List α → Prop}
    (hP : ∀ b ∈ bs, ∀ rest, P rest → P (encode b ++ rest))
    (h : ∀ b ∈ bs, ∀ s rest, P rest → turn s (encode b ++ rest) = .ok (some (put s b, (encode b).length))) (s : σ)
    {rest : List α} (hrest : P rest) :
    loop turn s (bs.flatMap encode ++ rest) = loop turn (bs.foldl put s) rest := by
  have hall : P (bs.flatMap encode ++ rest) ∧
      ∀ s, loop turn s (bs.flatMap encode ++ rest) = loop turn (bs.foldl put s) rest := by
    induction bs with
    | nil => exact ⟨hrest, fun _ => rfl⟩
    | cons b bs ih =>
      obtain ⟨hPtail, htail⟩ := ih (fun c hc => hP c (by simp [hc])) fun c hc => h c (by simp [hc])
      rw [List.flatMap_cons, List.append_assoc]
      refine ⟨hP b (by simp) _ hPtail, fun s => ?_⟩
      rw [loop_next hturn (h b (by simp) s _ hPtail), List.drop_left, htail, List.foldl_cons]
  exact hall.2 s

/-- What every turn preserves, of the state and of the length that is left, holds in the
end. -/
theorem loop_rule {P : σ → ℕ → Prop}
    (hstep : ∀ s l s' k, P s l.length → turn s l = .ok (some (s', k)) → P s' (l.length - k)) {s s' : σ} {l : List α}
    (hs : P s l.length) (h : loop turn s l = .ok s') : ∃ n, P s' n := by
  unfold loop at h
  generalize l.length + 1 = n at h
  induction n generalizing s l with
  | zero =>
    cases h
    exact ⟨_, hs⟩
  | succ n ih =>
    rw [run] at h
    split at h
    · cases h
    · cases h
      exact ⟨_, hs⟩
    · next s₁ k ht =>
      refine ih ?_ h
      rw [List.length_drop]
      exact hstep s l s₁ k hs ht

end Loop
