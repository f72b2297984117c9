/-
Loops in C over a buffer: a pointer into it and an unsigned counter of the octets that
are left, both moved by as many octets as a turn of the loop says. Nothing keeps the
counter from wrapping or the pointer from leaving the buffer; `octetsAt` is what a read
through the pointer finds, and nothing outside the buffer.

`bounded` is the rule for a loop that does neither, given what its turns preserve, and
`unbounded` is for one that does.
-/
import Mathlib.Algebra.Order.Ring.Nat
import Mathlib.Data.List.Basic
import Mathlib.Logic.Relation
import Mathlib.Tactic.Common

/-- The pointer, from the start of the buffer, and the counter. -/
structure Cursor where
  off : ℕ
  left : ℕ
deriving DecidableEq, Repr

namespace Cursor

variable {α σ ε : Type*}

def start (buf : List α) : Cursor := ⟨0, buf.length⟩

/-- The counter has 64 bits. -/
def advance (c : Cursor) (n : ℕ) : Cursor := ⟨c.off + n, (c.left + 2 ^ 64 - n) % 2 ^ 64⟩

/-- What is left is what is behind the pointer. -/
def Within (c : Cursor) (buf : List α) : Prop := c.off + c.left = buf.length

def octetsAt (buf : List α) (off n : ℕ) : Option (List α) :=
  if off + n ≤ buf.length then some ((buf.drop off).take n) else none

theorem octetsAt_eq {buf : List α} {off n : ℕ} (h : off + n ≤ buf.length) :
    octetsAt buf off n = some ((buf.drop off).take n) := if_pos h

theorem octetsAt_eq_none {buf : List α} {off n : ℕ} : octetsAt buf off n = none ↔ buf.length < off + n := by
  unfold octetsAt
  split
  · simp only [reduceCtorEq, false_iff]
    omega
  · simp only [true_iff]
    omega

theorem Within.octetsAt {c : Cursor} {buf : List α} (h : c.Within buf) {n : ℕ} (hn : n ≤ c.left) :
    octetsAt buf c.off n = some ((buf.drop c.off).take n) := by
  have hlen : c.off + c.left = buf.length := h
  exact octetsAt_eq (by omega)

theorem Within.length_drop {c : Cursor} {buf : List α} (h : c.Within buf) : (buf.drop c.off).length = c.left := by
  have hlen : c.off + c.left = buf.length := h
  rw [List.length_drop]
  omega

theorem within_start (buf : List α) : (start buf).Within buf := Nat.zero_add _

theorem Within.advance {c : Cursor} {buf : List α} (hbuf : buf.length < 2 ^ 64) (h : c.Within buf) {n : ℕ}
    (hn : n ≤ c.left) : (c.advance n).Within buf := by
  have hlen : c.off + c.left = buf.length := h
  show c.off + n + (c.left + 2 ^ 64 - n) % 2 ^ 64 = buf.length
  omega

theorem not_within_advance {c : Cursor} {buf : List α} (h : c.Within buf) {n : ℕ} (hn : c.left < n) :
    ¬(c.advance n).Within buf := by
  have hlen : c.off + c.left = buf.length := h
  show ¬c.off + n + (c.left + 2 ^ 64 - n) % 2 ^ 64 = buf.length
  omega

/-! ## Loops -/

/-- `some (s, n)` goes on in `s`, `n` octets further; `none` ends. -/
abbrev Turn (σ ε : Type*) := σ → Cursor → Except ε (Option (σ × ℕ))

/-- `none` where there are more turns than that. -/
def run (turn : Turn σ ε) : ℕ → σ → Cursor → Option (Except ε σ)
  | 0, _, _ => none
  | n + 1, s, c =>
    match turn s c with
    | .error e => some (.error e)
    | .ok none => some (.ok s)
    | .ok (some (s', k)) => run turn n s' (c.advance k)

/-- As many turns as there are octets, and the one that ends the loop. -/
def loop (turn : Turn σ ε) (s : σ) (buf : List α) : Option (Except ε σ) := run turn (buf.length + 1) s (start buf)

/-- From one turn to the next. -/
def Step (turn : Turn σ ε) (p q : σ × Cursor) : Prop :=
  ∃ k, turn p.1 p.2 = .ok (some (q.1, k)) ∧ q.2 = p.2.advance k

/-- The loop comes to an end in `r` without having read outside of the buffer, and at
every turn the counter is what is left of it. -/
structure Bounded (overrun : ε) (turn : Turn σ ε) (s : σ) (buf : List α) (r : Except ε σ) : Prop where
  ends : loop turn s buf = some r
  inside : r ≠ .error overrun
  within : ∀ q, Relation.ReflTransGen (Step turn) (s, start buf) q → q.2.Within buf

variable {turn : Turn σ ε} {overrun : ε}

theorem run_of_invariant {I : σ → Cursor → Prop}
    (hstep : ∀ s c, I s c → turn s c ≠ .error overrun ∧
      ∀ s' k, turn s c = .ok (some (s', k)) → 0 < k ∧ k ≤ c.left ∧ I s' (c.advance k))
    {n : ℕ} {s : σ} {c : Cursor} (hs : I s c) (hn : c.left < n) (hleft : c.left < 2 ^ 64) :
    ∃ r, run turn n s c = some r ∧ r ≠ .error overrun := by
  induction n generalizing s c with
  | zero => omega
  | succ n ih =>
    obtain ⟨hinside, hnext⟩ := hstep s c hs
    rw [run]
    cases ht : turn s c with
    | error e => exact ⟨_, rfl, fun h => hinside (ht.trans (congrArg _ (Except.error.inj h)))⟩
    | ok r =>
      cases r with
      | none => exact ⟨_, rfl, fun h => by cases h⟩
      | some p =>
        obtain ⟨hpos, hle, hp⟩ := hnext p.1 p.2 ht
        have hleft' : (c.advance p.2).left = c.left - p.2 := by
          show (c.left + 2 ^ 64 - p.2) % 2 ^ 64 = c.left - p.2
          omega
        exact ih hp (by omega) (by omega)

theorem run_mono {n m : ℕ} (hnm : n ≤ m) {s : σ} {c : Cursor} {r : Except ε σ} (h : run turn n s c = some r) :
    run turn m s c = some r := by
  induction n generalizing m s c with
  | zero => cases h
  | succ n ih =>
    obtain ⟨m, rfl⟩ : ∃ k, m = k + 1 := ⟨m - 1, by omega⟩
    rw [run] at h ⊢
    split at h
    · exact h
    · exact h
    · exact ih (by omega) h

/-- Where the steps of a loop end, the loop ends. -/
theorem run_of_steps {p q : σ × Cursor} (h : Relation.ReflTransGen (Step turn) p q) (hend : turn q.1 q.2 = .ok none) :
    ∃ n, run turn n p.1 p.2 = some (.ok q.1) := by
  induction h using Relation.ReflTransGen.head_induction_on with
  | refl => exact ⟨1, by rw [run, hend]⟩
  | head hstep _ ih =>
    obtain ⟨n, hn⟩ := ih
    obtain ⟨k, ht, hc⟩ := hstep
    rw [hc] at hn
    exact ⟨n + 1, by rw [run, ht]; exact hn⟩

theorem Bounded.eq_of_steps {buf : List α} {s : σ} {r : Except ε σ} (h : Bounded overrun turn s buf r) {q : σ × Cursor}
    (hsteps : Relation.ReflTransGen (Step turn) (s, start buf) q) (hend : turn q.1 q.2 = .ok none) : r = .ok q.1 := by
  obtain ⟨n, hn⟩ := run_of_steps hsteps hend
  have hr := run_mono (Nat.le_max_left (buf.length + 1) n) h.ends
  rw [run_mono (Nat.le_max_right (buf.length + 1) n) hn, Option.some.injEq] at hr
  exact hr.symm

/-- Over encoded elements, each taken into the state by a turn. -/
theorem steps_encode {β : Type*} {buf : List α} (hbuf : buf.length < 2 ^ 64) {encode : β → List α} {put : σ → β → σ}
    {bs : List β} (hturn : ∀ b ∈ bs, ∀ s before after, buf = before ++ (encode b ++ after) →
      turn s ⟨before.length, (encode b ++ after).length⟩ = .ok (some (put s b, (encode b).length)))
    {before after : List α} (h : buf = before ++ (bs.flatMap encode ++ after)) (s : σ) :
    Relation.ReflTransGen (Step turn) (s, ⟨before.length, (bs.flatMap encode ++ after).length⟩)
      (bs.foldl put s, ⟨(before ++ bs.flatMap encode).length, after.length⟩) := by
  induction bs generalizing before s with
  | nil =>
    rw [List.flatMap_nil, List.append_nil]
    exact .refl
  | cons b bs ih =>
    rw [List.flatMap_cons, List.append_assoc] at h
    have hlen := congrArg List.length h
    simp only [List.length_append] at hlen
    have hnext : (⟨before.length, ((b :: bs).flatMap encode ++ after).length⟩ : Cursor).advance (encode b).length =
        ⟨(before ++ encode b).length, (bs.flatMap encode ++ after).length⟩ := by
      simp only [advance, List.flatMap_cons, List.length_append, Cursor.mk.injEq, true_and]
      omega
    have htail : buf = before ++ encode b ++ (bs.flatMap encode ++ after) := by rw [h, List.append_assoc]
    have hrest := ih (fun c hc => hturn c (List.mem_cons_of_mem b hc)) htail (put s b)
    rw [List.append_assoc, ← List.flatMap_cons] at hrest
    refine .head ⟨(encode b).length, ?_, hnext.symm⟩ hrest
    rw [List.flatMap_cons, List.append_assoc]
    exact hturn b List.mem_cons_self s before _ h

/-- The same, turn by turn. -/
theorem run_encode {β : Type*} {buf : List α} (hbuf : buf.length < 2 ^ 64) {encode : β → List α} {put : σ → β → σ}
    {bs : List β} (hturn : ∀ b ∈ bs, ∀ s before after, buf = before ++ (encode b ++ after) →
      turn s ⟨before.length, (encode b ++ after).length⟩ = .ok (some (put s b, (encode b).length)))
    {before after : List α} (h : buf = before ++ (bs.flatMap encode ++ after)) (s : σ) (n : ℕ) :
    run turn (bs.length + n) s ⟨before.length, (bs.flatMap encode ++ after).length⟩ =
      run turn n (bs.foldl put s) ⟨(before ++ bs.flatMap encode).length, after.length⟩ := by
  induction bs generalizing before s with
  | nil => rw [List.flatMap_nil, List.append_nil, List.nil_append, List.length_nil, Nat.zero_add, List.foldl_nil]
  | cons b bs ih =>
    rw [List.flatMap_cons, List.append_assoc] at h
    have hlen := congrArg List.length h
    simp only [List.length_append] at hlen
    have hnext : (⟨before.length, (encode b ++ (bs.flatMap encode ++ after)).length⟩ : Cursor).advance
        (encode b).length = ⟨(before ++ encode b).length, (bs.flatMap encode ++ after).length⟩ := by
      simp only [advance, List.length_append, Cursor.mk.injEq, true_and]
      omega
    have htail : buf = before ++ encode b ++ (bs.flatMap encode ++ after) := by rw [h, List.append_assoc]
    have hrest := ih (fun c hc => hturn c (List.mem_cons_of_mem b hc)) htail (put s b)
    rw [List.flatMap_cons, List.append_assoc, List.length_cons, Nat.add_right_comm, run,
      hturn b List.mem_cons_self s before _ h]
    dsimp only
    rw [hnext, hrest, List.foldl_cons, List.append_assoc]

section

variable {β : Type*} {encode : β → List α} {put : σ → β → σ} {bs : List β} (hbuf : (bs.flatMap encode).length < 2 ^ 64)
  (hturn : ∀ b ∈ bs, ∀ s before after, bs.flatMap encode = before ++ (encode b ++ after) →
    turn s ⟨before.length, (encode b ++ after).length⟩ = .ok (some (put s b, (encode b).length)))

include hbuf hturn

/-- A buffer that is encoded elements and nothing else. -/
theorem loop_encode (hpos : ∀ b ∈ bs, 0 < (encode b).length) (hend : ∀ s off, turn s ⟨off, 0⟩ = .ok none) (s : σ) :
    loop turn s (bs.flatMap encode) = some (.ok (bs.foldl put s)) := by
  have hcount : bs.length ≤ (bs.flatMap encode).length := by
    clear hbuf hturn
    induction bs with
    | nil => exact Nat.zero_le _
    | cons b bs ih =>
      have hhead := hpos b List.mem_cons_self
      have htail := ih fun c hc => hpos c (List.mem_cons_of_mem b hc)
      rw [List.flatMap_cons, List.length_append, List.length_cons]
      omega
  have hall : bs.flatMap encode = [] ++ (bs.flatMap encode ++ []) := by rw [List.append_nil, List.nil_append]
  have hrun := run_encode hbuf hturn hall s ((bs.flatMap encode).length - bs.length + 1)
  rw [List.append_nil, List.length_nil, run, hend] at hrun
  rw [loop, show (bs.flatMap encode).length + 1 = bs.length + ((bs.flatMap encode).length - bs.length + 1) by omega]
  exact hrun

end

/-- A loop whose turns, under an invariant, read inside the buffer and take no more than
is left of it. -/
theorem bounded {buf : List α} (hbuf : buf.length < 2 ^ 64) {I : σ → Cursor → Prop} {s : σ} (hs : I s (start buf))
    (hstep : ∀ s c, c.Within buf → I s c → turn s c ≠ .error overrun ∧
      ∀ s' k, turn s c = .ok (some (s', k)) → 0 < k ∧ k ≤ c.left ∧ I s' (c.advance k)) :
    ∃ r, Bounded overrun turn s buf r := by
  have hboth : ∀ s c, c.Within buf ∧ I s c → turn s c ≠ .error overrun ∧
      ∀ s' k, turn s c = .ok (some (s', k)) → 0 < k ∧ k ≤ c.left ∧ (c.advance k).Within buf ∧ I s' (c.advance k) := by
    intro s c hc
    obtain ⟨hinside, hnext⟩ := hstep s c hc.1 hc.2
    refine ⟨hinside, fun s' k ht => ?_⟩
    obtain ⟨hpos, hle, hI⟩ := hnext s' k ht
    exact ⟨hpos, hle, hc.1.advance hbuf hle, hI⟩
  obtain ⟨r, hr, hinside⟩ := run_of_invariant hboth ⟨within_start buf, hs⟩ (Nat.lt_succ_self _) hbuf
  refine ⟨r, hr, hinside, fun q hq => ?_⟩
  have hinv : q.2.Within buf ∧ I q.1 q.2 := by
    induction hq with
    | refl => exact ⟨within_start buf, hs⟩
    | tail _ hlast ih =>
      obtain ⟨k, ht, hc⟩ := hlast
      obtain ⟨_, _, hnext⟩ := (hboth _ _ ih).2 _ _ ht
      rw [hc]
      exact hnext
  exact hinv.1

end Cursor
