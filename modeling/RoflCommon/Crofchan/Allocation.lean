/-
`add_conn()` without an id: the search for one that is free.

The counter goes down before an id is looked at, and decides alone what the search has
found. At the last of the 256 ids it is zero, and the id is refused though it is free; where
all are in use it wraps to `UINT_MAX` behind the last one, and the search takes the id it
started with. So `add_conn` does what it is for exactly where one of the first 255 ids is
free (`allocates_iff`).
-/
import RoflCommon.Crofchan.Headed
import Mathlib.Data.Nat.Find

namespace RoflCommon

namespace Crofchan

/-- The id that is looked at after `n` others. -/
def probe (auxid : Auxid) (n : ℕ) : Auxid := auxid + Fin.ofNat 256 n

@[simp] theorem probe_zero (auxid : Auxid) : probe auxid 0 = auxid := by
  apply Fin.ext
  simp [probe]

theorem probe_succ (auxid : Auxid) (n : ℕ) : probe (auxid + 1) n = probe auxid (n + 1) := by
  apply Fin.ext
  have hone : ((1 : Auxid) : ℕ) = 1 := rfl
  simp only [probe, Fin.val_add, Fin.val_ofNat, hone]
  omega

/-- The search looks at every id. -/
theorem exists_probe (auxid other : Auxid) : ∃ n < 256, probe auxid n = other := by
  refine ⟨(other + 256 - auxid : ℕ) % 256, Nat.mod_lt _ (by decide), Fin.ext ?_⟩
  have := auxid.isLt
  have := other.isLt
  simp only [probe, Fin.val_add, Fin.val_ofNat]
  omega

theorem probe_256 (auxid : Auxid) : probe auxid 256 = auxid := by
  apply Fin.ext
  have := auxid.isLt
  simp only [probe, Fin.val_add, Fin.val_ofNat]
  omega

variable {conns : Omap Auxid ℕ}

/-- Where the search ends when it finds nothing: one id further, the counter wrapped. -/
theorem nextAuxid_of_used {n : ℕ} {auxid : Auxid} (h : ∀ i < n, conns.find? (probe auxid i) ≠ none) :
    nextAuxid conns n auxid = (0xffffffff, probe auxid n) := by
  induction n generalizing auxid with
  | zero => rw [nextAuxid, probe_zero]
  | succ n ih =>
    have hfirst : conns.find? auxid ≠ none := by simpa using h 0 n.succ_pos
    have hrest : ∀ i < n, conns.find? (probe (auxid + 1) i) ≠ none := by
      intro i hi
      rw [probe_succ]
      exact h (i + 1) (by omega)
    rw [nextAuxid, if_neg hfirst, ih hrest, probe_succ]

/-- What it finds, and what the counter says then. -/
theorem nextAuxid_of_free {n i : ℕ} {auxid : Auxid} (hi : i < n) (hfree : conns.find? (probe auxid i) = none)
    (h : ∀ j < i, conns.find? (probe auxid j) ≠ none) :
    nextAuxid conns n auxid = (n - 1 - i, probe auxid i) := by
  induction n generalizing i auxid with
  | zero => omega
  | succ n ih =>
    cases i with
    | zero =>
      rw [nextAuxid, if_pos (by simpa using hfree), probe_zero]
      rfl
    | succ i =>
      have hfirst : conns.find? auxid ≠ none := by simpa using h 0 i.succ_pos
      have hrest : ∀ j < i, conns.find? (probe (auxid + 1) j) ≠ none := by
        intro j hj
        rw [probe_succ]
        exact h (j + 1) (by omega)
      rw [nextAuxid, if_neg hfirst, ih (by omega) (by rw [probe_succ]; exact hfree) hrest, probe_succ]
      congr 1
      omega

/-! ## What `add_conn()` is for -/

/-- A connection that has just been made is returned, under an id that was free, and the
others are as they were. -/
structure AddsFree (c : Crofchan) (chan : ℕ) (h : ConnHeap) (auxid : Auxid) (r : ConnHeap × Crofchan) : Prop where
  free : c.conns.find? auxid = none
  added : r.2.conns.find? auxid = some h.next
  made : r.1.conn h.next = fresh auxid ∧ r.1.env h.next = some chan
  conns : ∀ other, other ≠ auxid → r.2.conns.find? other = c.conns.find? other
  untouched : ∀ id, id ≠ h.next → r.1.conn id = h.conn id ∧ r.1.env id = h.env id
  connsDeletion : r.1.connsDeletion = h.connsDeletion

/-- A free id is found where there is one, and `eRofChanExhausted` thrown where there is
none. -/
structure Allocates (c : Crofchan) (chan : ℕ) (h : ConnHeap) : Prop where
  found : (∃ auxid, c.conns.find? auxid = none) →
    (c.addConn chan h).2 = none ∧ ∃ auxid, c.AddsFree chan h auxid (c.addConn chan h).1
  exhausted : (∀ auxid, c.conns.find? auxid ≠ none) →
    (c.addConn chan h).2 = some .exhausted ∧ (c.addConn chan h).1.1 = h ∧ (c.addConn chan h).1.2.conns = c.conns

variable {c : Crofchan} {self : ℕ} {h : ConnHeap}

theorem addsFree_create {auxid auxid' : Auxid} (hfree : c.conns.find? auxid = none) :
    c.AddsFree self h auxid (create { c with lastAuxid := auxid' } self h auxid) where
  free := hfree
  added := by rw [create, Omap.find?_insert, if_pos rfl]
  made := ⟨Function.update_self _ _ _, Function.update_self _ _ _⟩
  conns other hother := by rw [create, Omap.find?_insert, if_neg hother]
  untouched id hid := ⟨Function.update_of_ne hid _ _, Function.update_of_ne hid _ _⟩
  connsDeletion := rfl

/-- The first free id is not the last one looked at. -/
theorem addConn_of_free {i : ℕ} (hi : i < 255) (hfree : c.conns.find? (probe c.lastAuxid i) = none)
    (hused : ∀ j < i, c.conns.find? (probe c.lastAuxid j) ≠ none) :
    c.addConn self h =
      (create { c with lastAuxid := probe c.lastAuxid i } self h (probe c.lastAuxid i), none) := by
  unfold addConn
  rw [nextAuxid_of_free (by omega) hfree hused]
  exact if_neg (by omega)

theorem addConn_of_last (self : ℕ) (h : ConnHeap) (hfree : c.conns.find? (probe c.lastAuxid 255) = none)
    (hused : ∀ j < 255, c.conns.find? (probe c.lastAuxid j) ≠ none) :
    (c.addConn self h).2 = some .exception := by
  unfold addConn
  rw [nextAuxid_of_free (by omega) hfree hused]
  rfl

/-- All ids are in use, and the connection under the first one is replaced. -/
theorem addConn_of_used (self : ℕ) (h : ConnHeap) (hused : ∀ auxid, c.conns.find? auxid ≠ none) :
    c.addConn self h = (create c self h c.lastAuxid, none) := by
  unfold addConn
  rw [nextAuxid_of_used fun i _ => hused _, probe_256]
  rfl

/-- **One of the first 255 ids is free**, and `add_conn()` finds it. -/
theorem allocates_iff (c : Crofchan) (self : ℕ) (h : ConnHeap) :
    c.Allocates self h ↔ ∃ i < 255, c.conns.find? (probe c.lastAuxid i) = none := by
  constructor
  · intro hall
    by_contra hnone
    have hused : ∀ i < 255, c.conns.find? (probe c.lastAuxid i) ≠ none := fun i hi hi' => hnone ⟨i, hi, hi'⟩
    by_cases hlast : c.conns.find? (probe c.lastAuxid 255) = none
    · have hthrown := addConn_of_last self h hlast hused
      rw [(hall.found ⟨_, hlast⟩).1] at hthrown
      cases hthrown
    · have hfull : ∀ auxid, c.conns.find? auxid ≠ none := by
        intro auxid
        obtain ⟨n, hn, rfl⟩ := exists_probe c.lastAuxid auxid
        by_cases heq : n = 255
        · rw [heq]
          exact hlast
        · exact hused n (by omega)
      have hthrown := (hall.exhausted hfull).1
      rw [addConn_of_used self h hfull] at hthrown
      cases hthrown
  · intro hfree
    classical
    have hi := Nat.find_spec hfree
    have hused : ∀ j < Nat.find hfree, c.conns.find? (probe c.lastAuxid j) ≠ none := fun j hj hnone =>
      Nat.find_min hfree hj ⟨by omega, hnone⟩
    refine ⟨fun _ => ?_, fun hfull => absurd hi.2 (hfull _)⟩
    rw [addConn_of_free hi.1 hi.2 hused]
    exact ⟨rfl, _, addsFree_create hi.2⟩

end Crofchan

namespace Chan

/-- Connections are set up one after the other. -/
theorem run_setConn (s : Chan) (hs : s.chan.blocked = false) (auxids : List Auxid) :
    ∃ t, Runs.run step s (auxids.map .setConn) = some t ∧ t.chan.blocked = false ∧
      ∀ k, k ∈ auxids ∨ s.chan.conns.find? k ≠ none → t.chan.conns.find? k ≠ none := by
  induction auxids generalizing s with
  | nil => exact ⟨s, rfl, hs, fun k hk => hk.resolve_left List.not_mem_nil⟩
  | cons auxid auxids ih =>
    obtain ⟨m, hstep, hm, hused⟩ : ∃ m, step s (.setConn auxid) = some m ∧ m.chan.blocked = false ∧
        ∀ k, k = auxid ∨ s.chan.conns.find? k ≠ none → m.chan.conns.find? k ≠ none := by
      simp only [step, locked, hs, Bool.false_eq_true, if_false, Option.some.injEq, exists_eq_left', Crofchan.setConn]
      cases hfind : s.chan.conns.find? auxid with
      | none =>
        refine ⟨hs, fun k hk => ?_⟩
        rw [Crofchan.create, Omap.find?_insert]
        by_cases heq : k = auxid
        · simp [heq]
        · rw [if_neg heq]
          exact hk.resolve_left heq
      | some id =>
        refine ⟨hs, fun k hk => ?_⟩
        rcases hk with rfl | hk
        · simp [hfind]
        · exact hk
    obtain ⟨t, hrun, ht, hall⟩ := ih m hm
    refine ⟨t, Runs.run_cons.mpr ⟨m, hstep, hrun⟩, ht, fun k hk => hall k ?_⟩
    rcases hk with hk | hk
    · cases List.mem_cons.mp hk with
      | inl heq => exact .inr (hused k (.inl heq))
      | inr hmem => exact .inl hmem
    · exact .inr (hused k (.inr hk))

/-- A channel with a connection under each of the 256 ids: one more is taken in, over the
one under id 0. -/
theorem full_channel_takes_one_more : ∃ s,
    Runs.run step new ((List.finRange 256).map .setConn) = some s ∧
      (s.chan.addConn self s.heap).2 = none ∧ ¬ s.chan.Allocates self s.heap := by
  obtain ⟨s, hrun, -, hall⟩ := run_setConn new rfl (List.finRange 256)
  have hused : ∀ auxid, s.chan.conns.find? auxid ≠ none := fun auxid => hall auxid (.inl (List.mem_finRange auxid))
  have hadded := Crofchan.addConn_of_used self s.heap hused
  refine ⟨s, hrun, by rw [hadded], fun hallocates => ?_⟩
  have hthrown := (hallocates.exhausted hused).1
  rw [hadded] at hthrown
  cases hthrown

end Chan
end RoflCommon
