/-
Whether a queued message can be stranded: `send_from_queue` must not return
with something left unless a wakeup of the TX thread is pending or its
descriptor is registered for writing, and `send_message` must not return
`MSG_QUEUED` unless one of these holds or `send_from_queue` is running.

Both hold in the runs in which every step meets `Rousing`
(`no_lost_wakeup`); what it excludes are the ways out of `send_from_queue`
that leave `tx_is_running` set (`SSL_ERROR_WANT_READ`, and exceptions), those
that return without a wakeup, and its final test where this fails although
something is left: with `FLAG_TX_BLOCK_QUEUEING` set, or with the messages
left not counted yet.
-/
import RoflCommon.Crofsock.Reopen
import Mathlib.Algebra.Ring.Nat

namespace RoflCommon
namespace Tx

/-- Established, not `tx_disabled` and not closing. -/
def Live (s : Tx) : Prop := s.state.established = true ∧ s.txDisabled = false ∧ s.flagClosing = false

/-- The TX thread is going to be called. -/
def Roused (s : Tx) : Prop := s.writeFd = true ∨ s.wakeup = true

/-- What is left is left to a later run of `send_from_queue`. -/
def HandsOver (s : Tx) : Prop := Leftover s → s.txIsRunning = false ∧ Roused s

/-- What a step must do for no message to be stranded. -/
structure NotStranded (s : Tx) (a : Act) (s' : Tx) : Prop where
  /-- `send_from_queue` returns, other than by a fatal error of the socket. -/
  returns : ∀ result throws, a = .tx result throws →
    (result = .fatal → ∀ q n r, s.pc ≠ .send q n r) → s'.pc = .idle → Live s' → HandsOver s'
  /-- `send_message` returns `MSG_QUEUED` or `MSG_QUEUED_CONGESTION`. -/
  queued : ∀ i, a = .return i → Live s' → s'.pc ≠ .idle ∨ Roused s'

variable {s s' : Tx}

/-! ## The counter -/

/-- The messages in the queues. -/
def queuedPkts (qs : Crofqueues Cofmsg) : Nat :=
  (qs .oam).size + (qs .mgmt).size + (qs .flow).size + (qs .pkt).size

/-- The messages left to send, that in the buffer included. -/
def left (s : Tx) : Nat := queuedPkts s.txqueues + if s.txbuffer.content = [] then 0 else 1

theorem queuedPkts_update (qs : Crofqueues Cofmsg) (q : QueueId) (q' : Crofqueue Cofmsg) :
    queuedPkts (Function.update qs q q') + (qs q).size = queuedPkts qs + q'.size := by
  cases q <;> simp [queuedPkts, Function.update] <;> omega

/-- `txqueue_pending_pkts` counts the messages left, except those whose call
of `send_message` is still to count them. -/
def Counted (s : Tx) : Prop :=
  (s.txqueuePendingPkts.toNat + s.inCount.length) % 2 ^ 32 = s.left % 2 ^ 32

theorem Counted.pending_iff (h : Counted s) :
    s.txqueuePendingPkts > 0 ↔ s.inCount.length % 2 ^ 32 ≠ s.left % 2 ^ 32 := by
  have hlt := s.txqueuePendingPkts.toNat_lt
  unfold Counted at h
  rw [gt_iff_lt, UInt32.lt_iff_toNat_lt, UInt32.toNat_zero]
  omega

/-! ## The condition -/

/-- The congestion indication is due at the end of the round. -/
def Solved (s : Tx) : Prop :=
  s.flagCongested = false ∧ s.flagTxBlockQueueing = true ∧ s.txqueuePendingPkts ≤ s.txqueueSizeTxThreshold

/-- A call of `send_message` has made its test of `tx_is_running`, or the
message of some call is left. -/
def Waiting (s : Tx) : Prop := s.inReturn ≠ [] ∨ Leftover s

/-- What keeps the TX thread, at `pc`, from leaving a message behind. -/
def RousingAt (s : Tx) (result : SendResult) (throws : Bool) : TxPc → Prop
  -- `pack` does not throw
  | .fetch q _ _ => s.txbuffer.content = [] → ∀ m ∈ (s.txqueues q).queue.head?,
      s.txbuffer.wbytes + m.length ≤ s.txbuffer.size
  | .send _ _ _ => result ≠ .wantRead ∧ (result = .wantOther → Live s → Roused s) ∧
      (result = .fatal → Live s → s.inReturn ≠ [] → Roused s)
  -- `congestion_solved_indication` does not throw
  | .roundEnd _ => throws = true → ¬ Solved s
  | .finish2 => Live s → Waiting s →
      Roused s ∨ (s.flagTxBlockQueueing = false ∧ s.inCount.length % 2 ^ 32 ≠ s.left % 2 ^ 32)
  | .idle | .entry | .slot _ _ _ | .queueEnd _ _ | .finish1 => True

/-- The same for every step. -/
def Rousing (s : Tx) : Act → Prop
  | .tx result throws => RousingAt s result throws s.pc
  | .tls state => Live { s with state := state } → s.inReturn ≠ [] → s.pc ≠ .idle ∨ Roused s
  | .establish => Live s.establish → s.inReturn ≠ [] → s.pc ≠ .idle ∨ Roused s
  | _ => True

section Decidable

instance (s : Tx) : Decidable (Live s) := inferInstanceAs (Decidable (_ ∧ _))

instance (s : Tx) : Decidable (Roused s) := inferInstanceAs (Decidable (_ ∨ _))

instance (s : Tx) : Decidable (Solved s) := inferInstanceAs (Decidable (_ ∧ _))

instance (s : Tx) : Decidable (Waiting s) := inferInstanceAs (Decidable (_ ∨ _))

instance (s : Tx) (result : SendResult) (throws : Bool) : ∀ pc, Decidable (RousingAt s result throws pc)
  | .fetch q _ _ => inferInstanceAs (Decidable (_ → ∀ m ∈ (s.txqueues q).queue.head?, _))
  | .send _ _ _ => inferInstanceAs (Decidable (_ ∧ _))
  | .roundEnd _ => inferInstanceAs (Decidable (_ → _))
  | .finish2 => inferInstanceAs (Decidable (_ → _))
  | .idle | .entry | .slot _ _ _ | .queueEnd _ _ | .finish1 => inferInstanceAs (Decidable True)

instance (s : Tx) : ∀ a, Decidable (Rousing s a)
  | .tx result throws => inferInstanceAs (Decidable (RousingAt s result throws s.pc))
  | .tls state => inferInstanceAs (Decidable (Live { s with state := state } → _))
  | .establish => inferInstanceAs (Decidable (_ → _))
  | .sendMessage _ _ | .store _ | .count _ | .test _ | .return _ | .handleWakeup | .handleWriteEvent | .rxWantWrite
  | .txDisable | .txEnable | .openWith _ | .closeBegin | .closeEnd => inferInstanceAs (Decidable True)

end Decidable

/-! ## The invariant -/

structure Awake (s : Tx) : Prop where
  /-- `tx_is_running` is set in `send_from_queue` only. -/
  running : s.pc = .idle ∨ s.pc = .entry ∨ s.pc = .finish2 → s.txIsRunning = false
  /-- There is something to write. -/
  buffer : ∀ q n r, s.pc = .send q n r → s.txbuffer.content ≠ []
  counted : Counted s
  /-- The test of `tx_is_running` has not been in vain. -/
  tested : Live s → s.inReturn ≠ [] → s.pc ≠ .idle ∨ Roused s

theorem Awake.new : Awake new where
  running _ := rfl
  buffer _ _ _ h := by cases h
  counted := rfl
  tested _ h := absurd rfl h

/-! ## The TX thread -/

/-- A message moves from its queue to the buffer. -/
theorem left_fetch {q : QueueId} {n : Nat} {r : Bool}
    (hroom : s.txbuffer.content = [] → ∀ m ∈ (s.txqueues q).queue.head?,
      s.txbuffer.wbytes + m.length ≤ s.txbuffer.size) :
    (s.fetch q n r).left = s.left ∧
      ((s.fetch q n r).pc = .queueEnd q r ∨
        ((s.fetch q n r).pc = .send q n r ∧ (s.fetch q n r).txbuffer.content ≠ [])) := by
  unfold fetch
  split
  next hempty =>
    have hcontent := Cbuffer.empty_iff.mp hempty
    split
    next => exact ⟨rfl, .inl rfl⟩
    next m rest hretrieve =>
      have hqueue := Crofqueue.retrieve_eq_some hretrieve
      have hfit := hroom hcontent m (by simp [hqueue])
      dsimp only
      rw [if_pos (by omega)]
      have hnew : ((s.txbuffer.write m.pack).wseek m.pack.length).content ≠ [] := by
        rw [Cbuffer.content_wseek_write (by rw [Cofmsg.length_pack]; exact hfit)]
        intro hnil
        have hpos := m.length_pos
        rw [← Cofmsg.length_pack, (List.append_eq_nil_iff.mp hnil).2] at hpos
        exact Nat.lt_irrefl 0 hpos
      refine ⟨?_, .inr ⟨rfl, hnew⟩⟩
      have hsize : (s.txqueues q).size = rest.size + 1 := by simp [Crofqueue.size, hqueue]
      have hupdate := queuedPkts_update s.txqueues q rest
      unfold left pack
      dsimp only
      rw [if_neg hnew, if_pos hcontent]
      omega
  next hempty =>
    refine ⟨rfl, .inr ⟨rfl, ?_⟩⟩
    simpa [Cbuffer.empty_iff] using hempty

/-- The counter goes down with the last octet of a message. -/
theorem Counted.wrote (h : Counted s) (hbuffer : s.txbuffer.content ≠ []) (n : Nat) : Counted (s.wrote n) := by
  unfold Counted left at h ⊢
  rw [if_neg hbuffer] at h
  by_cases hempty : (s.txbuffer.rseek n).empty = true
  · have hcontent := Cbuffer.empty_iff.mp hempty
    simp only [Tx.wrote, hempty, hcontent, if_true, UInt32.toNat_sub, UInt32.toNat_one]
    omega
  · have hcontent : (s.txbuffer.rseek n).content ≠ [] := by simpa [Cbuffer.empty_iff] using hempty
    simp only [Tx.wrote, hempty, if_neg hcontent]
    exact h

theorem Awake.fetch {q : QueueId} {n : Nat} {r : Bool} (h : Awake s)
    (hroom : s.txbuffer.content = [] → ∀ m ∈ (s.txqueues q).queue.head?,
      s.txbuffer.wbytes + m.length ≤ s.txbuffer.size) :
    Awake (s.fetch q n r) ∧ (s.fetch q n r).pc ≠ .idle := by
  obtain ⟨hleft, hpc⟩ := left_fetch (n := n) (r := r) hroom
  have hne : (s.fetch q n r).pc ≠ .idle := by rcases hpc with hpc | ⟨hpc, -⟩ <;> rw [hpc] <;> nofun
  refine ⟨⟨fun hout => ?_, fun q' n' r' hsend => ?_, ?_, fun _ _ => .inl hne⟩, hne⟩
  · rcases hpc with hpc | ⟨hpc, -⟩ <;> rw [hpc] at hout <;> simp at hout
  · rcases hpc with hpc | ⟨-, hbuffer⟩
    · rw [hpc] at hsend
      cases hsend
    · exact hbuffer
  · have hcounted := h.counted
    unfold Counted at hcounted ⊢
    rw [hleft]
    unfold Tx.fetch
    split
    · split
      · exact hcounted
      · dsimp only
        split <;> exact hcounted
    · exact hcounted

/-- The return from `send_from_queue`. -/
theorem Awake.outside (h : Awake s) {s' : Tx} (hpc : s'.pc = .idle) (hrunning : s'.txIsRunning = false)
    (hcounted : s'.txqueuePendingPkts = s.txqueuePendingPkts ∧ s'.inCount = s.inCount ∧ s'.left = s.left)
    (htested : Live s' → s'.inReturn ≠ [] → Roused s') : Awake s' where
  running _ := hrunning
  buffer q n r hout := by
    rw [hpc] at hout
    cases hout
  counted := by
    have := h.counted
    unfold Counted at this ⊢
    rw [hcounted.1, hcounted.2.1, hcounted.2.2]
    exact this
  tested hlive hreturn := .inr (htested hlive hreturn)

theorem nextSlot_ne (q : QueueId) (n : Nat) (r : Bool) :
    nextSlot q n r ≠ .idle ∧ nextSlot q n r ≠ .entry ∧ nextSlot q n r ≠ .finish2 ∧
      ∀ q' n' r', nextSlot q n r ≠ .send q' n' r' := by
  unfold nextSlot
  split <;> exact ⟨nofun, nofun, nofun, nofun⟩

theorem Awake.wrote {q : QueueId} {n : Nat} {r : Bool} (h : Awake s) (hpc : s.pc = .send q n r) (k : Nat) :
    Awake { s.wrote k with pc := nextSlot q n r } := by
  obtain ⟨h₁, h₂, h₃, h₄⟩ := nextSlot_ne q n r
  refine ⟨fun hout => ?_, fun q' n' r' hout => absurd hout (h₄ q' n' r'), ?_, fun _ _ => .inl h₁⟩
  · rcases hout with hout | hout | hout
    · exact absurd hout h₁
    · exact absurd hout h₂
    · exact absurd hout h₃
  · exact h.counted.wrote (h.buffer q n r hpc) k

/-- What a step of the TX thread has to show. -/
def Shows (s : Tx) (result : SendResult) (s' : Tx) : Prop :=
  Awake s' ∧ ((result = .fatal → ∀ q n r, s.pc ≠ .send q n r) → s'.pc = .idle → Live s' → HandsOver s')

/-- A step within `send_from_queue` that changes neither buffer nor queues. -/
theorem Awake.shows_within {result : SendResult} (h : Awake s) (hpc : s'.pc ≠ .idle) (hentry : s'.pc ≠ .entry)
    (hfinish : s'.pc = .finish2 → s'.txIsRunning = false) (hsend : ∀ q n r, s'.pc ≠ .send q n r)
    (hcounted : s'.txqueuePendingPkts = s.txqueuePendingPkts ∧ s'.inCount = s.inCount ∧ s'.left = s.left) :
    Shows s result s' := by
  refine ⟨⟨fun hout => ?_, fun q n r hout => absurd hout (hsend q n r), ?_, fun _ _ => .inl hpc⟩,
    fun _ hidle => absurd hidle hpc⟩
  · rcases hout with hout | hout | hout
    · exact absurd hout hpc
    · exact absurd hout hentry
    · exact hfinish hout
  · have := h.counted
    unfold Counted at this ⊢
    rw [hcounted.1, hcounted.2.1, hcounted.2.2]
    exact this

theorem Awake.shows_of_ne {result : SendResult} (h : Awake s') (hpc : s'.pc ≠ .idle) : Shows s result s' :=
  ⟨h, fun _ hidle => absurd hidle hpc⟩

theorem Awake.send {q : QueueId} {n : Nat} {r : Bool} {result : SendResult} (h : Awake s)
    (hpc : s.pc = .send q n r) (hread : result ≠ .wantRead) (hother : result = .wantOther → Live s → Roused s)
    (hfatal : result = .fatal → Live s → s.inReturn ≠ [] → Roused s)
    (hs : s.send q n r result = some s') : Shows s result s' := by
  have hnext := nextSlot_ne q n r
  unfold Tx.send at hs
  split at hs
  · cases result with
    | bytes k =>
      obtain rfl := Option.some.inj hs
      exact (h.wrote hpc _).shows_of_ne hnext.1
    | again =>
      obtain rfl := Option.some.inj hs
      exact ⟨h.outside rfl rfl ⟨rfl, rfl, rfl⟩ fun _ _ => .inl rfl, fun _ _ _ _ => ⟨rfl, .inl rfl⟩⟩
    | zero =>
      dsimp only at hs
      split at hs
      · obtain rfl := Option.some.inj hs
        exact (h.wrote hpc _).shows_of_ne hnext.1
      · cases hs
    | wantRead => exact absurd rfl hread
    | wantOther =>
      dsimp only at hs
      split at hs
      · obtain rfl := Option.some.inj hs
        exact ⟨h.outside rfl rfl ⟨rfl, rfl, rfl⟩ fun hlive _ => hother rfl hlive,
          fun _ _ hlive _ => ⟨rfl, hother rfl hlive⟩⟩
      · cases hs
    | fatal =>
      obtain rfl := Option.some.inj hs
      exact ⟨h.outside rfl rfl ⟨rfl, rfl, rfl⟩ fun hlive hreturn => hfatal rfl hlive hreturn,
        fun hne => absurd hpc (hne rfl q n r)⟩
  · obtain rfl := Option.some.inj hs
    exact h.shows_within hnext.1 hnext.2.1 (fun hout => absurd hout hnext.2.2.1) hnext.2.2.2 ⟨rfl, rfl, rfl⟩

theorem Awake.endRound {r throws : Bool} {result : SendResult} (h : Awake s)
    (hthrows : throws = true → ¬ Solved s) : Shows s result (s.endRound r throws) := by
  have hpc : ∀ b : Bool, (if b then TxPc.slot .oam 0 false else .finish1) ≠ .idle ∧
      (if b then TxPc.slot .oam 0 false else .finish1) ≠ .entry ∧
      (if b then TxPc.slot .oam 0 false else .finish1) ≠ .finish2 ∧
      ∀ q n r, (if b then TxPc.slot .oam 0 false else .finish1) ≠ .send q n r := by
    intro b
    cases b <;> exact ⟨nofun, nofun, nofun, nofun⟩
  obtain ⟨h₁, h₂, h₃, h₄⟩ := hpc r
  unfold Tx.endRound
  dsimp only
  split
  next hsolved =>
    have hnot : throws = false := by
      rw [← Bool.not_eq_true]
      intro hthrow
      exact hthrows hthrow ⟨by simpa using hsolved.1, hsolved.2.1, hsolved.2.2⟩
    subst hnot
    exact h.shows_within h₁ h₂ (fun hout => absurd hout h₃) h₄ ⟨rfl, rfl, rfl⟩
  · exact h.shows_within h₁ h₂ (fun hout => absurd hout h₃) h₄ ⟨rfl, rfl, rfl⟩

/-- The final test of `send_from_queue`. -/
def finish (s : Tx) : Tx := { s with
  wakeup := s.wakeup || (decide (s.txqueuePendingPkts > 0) && !s.flagTxBlockQueueing)
  pc := .idle }

/-- It rouses the TX thread if nothing blocks queueing and some message left
has been counted. -/
theorem Awake.roused_finish_iff (h : Awake s) : Roused s.finish ↔
    Roused s ∨ (s.flagTxBlockQueueing = false ∧ s.inCount.length % 2 ^ 32 ≠ s.left % 2 ^ 32) := by
  rw [← h.counted.pending_iff]
  simp only [Roused, finish, Bool.or_eq_true, Bool.and_eq_true, decide_eq_true_eq, Bool.not_eq_true']
  tauto

theorem Awake.finish {result : SendResult} (h : Awake s) (hpc : s.pc = .finish2)
    (hok : Live s → Waiting s →
      Roused s ∨ (s.flagTxBlockQueueing = false ∧ s.inCount.length % 2 ^ 32 ≠ s.left % 2 ^ 32)) :
    Shows s result s.finish := by
  have hrunning := h.running (.inr (.inr hpc))
  have hroused : Live s → Waiting s → Roused s.finish := fun hlive hwaiting =>
    h.roused_finish_iff.mpr (hok hlive hwaiting)
  exact ⟨h.outside rfl hrunning ⟨rfl, rfl, rfl⟩ fun hlive hreturn => hroused hlive (.inl hreturn),
    fun _ _ hlive hleft => ⟨hrunning, hroused hlive (.inr hleft)⟩⟩

theorem Awake.runTx {result : SendResult} {throws : Bool} (h : Awake s) (hok : Rousing s (.tx result throws))
    (hs : s.runTx result throws = some s') : Shows s result s' := by
  simp only [Rousing] at hok
  unfold Tx.runTx at hs
  split at hs
  next => cases hs
  next hpc =>
    split at hs
    next hidle =>
      obtain rfl := Option.some.inj hs
      have hdead : ¬ Live { s with pc := .idle } := fun hlive => by
        have := hlive.1
        rw [show ({ s with pc := .idle } : Tx).state = .idle from hidle] at this
        cases this
      exact ⟨h.outside rfl (h.running (.inr (.inl hpc))) ⟨rfl, rfl, rfl⟩ fun hlive => absurd hlive hdead,
        fun _ _ hlive => absurd hlive hdead⟩
    · obtain rfl := Option.some.inj hs
      exact h.shows_within nofun nofun nofun nofun ⟨rfl, rfl, rfl⟩
  next q n r hpc =>
    split at hs
    next hstop =>
      obtain rfl := Option.some.inj hs
      have hdead : ∀ hlive : Live { s with txIsRunning := false, pc := .idle }, False := fun hlive =>
        hstop.elim (fun hd => by have := hlive.2.1.symm.trans hd; cases this) (fun he => he hlive.1)
      exact ⟨h.outside rfl rfl ⟨rfl, rfl, rfl⟩ fun hlive => absurd hlive hdead, fun _ _ hlive => absurd hlive hdead⟩
    · obtain rfl := Option.some.inj hs
      exact h.shows_within nofun nofun nofun nofun ⟨rfl, rfl, rfl⟩
  next q n r hpc =>
    obtain rfl := Option.some.inj hs
    rw [hpc] at hok
    exact (h.fetch hok).1.shows_of_ne (h.fetch hok).2
  next q n r hpc =>
    rw [hpc] at hok
    exact h.send hpc hok.1 hok.2.1 hok.2.2 hs
  next q r hpc =>
    obtain rfl := Option.some.inj hs
    cases q
    all_goals exact h.shows_within nofun nofun nofun nofun ⟨rfl, rfl, rfl⟩
  next r hpc =>
    obtain rfl := Option.some.inj hs
    rw [hpc] at hok
    exact h.endRound hok
  next hpc =>
    obtain rfl := Option.some.inj hs
    exact h.shows_within nofun nofun (fun _ => rfl) nofun ⟨rfl, rfl, rfl⟩
  next hpc =>
    obtain rfl := Option.some.inj hs
    rw [hpc] at hok
    exact h.finish hpc hok

/-! ## The other steps -/

/-- A step of another thread, which leaves the position of the TX thread and
its buffer alone. -/
theorem Awake.beside (h : Awake s) (hpc : s'.pc = s.pc) (hrunning : s'.txIsRunning = s.txIsRunning)
    (hbuffer : s'.txbuffer = s.txbuffer) (hcounted : Counted s')
    (htested : Live s' → s'.inReturn ≠ [] → s'.pc ≠ .idle ∨ Roused s') : Awake s' where
  running := by
    rw [hpc, hrunning]
    exact h.running
  buffer q n r := by
    rw [hpc, hbuffer]
    exact h.buffer q n r
  counted := hcounted
  tested := htested

theorem Awake.storeMessage {i : Nat} (h : Awake s) (hs : s.storeMessage i = some s') : Awake s' := by
  obtain ⟨⟨m, enforce⟩, -, rfl⟩ := Option.map_eq_some_iff.mp hs
  dsimp only
  split
  · exact h.beside rfl rfl rfl h.counted h.tested
  next q hq =>
    refine h.beside rfl rfl rfl ?_ h.tested
    have hcounted := h.counted
    have hupdate := queuedPkts_update s.txqueues (queueOf m) q
    have hsize : q.size = (s.txqueues (queueOf m)).size + 1 := by
      simp [Crofqueue.size, Crofqueue.store_queue hq]
    unfold Counted left at hcounted ⊢
    simp only [List.length_append, List.length_singleton]
    omega

theorem Awake.countMessage {i : Nat} (h : Awake s) (hs : s.countMessage i = some s') : Awake s' := by
  obtain ⟨m, hi, rfl⟩ := Option.map_eq_some_iff.mp hs
  refine h.beside rfl rfl rfl ?_ h.tested
  have hcounted := h.counted
  obtain ⟨hlt, -⟩ := List.getElem?_eq_some_iff.mp hi
  unfold Counted at hcounted ⊢
  simp only [UInt32.toNat_add, UInt32.toNat_one, List.length_eraseIdx, if_pos hlt]
  show _ = s.left % 2 ^ 32
  omega

theorem Awake.testRunning {i : Nat} (h : Awake s) (hs : s.testRunning i = some s') : Awake s' := by
  obtain ⟨m, hi, rfl⟩ := Option.map_eq_some_iff.mp hs
  refine h.beside rfl rfl rfl h.counted fun _ _ => ?_
  by_cases hidle : s.pc = .idle
  · exact .inr (.inr (by simp [h.running (.inl hidle)]))
  · exact .inl hidle

theorem Awake.returnQueued {i : Nat} (h : Awake s) (hs : s.returnQueued i = some s') :
    Awake s' ∧ (Live s' → s'.pc ≠ .idle ∨ Roused s') := by
  obtain ⟨m, hi, rfl⟩ := Option.map_eq_some_iff.mp hs
  have hreturn : s.inReturn ≠ [] := List.ne_nil_of_mem (List.mem_of_getElem? hi)
  exact ⟨h.beside rfl rfl rfl h.counted fun hlive _ => h.tested hlive hreturn, fun hlive => h.tested hlive hreturn⟩

theorem Awake.sendMessage (h : Awake s) (m : Cofmsg) (enforce : Bool) : Awake (s.sendMessage m enforce) := by
  unfold Tx.sendMessage
  dsimp only
  split
  · exact h.beside rfl rfl rfl h.counted h.tested
  split
  · exact h.beside rfl rfl rfl h.counted h.tested
  · exact h.beside rfl rfl rfl h.counted h.tested

/-- `send_from_queue` is entered. -/
theorem Awake.enter (h : Awake s) (hidle : s.pc = .idle) (hpc : s'.pc = .entry)
    (hrunning : s'.txIsRunning = s.txIsRunning) (hcounted : Counted s') : Awake s' where
  running _ := hrunning.trans (h.running (.inl hidle))
  buffer q n r hout := by
    rw [hpc] at hout
    cases hout
  counted := hcounted
  tested _ _ := .inl (by rw [hpc]; nofun)

theorem NotStranded.of_ne {a : Act} (htx : ∀ result throws, a ≠ .tx result throws) (hret : ∀ i, a ≠ .return i) :
    NotStranded s a s' :=
  ⟨fun result throws ha => absurd ha (htx result throws), fun i ha => absurd ha (hret i)⟩

theorem Awake.step {a : Act} (h : Awake s) (hok : Rousing s a) (hs : s.step a = some s') :
    Awake s' ∧ NotStranded s a s' := by
  unfold Tx.step at hs
  cases a with
  | sendMessage m enforce =>
    obtain rfl := Option.some.inj hs
    exact ⟨h.sendMessage m enforce, .of_ne nofun nofun⟩
  | store i => exact ⟨h.storeMessage hs, .of_ne nofun nofun⟩
  | count i => exact ⟨h.countMessage hs, .of_ne nofun nofun⟩
  | test i => exact ⟨h.testRunning hs, .of_ne nofun nofun⟩
  | «return» i =>
    obtain ⟨hawake, hroused⟩ := h.returnQueued hs
    exact ⟨hawake, nofun, fun j _ => hroused⟩
  | tx result throws =>
    obtain ⟨hawake, hreturns⟩ := h.runTx hok hs
    refine ⟨hawake, fun result' throws' ha => ?_, nofun⟩
    obtain ⟨rfl, rfl⟩ := Act.tx.inj ha
    exact hreturns
  | handleWakeup =>
    dsimp only at hs
    split at hs
    next hcan =>
      obtain rfl := Option.some.inj hs
      refine ⟨?_, .of_ne nofun nofun⟩
      by_cases hclosing : s.flagClosing = true
      · refine h.beside (by simp [hclosing, hcan.2]) rfl rfl h.counted fun hlive => ?_
        have := hlive.2.2.symm.trans hclosing
        cases this
      · exact h.enter hcan.2 (by simp [hclosing]) rfl h.counted
    · cases hs
  | handleWriteEvent =>
    dsimp only at hs
    split at hs
    next hcan =>
      split at hs
      · obtain rfl := Option.some.inj hs
        exact ⟨h, .of_ne nofun nofun⟩
      · obtain rfl := Option.some.inj hs
        exact ⟨h.enter hcan.2 rfl rfl h.counted, .of_ne nofun nofun⟩
    · cases hs
  | rxWantWrite =>
    dsimp only at hs
    split at hs
    · obtain rfl := Option.some.inj hs
      exact ⟨h.beside rfl rfl rfl h.counted fun _ _ => .inr (.inl rfl), .of_ne nofun nofun⟩
    · cases hs
  | txDisable =>
    obtain rfl := Option.some.inj hs
    refine ⟨h.beside rfl rfl rfl h.counted fun hlive => ?_, .of_ne nofun nofun⟩
    cases hlive.2.1
  | txEnable =>
    obtain rfl := Option.some.inj hs
    exact ⟨h.beside rfl rfl rfl h.counted fun _ _ => .inr (.inr rfl), .of_ne nofun nofun⟩
  | openWith state =>
    dsimp only at hs
    split at hs
    next hstate =>
      obtain rfl := Option.some.inj hs
      refine ⟨h.beside rfl rfl rfl h.counted fun hlive => ?_, .of_ne nofun nofun⟩
      have := hlive.1.symm.trans (SockState.not_established_of_opening hstate.2)
      cases this
    · cases hs
  | establish =>
    dsimp only at hs
    split at hs
    · obtain rfl := Option.some.inj hs
      exact ⟨h.beside rfl rfl rfl h.counted hok, .of_ne nofun nofun⟩
    · cases hs
  | tls state =>
    dsimp only at hs
    split at hs
    · obtain rfl := Option.some.inj hs
      exact ⟨h.beside rfl rfl rfl h.counted hok, .of_ne nofun nofun⟩
    · cases hs
  | closeBegin =>
    dsimp only at hs
    split at hs
    · cases hs
    · obtain rfl := Option.some.inj hs
      refine ⟨h.beside rfl rfl rfl h.counted fun hlive => ?_, .of_ne nofun nofun⟩
      cases hlive.2.2
  | closeEnd =>
    dsimp only at hs
    split at hs
    · obtain rfl := Option.some.inj hs
      refine ⟨h.beside rfl rfl rfl h.counted fun hlive => ?_, .of_ne nofun nofun⟩
      cases hlive.1
    · cases hs

/-- **No transmit wakeup is lost** in a run whose steps all meet the
condition. -/
theorem no_lost_wakeup {as : List Act} (hok : Runs.Meets step Rousing new as) :
    Runs.Along step NotStranded new as :=
  Runs.along_of_meets (fun _ _ _ hI ha hs => (Awake.step hI ha hs).1)
    (fun _ _ _ hI ha hs => (Awake.step hI ha hs).2) .new hok

/-- The socket would block in the middle of a message; when it is writable
again the rest goes out, and `send_from_queue` runs to its end. -/
def resumedRun : List Act :=
  [Act.openWith .tcpConnecting, .establish] ++ congestedRun ++ [Act.handleWriteEvent] ++
    List.replicate 19 (Act.tx (.bytes 7) false)

theorem no_lost_wakeup_resumed : ∃ t, Runs.run step new resumedRun = some t ∧ t.written.length = 8 ∧
    t.pc = .idle ∧ Runs.Along step NotStranded new resumedRun := by
  obtain ⟨t, hrun, hwritten, hpc⟩ : ∃ t ∈ Runs.run step new resumedRun, t.written.length = 8 ∧ t.pc = .idle := by
    decide +kernel
  exact ⟨t, hrun, hwritten, hpc, no_lost_wakeup (by decide +kernel)⟩

/-- A TLS connection on which a message is about to be written. -/
def tlsRun : List Act :=
  [Act.openWith .tcpConnecting, .establish, .tls .tlsConnecting, .tls .tlsEstablished,
      .sendMessage ⟨4, 0, 1, []⟩ false, .store 0, .count 0, .test 0, .return 0, .handleWakeup] ++
    List.replicate 6 (Act.tx .again false)

/-- `SSL_write` wants to read: `send_from_queue` returns with the message in
the buffer, `tx_is_running` set, and no wakeup pending. -/
theorem lost_wakeup : ∃ s t, Runs.run step new tlsRun = some s ∧ s.step (.tx .wantRead false) = some t ∧
    Live t ∧ t.txbuffer.content.length = 8 ∧ t.pc = .idle ∧ t.txIsRunning = true ∧ ¬ Roused t ∧
    ¬ Runs.Along step NotStranded new (tlsRun ++ [.tx .wantRead false]) := by
  refine ⟨_, _, rfl, rfl, ⟨rfl, rfl, rfl⟩, rfl, rfl, rfl, nofun, fun h => ?_⟩
  have hlast := (Runs.along_last h rfl rfl).returns .wantRead false rfl nofun rfl ⟨rfl, rfl, rfl⟩
    (.inr (List.cons_ne_nil _ _))
  cases hlast.1

end Tx
end RoflCommon
