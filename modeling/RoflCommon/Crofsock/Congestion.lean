/-
The counter `txqueue_pending_pkts` and the indications of congestion.

The counter is what is left to send, less what the calls of `send_message` have stored and not
counted yet (`Balanced`). The TX thread does not wait for these: it can send such a message and
count it down before it is counted, and the counter wraps. A flag keeps the indications in turn,
and the snapshot it is set with keeps the second of each pair at half of the first
(`accounted_of_meets`).
-/
import RoflCommon.Crofsock.TxWakeup

namespace RoflCommon

/-! ## Indications -/

/-- `congestion_occurred_indication` and `congestion_solved_indication`, each with the value the counter
has then. -/
inductive Indication
  | occurred (pending : UInt32)
  | solved (pending : UInt32)
deriving DecidableEq, Repr

namespace Indication

/-- They take turns, `occurred` first, and each `solved` comes with at most half of what its `occurred` had. -/
def Alternate : List Indication → Prop
  | [] => True
  | [.occurred _] => True
  | .occurred p :: .solved n :: rest => n.toNat ≤ p.toNat / 2 ∧ Alternate rest
  | _ => False

/-- The value of the last `occurred`, until it is solved. -/
def unsolved (l : List Indication) : Option UInt32 :=
  match l.getLast? with
  | some (.occurred p) => some p
  | _ => none

@[simp] theorem unsolved_append_occurred (l : List Indication) (p : UInt32) :
    unsolved (l ++ [.occurred p]) = some p := by simp [unsolved]

@[simp] theorem unsolved_append_solved (l : List Indication) (n : UInt32) :
    unsolved (l ++ [.solved n]) = none := by simp [unsolved]

theorem unsolved_pair (p n : UInt32) (rest : List Indication) :
    unsolved (.occurred p :: .solved n :: rest) = unsolved rest := by
  cases rest with
  | nil => rfl
  | cons x xs => simp [unsolved, List.getLast?_cons_cons]

theorem Alternate.append_occurred (p : UInt32) : ∀ {l : List Indication}, Alternate l → unsolved l = none →
    Alternate (l ++ [.occurred p])
  | [], _, _ => trivial
  | [.occurred _], _, hnone => by cases hnone
  | .occurred p' :: .solved n :: rest, h, hnone => by
    rw [unsolved_pair] at hnone
    exact ⟨h.1, h.2.append_occurred p hnone⟩

theorem Alternate.append_solved {p n : UInt32} (hn : n.toNat ≤ p.toNat / 2) :
    ∀ {l : List Indication}, Alternate l → unsolved l = some p → Alternate (l ++ [.solved n])
  | [], _, hsome => by cases hsome
  | [.occurred p'], _, hsome => by
    obtain rfl := Option.some.inj hsome
    exact ⟨hn, trivial⟩
  | .occurred p' :: .solved n' :: rest, h, hsome => by
    rw [unsolved_pair] at hsome
    exact ⟨h.1, h.2.append_solved hn hsome⟩

end Indication

namespace Tx

/-- The indication a step raises. -/
def indication (s : Tx) : Act → Option Indication
  | .tx result _ =>
    match s.pc with
    | .send _ _ _ =>
      if s.state.established ∧ result = .again ∧ s.flagTxBlockQueueing = false then
        some (.occurred s.txqueuePendingPkts)
      else none
    | .roundEnd _ => if Solved s then some (.solved s.txqueuePendingPkts) else none
    | _ => none
  | _ => none

/-- Neither `send_message` nor `send_from_queue` is in progress. -/
structure NoCall (s : Tx) : Prop where
  inStore : s.inStore = []
  inCount : s.inCount = []
  inTest : s.inTest = []
  inReturn : s.inReturn = []
  pc : s.pc = .idle

/-- The write sends the last octet of a message. -/
def EndsMessage (s : Tx) : SendResult → Prop
  | .bytes k => s.state.established = true ∧ s.txbuffer.rmemlen ≤ k + 1
  | _ => False

instance (s : Tx) : ∀ result, Decidable (s.EndsMessage result)
  | .bytes _ => inferInstanceAs (Decidable (_ ∧ _))
  | .again | .zero | .wantRead | .wantOther | .fatal => inferInstanceAs (Decidable False)

end Tx

/-! ## Runs -/

/-- A `crofsock`, and the indications raised on its connection. -/
structure Signalled where
  tx : Tx
  indications : List Indication

namespace Signalled

open Indication Tx

def step (s : Signalled) (a : Act) : Option Signalled :=
  (s.tx.step a).map fun t =>
    { tx := t
      -- the record starts over with the connection
      indications := if a = .establish then [] else s.indications ++ (s.tx.indication a).toList }

def new : Signalled := ⟨Tx.new, []⟩

/-- What every step must keep. -/
structure Accounted (s : Signalled) (a : Act) (s' : Signalled) : Prop where
  noWrap : s.tx.txqueuePendingPkts = 0 → s'.tx.txqueuePendingPkts.toNat ≤ 1
  counter : s'.tx.NoCall → s'.tx.txqueuePendingPkts.toNat = s'.tx.left
  alternate : Alternate s'.indications
  /-- At the end of a round without congestion, `solved` is raised if the counter has come down to half. -/
  prompt : ∀ result throws r p, a = .tx result throws → s.tx.pc = .roundEnd r → s.tx.flagCongested = false →
    unsolved s.indications = some p → s.tx.txqueuePendingPkts.toNat ≤ p.toNat / 2 →
    s'.indications = s.indications ++ [.solved s.tx.txqueuePendingPkts]

/-- `pack` does not throw, and no message is sent to its end before any that is left has been counted. -/
def TxOk (s : Signalled) (result : SendResult) : TxPc → Prop
  | .fetch q _ _ => s.tx.txbuffer.content = [] → ∀ m ∈ (s.tx.txqueues q).queue.head?,
      s.tx.txbuffer.wbytes + m.length ≤ s.tx.txbuffer.size
  | .send _ _ _ => s.tx.EndsMessage result → s.tx.inCount.length < s.tx.left
  | .idle | .entry | .slot _ _ _ | .queueEnd _ _ | .roundEnd _ | .finish1 | .finish2 => True

/-- Besides, no more than 2^32 - 1 of the messages left are counted, and the connection is established with
`FLAG_TX_BLOCK_QUEUEING` cleared. -/
def Ok (s : Signalled) : Act → Prop
  | .count _ => s.tx.left + 1 < s.tx.inCount.length + 2 ^ 32
  | .tx result _ => TxOk s result s.tx.pc
  | .establish => s.tx.flagTxBlockQueueing = false
  | _ => True

instance (s : Signalled) (result : SendResult) : ∀ pc, Decidable (TxOk s result pc)
  | .fetch q _ _ => inferInstanceAs (Decidable (_ → ∀ m ∈ (s.tx.txqueues q).queue.head?, _))
  | .send _ _ _ => inferInstanceAs (Decidable (_ → _))
  | .idle | .entry | .slot _ _ _ | .queueEnd _ _ | .roundEnd _ | .finish1 | .finish2 =>
    inferInstanceAs (Decidable True)

instance (s : Signalled) : ∀ a, Decidable (Ok s a)
  | .count _ => inferInstanceAs (Decidable (_ < _))
  | .tx result _ => inferInstanceAs (Decidable (TxOk s result s.tx.pc))
  | .establish => inferInstanceAs (Decidable (_ = _))
  | .sendMessage _ _ | .store _ | .test _ | .return _ | .handleWakeup | .handleWriteEvent | .rxWantWrite
  | .txDisable | .txEnable | .openWith _ | .tls _ | .closeBegin | .closeEnd => inferInstanceAs (Decidable True)

end Signalled

/-! ## The counter -/

namespace Tx

/-- The counter and the messages stored but not counted make up what is left; and there is something in
the buffer when it is written. -/
structure Balanced (s : Tx) : Prop where
  counted : s.txqueuePendingPkts.toNat + s.inCount.length = s.left
  buffer : ∀ q n r, s.pc = .send q n r → s.txbuffer.content ≠ []

theorem Balanced.new : Balanced new where
  counted := rfl
  buffer _ _ _ h := by cases h

/-- What a step does to the balance: it is kept, and the counter does not go below zero. -/
def Keeps (s t : Tx) : Prop := Balanced t ∧ (s.txqueuePendingPkts = 0 → t.txqueuePendingPkts.toNat ≤ 1)

variable {s t : Tx}

/-- A step that leaves the counter, the calls and what is left alone. -/
theorem Balanced.beside (h : Balanced s) (hpending : t.txqueuePendingPkts = s.txqueuePendingPkts)
    (hcount : t.inCount = s.inCount) (hleft : t.left = s.left)
    (hbuffer : ∀ q n r, t.pc = .send q n r → t.txbuffer.content ≠ []) : Keeps s t := by
  have hcounted := h.counted
  rw [← hpending, ← hcount, ← hleft] at hcounted
  refine ⟨⟨hcounted, hbuffer⟩, fun hzero => ?_⟩
  rw [hpending, hzero]
  exact Nat.zero_le 1

theorem Balanced.storeMessage {i : ℕ} (h : Balanced s) (ht : s.storeMessage i = some t) : Keeps s t := by
  obtain ⟨⟨m, enforce⟩, -, rfl⟩ := Option.map_eq_some_iff.mp ht
  dsimp only
  split
  · exact h.beside rfl rfl rfl h.buffer
  next q hq =>
    have hcounted := h.counted
    have hupdate := queuedPkts_update s.txqueues (queueOf m) q
    have hsize : q.size = (s.txqueues (queueOf m)).size + 1 := by
      simp [Crofqueue.size, Crofqueue.store_queue hq]
    refine ⟨⟨?_, h.buffer⟩, fun hzero => ?_⟩
    · unfold left at hcounted ⊢
      simp only [List.length_append, List.length_singleton]
      omega
    · show s.txqueuePendingPkts.toNat ≤ 1
      rw [hzero]
      exact Nat.zero_le 1

theorem Balanced.countMessage {i : ℕ} (h : Balanced s) (hleft : s.left + 1 < s.inCount.length + 2 ^ 32)
    (ht : s.countMessage i = some t) : Keeps s t := by
  obtain ⟨m, hi, rfl⟩ := Option.map_eq_some_iff.mp ht
  obtain ⟨hlt, -⟩ := List.getElem?_eq_some_iff.mp hi
  have hcounted := h.counted
  have hadd : (s.txqueuePendingPkts + 1).toNat = s.txqueuePendingPkts.toNat + 1 := by
    rw [UInt32.toNat_add, UInt32.toNat_one]
    omega
  refine ⟨⟨?_, h.buffer⟩, fun hzero => ?_⟩
  · simp only [hadd, List.length_eraseIdx, if_pos hlt]
    show _ = s.left
    omega
  · show (s.txqueuePendingPkts + 1).toNat ≤ 1
    rw [hadd, hzero]
    exact Nat.le_refl 1

/-- A message moves into the buffer. -/
theorem Balanced.fetch {q : QueueId} {n : ℕ} {r : Bool} (h : Balanced s)
    (hroom : s.txbuffer.content = [] → ∀ m ∈ (s.txqueues q).queue.head?,
      s.txbuffer.wbytes + m.length ≤ s.txbuffer.size) : Keeps s (s.fetch q n r) := by
  obtain ⟨hleft, hpc⟩ := left_fetch (n := n) (r := r) hroom
  have hsame : (s.fetch q n r).txqueuePendingPkts = s.txqueuePendingPkts ∧ (s.fetch q n r).inCount = s.inCount := by
    unfold Tx.fetch
    split
    · split
      · exact ⟨rfl, rfl⟩
      · dsimp only
        split <;> exact ⟨rfl, rfl⟩
    · exact ⟨rfl, rfl⟩
  refine h.beside hsame.1 hsame.2 hleft fun q' n' r' hsend => ?_
  obtain hpc | ⟨-, hbuffer⟩ := hpc
  · rw [hpc] at hsend
    cases hsend
  · exact hbuffer

/-- The counter goes down with the last octet of a message. -/
theorem Balanced.wrote (h : Balanced s) (hbuffer : s.txbuffer.content ≠ []) {n : ℕ} (pc : TxPc)
    (hpc : ∀ q n r, pc ≠ .send q n r) (hcount : s.txbuffer.rmemlen ≤ n → s.inCount.length < s.left) :
    Keeps s { s.wrote n with pc := pc } := by
  have hcounted := h.counted
  have hlen : s.txbuffer.content.length = s.txbuffer.rmemlen := Cbuffer.length_content _
  by_cases hempty : (s.txbuffer.rseek n).empty = true
  · have hcontent := Cbuffer.empty_iff.mp hempty
    have hends : s.txbuffer.rmemlen ≤ n := by
      rw [Cbuffer.content_rseek, List.drop_eq_nil_iff, hlen] at hcontent
      exact hcontent
    have hlt := hcount hends
    have hsub : (s.txqueuePendingPkts - 1).toNat + 1 = s.txqueuePendingPkts.toNat := by
      rw [UInt32.toNat_sub, UInt32.toNat_one]
      have := s.txqueuePendingPkts.toNat_lt
      omega
    refine ⟨⟨?_, fun q n r hout => absurd hout (hpc q n r)⟩, fun hzero => ?_⟩
    · unfold left at hcounted ⊢
      rw [if_neg hbuffer] at hcounted
      simp only [Tx.wrote, hempty, hcontent, if_true]
      omega
    · rw [hzero] at hsub
      exact absurd hsub (Nat.succ_ne_zero _)
  · have hcontent : (s.txbuffer.rseek n).content ≠ [] := by simpa [Cbuffer.empty_iff] using hempty
    refine h.beside ?_ rfl ?_ fun q n r hout => absurd hout (hpc q n r)
    · simp only [Tx.wrote, hempty]
      rfl
    · unfold left
      simp only [Tx.wrote, hcontent, hbuffer, if_false]

theorem Balanced.send {q : QueueId} {n : ℕ} {r : Bool} {result : SendResult} (h : Balanced s)
    (hpc : s.pc = .send q n r) (hcount : s.EndsMessage result → s.inCount.length < s.left)
    (ht : s.send q n r result = some t) : Keeps s t := by
  have hnext := (nextSlot_ne q n r).2.2.2
  have hbuffer := h.buffer q n r hpc
  have hidle (t : Tx) (hpending : t.txqueuePendingPkts = s.txqueuePendingPkts) (hinCount : t.inCount = s.inCount)
      (hleft : t.left = s.left) (hout : t.pc = .idle) : Keeps s t :=
    h.beside hpending hinCount hleft fun _ _ _ hsend => by
      rw [hout] at hsend
      cases hsend
  unfold Tx.send at ht
  split at ht
  next hstate =>
    cases result with
    | bytes k =>
      obtain rfl := Option.some.inj ht
      refine h.wrote hbuffer _ hnext fun hle => hcount ⟨hstate, ?_⟩
      omega
    | again =>
      obtain rfl := Option.some.inj ht
      exact hidle _ rfl rfl rfl rfl
    | zero =>
      dsimp only at ht
      split at ht
      · obtain rfl := Option.some.inj ht
        refine h.wrote hbuffer _ hnext fun hle => absurd ?_ hbuffer
        rw [← List.length_eq_zero_iff, Cbuffer.length_content]
        omega
      · cases ht
    | wantRead =>
      dsimp only at ht
      split at ht
      · obtain rfl := Option.some.inj ht
        exact hidle _ rfl rfl rfl rfl
      · cases ht
    | wantOther =>
      dsimp only at ht
      split at ht
      · obtain rfl := Option.some.inj ht
        exact hidle _ rfl rfl rfl rfl
      · cases ht
    | fatal =>
      obtain rfl := Option.some.inj ht
      exact hidle _ rfl rfl rfl rfl
  next =>
    obtain rfl := Option.some.inj ht
    exact h.beside rfl rfl rfl fun q' n' r' hsend => absurd hsend (hnext q' n' r')

/-- A step within `send_from_queue` that writes nothing. -/
theorem Balanced.within (h : Balanced s) (hpending : t.txqueuePendingPkts = s.txqueuePendingPkts)
    (hcount : t.inCount = s.inCount) (hleft : t.left = s.left) (hpc : ∀ q n r, t.pc ≠ .send q n r) : Keeps s t :=
  h.beside hpending hcount hleft fun q n r hsend => absurd hsend (hpc q n r)

theorem Balanced.runTx {result : SendResult} {throws : Bool} {l : List Indication} (h : Balanced s)
    (hok : Signalled.Ok ⟨s, l⟩ (.tx result throws)) (ht : s.runTx result throws = some t) : Keeps s t := by
  change Signalled.TxOk ⟨s, l⟩ result s.pc at hok
  unfold Tx.runTx at ht
  split at ht
  next => cases ht
  next hpc =>
    split at ht <;> obtain rfl := Option.some.inj ht
    · exact h.within rfl rfl rfl nofun
    · exact h.within rfl rfl rfl nofun
  next q n r hpc =>
    split at ht <;> obtain rfl := Option.some.inj ht
    · exact h.within rfl rfl rfl nofun
    · exact h.within rfl rfl rfl nofun
  next q n r hpc =>
    obtain rfl := Option.some.inj ht
    rw [hpc] at hok
    exact h.fetch hok
  next q n r hpc =>
    rw [hpc] at hok
    exact h.send hpc hok ht
  next q r hpc =>
    obtain rfl := Option.some.inj ht
    cases q
    all_goals exact h.within rfl rfl rfl nofun
  next r hpc =>
    obtain rfl := Option.some.inj ht
    unfold Tx.endRound
    dsimp only
    split
    · refine h.within rfl rfl rfl fun q n r' => ?_
      cases throws <;> cases r <;> nofun
    · refine h.within rfl rfl rfl fun q n r' => ?_
      cases r <;> nofun
  next hpc =>
    obtain rfl := Option.some.inj ht
    exact h.within rfl rfl rfl nofun
  next hpc =>
    obtain rfl := Option.some.inj ht
    exact h.within rfl rfl rfl nofun

theorem Balanced.step {a : Act} {l : List Indication} (h : Balanced s) (hok : Signalled.Ok ⟨s, l⟩ a)
    (ht : s.step a = some t) : Keeps s t := by
  unfold Tx.step at ht
  cases a with
  | sendMessage m enforce =>
    obtain rfl := Option.some.inj ht
    unfold Tx.sendMessage
    dsimp only
    split
    · exact h.beside rfl rfl rfl h.buffer
    · split
      · exact h.beside rfl rfl rfl h.buffer
      · exact h.beside rfl rfl rfl h.buffer
  | store i => exact h.storeMessage ht
  | count i => exact h.countMessage hok ht
  | test i =>
    obtain ⟨m, -, rfl⟩ := Option.map_eq_some_iff.mp ht
    exact h.beside rfl rfl rfl h.buffer
  | «return» i =>
    obtain ⟨m, -, rfl⟩ := Option.map_eq_some_iff.mp ht
    exact h.beside rfl rfl rfl h.buffer
  | tx result throws => exact h.runTx hok ht
  | handleWakeup =>
    dsimp only at ht
    split at ht
    · obtain rfl := Option.some.inj ht
      refine h.within rfl rfl rfl fun q n r => ?_
      dsimp only
      split <;> nofun
    · cases ht
  | handleWriteEvent =>
    dsimp only at ht
    split at ht
    · split at ht <;> obtain rfl := Option.some.inj ht
      · exact h.beside rfl rfl rfl h.buffer
      · exact h.within rfl rfl rfl nofun
    · cases ht
  | txDisable | txEnable =>
    obtain rfl := Option.some.inj ht
    exact h.beside rfl rfl rfl h.buffer
  | rxWantWrite | openWith state | establish | tls state | closeEnd =>
    dsimp only at ht
    split at ht
    · obtain rfl := Option.some.inj ht
      exact h.beside rfl rfl rfl h.buffer
    · cases ht
  | closeBegin =>
    dsimp only at ht
    split at ht
    · cases ht
    · obtain rfl := Option.some.inj ht
      exact h.beside rfl rfl rfl h.buffer

/-! ## The flag -/

/-- `FLAG_TX_BLOCK_QUEUEING` is set with `occurred`, and with it half of the counter is remembered; it is
cleared with `solved`, when the counter is down to that. -/
def Raises (s t : Tx) : Option Indication → Prop
  | none => t.flagTxBlockQueueing = s.flagTxBlockQueueing ∧ t.txqueueSizeTxThreshold = s.txqueueSizeTxThreshold
  | some (.occurred p) => s.flagTxBlockQueueing = false ∧ t.flagTxBlockQueueing = true ∧
      t.txqueueSizeTxThreshold = p / 2
  | some (.solved n) => s.flagTxBlockQueueing = true ∧ t.flagTxBlockQueueing = false ∧
      n ≤ s.txqueueSizeTxThreshold

theorem raises_congested (s : Tx) : Raises s s.congested
    (if s.flagTxBlockQueueing = false then some (.occurred s.txqueuePendingPkts) else none) := by
  cases hflag : s.flagTxBlockQueueing with
  | false => exact ⟨hflag, rfl, by simp [congested, hflag]⟩
  | true => exact ⟨hflag.symm, by simp [congested, hflag]⟩

theorem send_raises {q : QueueId} {n : ℕ} {r throws : Bool} {result : SendResult} (hpc : s.pc = .send q n r)
    (ht : s.send q n r result = some t) : Raises s t (s.indication (.tx result throws)) := by
  have hquiet (hnot : ¬ (s.state.established = true ∧ result = .again ∧ s.flagTxBlockQueueing = false))
      (hkept : t.flagTxBlockQueueing = s.flagTxBlockQueueing ∧ t.txqueueSizeTxThreshold = s.txqueueSizeTxThreshold) :
      Raises s t (s.indication (.tx result throws)) := by
    unfold indication
    dsimp only
    rw [hpc]
    dsimp only
    rw [if_neg hnot]
    exact hkept
  unfold Tx.send at ht
  split at ht
  next hstate =>
    cases result with
    | again =>
      obtain rfl := Option.some.inj ht
      simpa [indication, hpc, hstate] using raises_congested s
    | bytes k =>
      obtain rfl := Option.some.inj ht
      exact hquiet nofun ⟨rfl, rfl⟩
    | fatal =>
      obtain rfl := Option.some.inj ht
      exact hquiet nofun ⟨rfl, rfl⟩
    | zero | wantRead | wantOther =>
      dsimp only at ht
      split at ht
      · obtain rfl := Option.some.inj ht
        exact hquiet nofun ⟨rfl, rfl⟩
      · cases ht
  next hstate =>
    obtain rfl := Option.some.inj ht
    exact hquiet (fun h => hstate h.1) ⟨rfl, rfl⟩

theorem endRound_raises (s : Tx) (r throws : Bool) : Raises s (s.endRound r throws)
    (if Solved s then some (.solved s.txqueuePendingPkts) else none) := by
  unfold Tx.endRound
  dsimp only
  by_cases hsolved : Solved s
  · rw [if_pos hsolved, if_pos ⟨by simpa using hsolved.1, hsolved.2⟩]
    exact ⟨hsolved.2.1, rfl, hsolved.2.2⟩
  · rw [if_neg hsolved, if_neg fun h => hsolved ⟨by simpa using h.1, h.2⟩]
    exact ⟨rfl, rfl⟩

theorem fetch_flags (s : Tx) (q : QueueId) (n : ℕ) (r : Bool) :
    (s.fetch q n r).flagTxBlockQueueing = s.flagTxBlockQueueing ∧
      (s.fetch q n r).txqueueSizeTxThreshold = s.txqueueSizeTxThreshold := by
  unfold Tx.fetch
  split
  · split
    · exact ⟨rfl, rfl⟩
    · dsimp only
      split <;> exact ⟨rfl, rfl⟩
  · exact ⟨rfl, rfl⟩

theorem runTx_raises {result : SendResult} {throws : Bool} (ht : s.runTx result throws = some t) :
    Raises s t (s.indication (.tx result throws)) := by
  unfold Tx.runTx at ht
  cases hpc : s.pc with
  | send q n r =>
    rw [hpc] at ht
    exact send_raises hpc ht
  | roundEnd r =>
    rw [hpc] at ht
    obtain rfl := Option.some.inj ht
    simpa [indication, hpc] using endRound_raises s r throws
  | idle =>
    rw [hpc] at ht
    cases ht
  | fetch q n r =>
    rw [hpc] at ht
    obtain rfl := Option.some.inj ht
    simpa [indication, hpc, Raises] using fetch_flags s q n r
  | entry | slot q n r =>
    rw [hpc] at ht
    dsimp only at ht
    split at ht
    all_goals
      obtain rfl := Option.some.inj ht
      simp [indication, hpc, Raises]
  | queueEnd q r | finish1 | finish2 =>
    rw [hpc] at ht
    obtain rfl := Option.some.inj ht
    simp [indication, hpc, Raises]

theorem step_raises {a : Act} (ht : s.step a = some t) : Raises s t (s.indication a) := by
  unfold Tx.step at ht
  cases a with
  | tx result throws => exact runTx_raises ht
  | sendMessage m enforce =>
    obtain rfl := Option.some.inj ht
    unfold Tx.sendMessage
    dsimp only
    split
    · exact ⟨rfl, rfl⟩
    · split <;> exact ⟨rfl, rfl⟩
  | store i =>
    obtain ⟨m, -, rfl⟩ := Option.map_eq_some_iff.mp ht
    dsimp only
    split <;> exact ⟨rfl, rfl⟩
  | count i | test i | «return» i =>
    obtain ⟨m, -, rfl⟩ := Option.map_eq_some_iff.mp ht
    exact ⟨rfl, rfl⟩
  | handleWriteEvent =>
    dsimp only at ht
    split at ht
    · split at ht
      all_goals
        obtain rfl := Option.some.inj ht
        exact ⟨rfl, rfl⟩
    · cases ht
  | txDisable | txEnable =>
    obtain rfl := Option.some.inj ht
    exact ⟨rfl, rfl⟩
  | handleWakeup | rxWantWrite | openWith state | establish | tls state | closeBegin | closeEnd =>
    dsimp only at ht
    split at ht
    all_goals
      cases ht
      try exact ⟨rfl, rfl⟩

/-! ## The indications of a run -/

open Indication

/-- The flag tells whether an `occurred` is unsolved, and the snapshot is half of what it had. -/
structure Signals (s : Tx) (l : List Indication) : Prop where
  alternate : Alternate l
  flag : s.flagTxBlockQueueing = (unsolved l).isSome
  threshold : ∀ p, unsolved l = some p → s.txqueueSizeTxThreshold = p / 2

theorem Signals.start (h : s.flagTxBlockQueueing = false) : Signals s [] where
  alternate := trivial
  flag := h
  threshold _ hsome := by cases hsome

theorem Signals.toNat_le {n p : UInt32} {l : List Indication} (h : Signals s l) (hp : unsolved l = some p) :
    n ≤ s.txqueueSizeTxThreshold ↔ n.toNat ≤ p.toNat / 2 := by
  rw [h.threshold p hp, UInt32.le_iff_toNat_le, UInt32.toNat_div]
  rfl

theorem Signals.raise {l : List Indication} {o : Option Indication} (h : Signals s l) (hr : Raises s t o) :
    Signals t (l ++ o.toList) := by
  cases o with
  | none =>
    obtain ⟨hflag, hthreshold⟩ := hr
    rw [Option.toList_none, List.append_nil]
    exact ⟨h.alternate, hflag.trans h.flag, fun p hp => hthreshold.trans (h.threshold p hp)⟩
  | some i =>
    rw [Option.toList_some]
    cases i with
    | occurred p =>
      obtain ⟨hbefore, hafter, hthreshold⟩ := hr
      have hnone : unsolved l = none := by
        rw [← Option.not_isSome_iff_eq_none, ← h.flag, hbefore]
        exact Bool.false_ne_true
      refine ⟨h.alternate.append_occurred p hnone, by simpa using hafter, fun p' hp' => ?_⟩
      rw [unsolved_append_occurred] at hp'
      obtain rfl := Option.some.inj hp'
      exact hthreshold
    | solved n =>
      obtain ⟨hbefore, hafter, hle⟩ := hr
      obtain ⟨p, hp⟩ := Option.isSome_iff_exists.mp (h.flag.symm.trans hbefore)
      exact ⟨h.alternate.append_solved ((h.toNat_le hp).mp hle) hp, by simpa using hafter, by simp⟩

end Tx

namespace Signalled

open Indication Tx

variable {s s' : Signalled}

structure Steady (s : Signalled) : Prop where
  balanced : Balanced s.tx
  signals : Signals s.tx s.indications

theorem Steady.new : Steady new where
  balanced := .new
  signals := .start rfl

/-- The indications of a new connection start over. -/
theorem Steady.signals_step {a : Act} {t : Tx} (h : Steady s) (hok : Ok s a) (ht : s.tx.step a = some t) :
    Signals t (if a = .establish then [] else s.indications ++ (s.tx.indication a).toList) := by
  have hraises := step_raises ht
  split
  next ha =>
    subst ha
    exact .start (hraises.1.trans hok)
  next => exact h.signals.raise hraises

theorem Steady.step {a : Act} (h : Steady s) (hok : Ok s a) (hs : s.step a = some s') :
    Steady s' ∧ Accounted s a s' := by
  obtain ⟨t, ht, rfl⟩ := Option.map_eq_some_iff.mp hs
  obtain ⟨hbalanced, hwrap⟩ := h.balanced.step (l := s.indications) hok ht
  have hsignals := h.signals_step hok ht
  refine ⟨⟨hbalanced, hsignals⟩, hwrap, fun hcall => ?_, hsignals.alternate, ?_⟩
  · have hcounted := hbalanced.counted
    rw [hcall.inCount] at hcounted
    exact hcounted
  · rintro result throws r p rfl hpc hcongested hp hhalf
    have hsolved : Solved s.tx :=
      ⟨hcongested, by rw [h.signals.flag, hp]; rfl, (h.signals.toNat_le hp).mpr hhalf⟩
    simp [indication, hpc, hsolved]

/-- **Accounting and congestion**, in every run whose steps meet the condition: the counter does not wrap
and is what is left to send, and the indications take turns, `solved` at half of what `occurred` had. -/
theorem accounted_of_meets {as : List Act} (hok : Runs.Meets step Ok new as) :
    Runs.Along step Accounted new as :=
  Runs.along_of_meets (fun _ _ _ hI ha hs => (Steady.step hI ha hs).1)
    (fun _ _ _ hI ha hs => (Steady.step hI ha hs).2) .new hok

/-- Two messages are queued when the socket would block; when it is writable again, both go out. -/
def resumedRun : List Act :=
  [Act.openWith .tcpConnecting, .establish, .sendMessage ⟨4, 0, 1, []⟩ false, .store 0, .count 0, .test 0,
      .sendMessage ⟨4, 0, 2, []⟩ false, .store 0, .count 0, .handleWakeup] ++
    List.replicate 7 (Act.tx .again false) ++ [Act.handleWriteEvent] ++ List.replicate 20 (Act.tx (.bytes 7) false)

theorem accounted_resumed : ∃ t, Runs.run step new resumedRun = some t ∧
    t.indications = [.occurred 2, .solved 0] ∧ Runs.Along step Accounted new resumedRun := by
  obtain ⟨t, hrun, hindications⟩ : ∃ t ∈ Runs.run step new resumedRun, t.indications = [.occurred 2, .solved 0] := by
    decide +kernel
  exact ⟨t, hrun, hindications, accounted_of_meets (by decide +kernel)⟩

/-- A second message is stored and not counted yet when the TX thread has sent the first one. -/
def overtakenRun : List Act :=
  [Act.openWith .tcpConnecting, .establish, .sendMessage ⟨4, 0, 1, []⟩ false, .store 0, .count 0, .test 0,
      .sendMessage ⟨4, 0, 2, []⟩ false, .store 0, .handleWakeup] ++ List.replicate 9 (Act.tx (.bytes 7) false)

/-- The TX thread sends the second one too, and the counter wraps. -/
theorem pending_wraps : ∃ s t, Runs.run step new overtakenRun = some s ∧ s.tx.txqueuePendingPkts = 0 ∧
    s.step (.tx (.bytes 7) false) = some t ∧ t.tx.txqueuePendingPkts = 4294967295 ∧
    ¬ Runs.Along step Accounted new (overtakenRun ++ [.tx (.bytes 7) false]) := by
  obtain ⟨s, hrun, hzero, t, hs, hwrapped⟩ : ∃ s ∈ Runs.run step new overtakenRun, s.tx.txqueuePendingPkts = 0 ∧
      ∃ t ∈ s.step (.tx (.bytes 7) false), t.tx.txqueuePendingPkts = 4294967295 := by decide +kernel
  refine ⟨s, t, hrun, hzero, hs, hwrapped, fun h => ?_⟩
  have hle := (Runs.along_last h hrun hs).noWrap hzero
  rw [hwrapped] at hle
  exact absurd hle (by decide)

end Signalled

end RoflCommon
