/-
What reaches the socket on one connection: at any time a prefix of whole
packed messages, these being just the messages accepted, and those of one
queue in the order in which they were stored (`stream_integrity`).

To the messages `crofsock` is an outbox: `send_message` stores, the TX thread
loads one message into the empty transmission buffer and writes what the
buffer holds, any number of octets at a time. Each step of the model is a
step of that outbox, or none (`outbox_step`).
-/
import RoflCommon.Crofsock.Send

namespace RoflCommon
namespace Tx

open Classes

/-- The messages of the connection, as an outbox. -/
def outbox (s : Tx) : Outbox Cofmsg UInt8 QueueId where
  queues q := (s.txqueues q).queue
  current := s.txbuffer.content
  stored := s.stored
  loaded := s.packed
  written := s.written

/-- The messages for which `send_message` answered that they are queued. -/
def accepted (results : List (Cofmsg × MsgResult)) : List Cofmsg :=
  results.filterMap fun p => if p.2 = .queued ∨ p.2 = .queuedCongestion then some p.1 else none

/-! ## The steps as steps of the outbox -/

/-- What a step of the TX thread does to the buffer and to the messages. -/
inductive Moved (s s' : Tx) : Prop
  | none (buffer : s'.txbuffer = s.txbuffer) (outbox : s'.outbox = s.outbox)
  | load (q : QueueId) (m : Cofmsg) (empty : s.txbuffer.content = [])
      (room : s.txbuffer.wbytes + m.pack.length ≤ s.txbuffer.size)
      (buffer : s'.txbuffer = (s.txbuffer.write m.pack).wseek m.pack.length)
      (outbox : Outbox.step queueOf Cofmsg.pack s.outbox (.load q) = some s'.outbox)
  | discard (q : QueueId) (m : Cofmsg) (empty : s.txbuffer.content = []) (mem : m ∈ (s.txqueues q).queue)
      (tooLong : s.txbuffer.size < s.txbuffer.wbytes + m.length) (buffer : s'.txbuffer = s.txbuffer)
      (outbox : Outbox.step queueOf Cofmsg.pack s.outbox (.discard q) = some s'.outbox)
  | write (n : Nat) (up : s.state.established = true) (buffer : s'.txbuffer = s.txbuffer.rseek n)
      (outbox : Outbox.step queueOf Cofmsg.pack s.outbox (.write n) = some s'.outbox)

/-- Where the calls of `send_message` are. -/
structure Calls where
  inStore : List (Cofmsg × Bool)
  inCount : List Cofmsg
  inTest : List Cofmsg
  inReturn : List Cofmsg
  begun : List Cofmsg
  stored : List Cofmsg
  results : List (Cofmsg × MsgResult)

def calls (s : Tx) : Calls := ⟨s.inStore, s.inCount, s.inTest, s.inReturn, s.begun, s.stored, s.results⟩

/-- What the TX thread leaves alone. -/
structure Kept (s s' : Tx) : Prop where
  calls : s'.calls = s.calls
  state : s'.state = s.state
  txDisabled : s'.txDisabled = s.txDisabled
  flagClosing : s'.flagClosing = s.flagClosing
  pending : s.state.established = false → s'.txqueuePendingPkts = s.txqueuePendingPkts

variable {s s' : Tx}

theorem fetch_moved (q : QueueId) (n : Nat) (r : Bool) :
    Moved s (s.fetch q n r) ∧ Kept s (s.fetch q n r) := by
  unfold fetch
  split
  next hempty =>
    have hcontent := Cbuffer.empty_iff.mp hempty
    split
    next => exact ⟨.none rfl rfl, rfl, rfl, rfl, rfl, fun _ => rfl⟩
    next m rest hretrieve =>
      have hqueue := Crofqueue.retrieve_eq_some hretrieve
      have hrest : (fun j => (Function.update s.txqueues q rest j).queue) =
          Function.update (fun j => (s.txqueues j).queue) q rest.queue := by
        funext j
        by_cases hj : j = q
        · subst hj; simp
        · simp [hj]
      dsimp only
      split
      next hroom =>
        have hfit : s.txbuffer.wbytes + m.pack.length ≤ s.txbuffer.size := by
          have := s.txbuffer.wbytes_le
          rw [Cofmsg.length_pack]
          omega
        refine ⟨.load q m hcontent hfit (by simp [pack]) ?_, rfl, rfl, rfl, rfl, fun _ => rfl⟩
        have hnew := Cbuffer.content_wseek_write hfit
        rw [hcontent, List.nil_append] at hnew
        simp only [Outbox.step, outbox, hcontent, hqueue, pack, hnew, hrest]
      next hroom =>
        refine ⟨.discard q m hcontent (by simp [hqueue]) (by omega) rfl ?_, rfl, rfl, rfl, rfl, fun _ => rfl⟩
        simp only [Outbox.step, outbox, hqueue, hrest]
  next => exact ⟨.none rfl rfl, rfl, rfl, rfl, rfl, fun _ => rfl⟩

theorem wrote_moved (hup : s.state.established = true) (n : Nat) (pc : TxPc) :
    Moved s { s.wrote n with pc := pc } :=
  .write n hup rfl (by simp [Outbox.step, outbox, wrote])

theorem runTx_moved {result : SendResult} {throws : Bool} (h : s.runTx result throws = some s') :
    Moved s s' ∧ Kept s s' := by
  unfold runTx at h
  split at h
  next => cases h
  next =>
    split at h
    all_goals
      obtain rfl := Option.some.inj h
      exact ⟨.none rfl rfl, rfl, rfl, rfl, rfl, fun _ => rfl⟩
  next =>
    split at h
    all_goals
      obtain rfl := Option.some.inj h
      exact ⟨.none rfl rfl, rfl, rfl, rfl, rfl, fun _ => rfl⟩
  next q n r _ =>
    obtain rfl := Option.some.inj h
    exact fetch_moved q n r
  next q n r _ =>
    unfold send at h
    split at h
    next hup =>
      cases result with
      | bytes k =>
        obtain rfl := Option.some.inj h
        exact ⟨wrote_moved hup _ _, rfl, rfl, rfl, rfl, fun hdown => by simp [hdown] at hup⟩
      | again | fatal =>
        obtain rfl := Option.some.inj h
        exact ⟨.none rfl rfl, rfl, rfl, rfl, rfl, fun _ => rfl⟩
      | zero =>
        dsimp only at h
        split at h
        · obtain rfl := Option.some.inj h
          exact ⟨wrote_moved hup _ _, rfl, rfl, rfl, rfl, fun hdown => by simp [hdown] at hup⟩
        · cases h
      | wantRead | wantOther =>
        dsimp only at h
        split at h
        · obtain rfl := Option.some.inj h
          exact ⟨.none rfl rfl, rfl, rfl, rfl, rfl, fun _ => rfl⟩
        · cases h
    next =>
      obtain rfl := Option.some.inj h
      exact ⟨.none rfl rfl, rfl, rfl, rfl, rfl, fun _ => rfl⟩
  next =>
    obtain rfl := Option.some.inj h
    exact ⟨.none rfl rfl, rfl, rfl, rfl, rfl, fun _ => rfl⟩
  next =>
    obtain rfl := Option.some.inj h
    unfold endRound
    dsimp only
    split
    · exact ⟨.none rfl rfl, rfl, rfl, rfl, rfl, fun _ => rfl⟩
    · exact ⟨.none rfl rfl, rfl, rfl, rfl, rfl, fun _ => rfl⟩
  next =>
    obtain rfl := Option.some.inj h
    exact ⟨.none rfl rfl, rfl, rfl, rfl, rfl, fun _ => rfl⟩
  next =>
    obtain rfl := Option.some.inj h
    exact ⟨.none rfl rfl, rfl, rfl, rfl, rfl, fun _ => rfl⟩

/-! ## The invariant -/

/-- All messages fit into the transmission buffer, which is written from its
start on; nothing stored is lost or doubled, and each message stored is
accepted or its call has yet to return. -/
structure Sound (s : Tx) : Prop where
  inv : Outbox.Inv queueOf Cofmsg.pack s.outbox
  fits : Outbox.Sent Cofmsg.pack (fun m => m.length ≤ 65536) s.outbox
  calls : ∀ c ∈ s.inStore, c.1.length ≤ 65536
  size : s.txbuffer.size = 65536
  wbytes : s.txbuffer.content = [] → s.txbuffer.wbytes = 0
  accounted : s.stored.Perm (accepted s.results ++ s.inCount ++ s.inTest ++ s.inReturn)

theorem count_eraseIdx {l : List Cofmsg} {i : Nat} {m : Cofmsg} (h : l[i]? = some m) (a : Cofmsg) :
    l.count a = [m].count a + (l.eraseIdx i).count a := by
  obtain ⟨hi, rfl⟩ := List.getElem?_eq_some_iff.mp h
  rw [← List.count_append]
  exact (List.getElem_cons_eraseIdx_perm hi).symm.count_eq a

/-- A step that leaves the messages and the calls alone. -/
theorem Sound.of_same (h : Sound s) (buffer : s'.txbuffer = s.txbuffer) (outbox : s'.outbox = s.outbox)
    (calls : s'.calls = s.calls) : Sound s' := by
  simp only [Tx.calls, Calls.mk.injEq] at calls
  obtain ⟨h₁, h₂, h₃, h₄, -, h₅, h₆⟩ := calls
  exact ⟨outbox ▸ h.inv, outbox ▸ h.fits, h₁ ▸ h.calls, buffer ▸ h.size, by rw [buffer]; exact h.wbytes,
    by rw [h₂, h₃, h₄, h₅, h₆]; exact h.accounted⟩

theorem Sound.moved (h : Sound s) (hm : Moved s s') (calls : s'.calls = s.calls) : Sound s' := by
  have hcalls := calls
  simp only [Tx.calls, Calls.mk.injEq] at hcalls
  obtain ⟨h₁, h₂, h₃, h₄, -, h₅, h₆⟩ := hcalls
  have hcall : ∀ c ∈ s'.inStore, c.1.length ≤ 65536 := h₁ ▸ h.calls
  have haccounted : s'.stored.Perm (accepted s'.results ++ s'.inCount ++ s'.inTest ++ s'.inReturn) := by
    rw [h₂, h₃, h₄, h₅, h₆]
    exact h.accounted
  cases hm with
  | none buffer outbox => exact h.of_same buffer outbox calls
  | load q m empty room buffer outbox =>
    refine ⟨h.inv.step (by simp) outbox, h.fits.step (by simp) outbox, hcall, ?_, fun hnil => ?_, haccounted⟩
    · rw [buffer]
      exact (Cbuffer.wseek_of_le (b := s.txbuffer.write m.pack) room).2.trans h.size
    · rw [buffer, Cbuffer.content_wseek_write room] at hnil
      have := m.length_pos
      rw [← Cofmsg.length_pack, (List.append_eq_nil_iff.mp hnil).2] at this
      exact absurd this (Nat.lt_irrefl 0)
  | discard q m empty mem tooLong buffer outbox =>
    have := h.fits.queues q m mem
    rw [h.size, h.wbytes empty] at tooLong
    omega
  | write n up buffer outbox =>
    refine ⟨h.inv.step (by simp) outbox, h.fits.step (by simp) outbox, hcall, ?_, fun hnil => ?_, haccounted⟩
    · rw [buffer, Cbuffer.size_rseek]
      exact h.size
    · rw [buffer] at hnil ⊢
      exact Cbuffer.wbytes_rseek hnil

/-- The message of the act, if any, fits into the transmission buffer. -/
def fitsBuffer : Act → Bool
  | .sendMessage m _ => m.length ≤ 65536
  | _ => true

theorem accepted_append (l₁ l₂ : List (Cofmsg × MsgResult)) : accepted (l₁ ++ l₂) = accepted l₁ ++ accepted l₂ :=
  List.filterMap_append

theorem Sound.sendMessage {m : Cofmsg} (enforce : Bool) (h : Sound s) (hm : m.length ≤ 65536) :
    Sound (s.sendMessage m enforce) := by
  unfold Tx.sendMessage
  dsimp only
  split
  · exact ⟨h.inv, h.fits, h.calls, h.size, h.wbytes, by simpa [accepted_append, accepted] using h.accounted⟩
  split
  · exact ⟨h.inv, h.fits, h.calls, h.size, h.wbytes, by simpa [accepted_append, accepted] using h.accounted⟩
  · refine ⟨h.inv, h.fits, fun c hc => ?_, h.size, h.wbytes, h.accounted⟩
    rcases List.mem_append.mp hc with hc | hc
    · exact h.calls c hc
    · rw [List.mem_singleton.mp hc]
      exact hm

/-- The message stored enters the outbox. -/
theorem store_outbox {m : Cofmsg} {enforce : Bool} {q : Crofqueue Cofmsg}
    (h : (s.txqueues (queueOf m)).store m enforce = some q) (rest : List (Cofmsg × Bool)) :
    Outbox.step queueOf Cofmsg.pack s.outbox (.store m) =
      some ({ s with
        inStore := rest
        txqueues := Function.update s.txqueues (queueOf m) q
        inCount := s.inCount ++ [m]
        stored := s.stored ++ [m] } : Tx).outbox := by
  have hqueues : (fun j => (Function.update s.txqueues (queueOf m) q j).queue) =
      Function.update (fun j => (s.txqueues j).queue) (queueOf m) ((s.txqueues (queueOf m)).queue ++ [m]) := by
    funext j
    by_cases hj : j = queueOf m
    · subst hj
      simp [Crofqueue.store_queue h]
    · simp [hj]
  simp only [Outbox.step, outbox, hqueues]

theorem Sound.storeMessage {i : Nat} (h : Sound s) (hs : s.storeMessage i = some s') : Sound s' := by
  obtain ⟨⟨m, enforce⟩, hi, rfl⟩ := Option.map_eq_some_iff.mp hs
  have hm : m.length ≤ 65536 := h.calls _ (List.mem_of_getElem? hi)
  have hrest : ∀ c ∈ s.inStore.eraseIdx i, c.1.length ≤ 65536 := fun c hc =>
    h.calls c (List.mem_of_mem_eraseIdx hc)
  dsimp only
  split
  · exact ⟨h.inv, h.fits, hrest, h.size, h.wbytes, by simpa [accepted_append, accepted] using h.accounted⟩
  next q hq =>
    have hop := store_outbox hq (s.inStore.eraseIdx i)
    refine ⟨h.inv.step (by simp) hop, h.fits.step (fun a ha => ?_) hop, hrest, h.size, h.wbytes, ?_⟩
    · cases ha
      exact hm
    · refine List.perm_iff_count.mpr fun a => ?_
      have haccounted := List.perm_iff_count.mp h.accounted a
      simp only [List.count_append] at haccounted ⊢
      omega

theorem Sound.countMessage {i : Nat} (h : Sound s) (hs : s.countMessage i = some s') : Sound s' := by
  obtain ⟨m, hi, rfl⟩ := Option.map_eq_some_iff.mp hs
  refine ⟨h.inv, h.fits, h.calls, h.size, h.wbytes, List.perm_iff_count.mpr fun a => ?_⟩
  have haccounted := List.perm_iff_count.mp h.accounted a
  have hmoved := count_eraseIdx hi a
  simp only [List.count_append] at haccounted ⊢
  omega

theorem Sound.testRunning {i : Nat} (h : Sound s) (hs : s.testRunning i = some s') : Sound s' := by
  obtain ⟨m, hi, rfl⟩ := Option.map_eq_some_iff.mp hs
  refine ⟨h.inv, h.fits, h.calls, h.size, h.wbytes, List.perm_iff_count.mpr fun a => ?_⟩
  have haccounted := List.perm_iff_count.mp h.accounted a
  have hmoved := count_eraseIdx hi a
  simp only [List.count_append] at haccounted ⊢
  omega

theorem Sound.returnQueued {i : Nat} (h : Sound s) (hs : s.returnQueued i = some s') : Sound s' := by
  obtain ⟨m, hi, rfl⟩ := Option.map_eq_some_iff.mp hs
  refine ⟨h.inv, h.fits, h.calls, h.size, h.wbytes, List.perm_iff_count.mpr fun a => ?_⟩
  have haccounted := List.perm_iff_count.mp h.accounted a
  have hmoved := count_eraseIdx hi a
  have hresult : accepted [(m, if s.flagTxBlockQueueing then .queuedCongestion else .queued)] = [m] := by
    cases s.flagTxBlockQueueing <;> rfl
  simp only [accepted_append, hresult, List.count_append] at haccounted ⊢
  omega

theorem Sound.step {a : Act} (h : Sound s) (hfits : fitsBuffer a) (ha : a ≠ .establish) (hs : s.step a = some s') :
    Sound s' := by
  unfold Tx.step at hs
  cases a with
  | sendMessage m enforce =>
    obtain rfl := Option.some.inj hs
    exact h.sendMessage enforce (of_decide_eq_true hfits)
  | store i => exact h.storeMessage hs
  | count i => exact h.countMessage hs
  | test i => exact h.testRunning hs
  | «return» i => exact h.returnQueued hs
  | tx result throws =>
    obtain ⟨hmoved, hkept⟩ := runTx_moved hs
    exact h.moved hmoved hkept.calls
  | establish => exact absurd rfl ha
  | txDisable | txEnable =>
    obtain rfl := Option.some.inj hs
    exact h.of_same rfl rfl rfl
  | handleWakeup | rxWantWrite | openWith | tls | closeBegin | closeEnd =>
    dsimp only at hs
    split at hs
    all_goals cases hs
    all_goals exact h.of_same rfl rfl rfl
  | handleWriteEvent =>
    dsimp only at hs
    split at hs
    · split at hs
      all_goals
        obtain rfl := Option.some.inj hs
        exact h.of_same rfl rfl rfl
    · cases hs

/-! ## The stream -/

/-- A connection has just been established, with nothing left of the one
before; the flags and counters, and where the TX thread is, may be anything. -/
structure Start (s : Tx) : Prop where
  established : s.state = .tcpEstablished
  queues : ∀ q, (s.txqueues q).queue = []
  buffer : s.txbuffer.content = []
  size : s.txbuffer.size = 65536
  wbytes : s.txbuffer.wbytes = 0
  calls : s.inStore = [] ∧ s.inCount = [] ∧ s.inTest = [] ∧ s.inReturn = []
  fresh : s.stored = [] ∧ s.packed = [] ∧ s.written = [] ∧ s.results = []

theorem Start.sound (h : Start s) : Sound s where
  inv := .empty h.queues h.buffer ⟨h.fresh.1, h.fresh.2.1, h.fresh.2.2.1⟩
  fits :=
    { queues := fun q m hm => by simp [outbox, h.queues q] at hm
      loaded := fun m hm => by simp [outbox, h.fresh.2.1] at hm
      stream := by simp [outbox, h.fresh.2.1, h.fresh.2.2.1, h.buffer] }
  calls c hc := by simp [h.calls.1] at hc
  size := h.size
  wbytes _ := h.wbytes
  accounted := by simp [h.fresh.1, h.fresh.2.2.2, h.calls.2.1, h.calls.2.2.1, h.calls.2.2.2, accepted]

/-- What `ms`, in this order, have to be for the octets written so far. -/
structure Carries (s : Tx) (ms : List Cofmsg) : Prop where
  stream : s.written <+: ms.flatMap Cofmsg.pack
  /-- The messages accepted, once each, and those whose call has yet to return. -/
  accepted : ms.Perm (accepted s.results ++ s.inCount ++ s.inTest ++ s.inReturn)
  /-- Each queue is served in the order in which its messages were stored. -/
  order : Agree queueOf ms s.stored

theorem Sound.carries (h : Sound s) : ∃ ms, Carries s ms := by
  obtain ⟨ms, hstream, hagree⟩ := h.inv.integrity (by decide : QueueId.all.Nodup) QueueId.mem_all
  exact ⟨ms, hstream, hagree.perm.trans h.accounted, hagree⟩

/-- **Integrity of the stream**: in every run up to the next connection the
octets written are a prefix of whole messages, just those accepted. -/
theorem stream_integrity {s t : Tx} {as : List Act} (hs : Start s) (hfits : ∀ a ∈ as, fitsBuffer a)
    (hconn : ∀ a ∈ as, a ≠ .establish) (h : Runs.run step s as = some t) : ∃ ms, Carries t ms := by
  have hok : Runs.Meets step (fun _ a => fitsBuffer a ∧ a ≠ .establish) s as :=
    Runs.meets_of_forall fun a ha => ⟨hfits a ha, hconn a ha⟩
  exact (Runs.invariant_of_meets (fun s a s' hI hok hstep => Sound.step hI hok.1 hok.2 hstep) hs.sound hok h).carries

/-- The state in which `tcp_connect` on a new socket ends. -/
def connected : Tx := (new.openWith .tcpConnecting).establish

theorem start_connected : Start connected where
  established := rfl
  queues _ := rfl
  buffer := rfl
  size := rfl
  wbytes := rfl
  calls := ⟨rfl, rfl, rfl, rfl⟩
  fresh := ⟨rfl, rfl, rfl, rfl⟩

/-- A message of which three octets go out before the socket would block. -/
def congestedRun : List Act :=
  [Act.sendMessage ⟨4, 0, 1, []⟩ false, .store 0, .count 0, .test 0, .return 0, .handleWakeup] ++
    List.replicate 7 (Act.tx (.bytes 2) false) ++ List.replicate 3 (Act.tx .again false)

theorem stream_integrity_congested : ∃ t, Runs.run step connected congestedRun = some t ∧
    t.written = [4, 0, 0] ∧ t.pc = .idle ∧ t.writeFd = true ∧ ∃ ms, Carries t ms := by
  obtain ⟨t, hrun, hwritten, hpc, hfd⟩ : ∃ t ∈ Runs.run step connected congestedRun,
      t.written = [4, 0, 0] ∧ t.pc = .idle ∧ t.writeFd = true := by decide +kernel
  exact ⟨t, hrun, hwritten, hpc, hfd,
    stream_integrity start_connected (by decide +kernel) (by decide +kernel) hrun⟩

end Tx
end RoflCommon
