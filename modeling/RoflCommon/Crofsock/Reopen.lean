/-
What one connection leaves to the next on the sending side.

`close()` resets neither the transmission buffer nor the counter, and the
loops of `tcp_connect`, `tcp_accept` and `listen` empty copies of the queues.
So a connection starts with nothing unsent, and carries only messages passed
to `send_message` since it was established, in those runs in which every
`close()` finds nothing left (`reopened_isolated`). What it does find left is
still there when the next connection is established (`leftover_survives`).
-/
import RoflCommon.Crofsock.Stream

namespace RoflCommon

/-- The TCP connection is there. -/
def SockState.tcpUp : SockState → Bool
  | .tcpEstablished | .tlsConnecting | .tlsAccepting | .tlsEstablished => true
  | _ => false

theorem SockState.tcpUp_of_established {s : SockState} (h : s.established = true) : s.tcpUp = true := by
  cases s <;> first | rfl | cases h

/-- The TLS handshake takes place on a TCP connection. -/
theorem SockState.tcpUp_of_tlsMove {closing : Bool} {s t : SockState} (h : s.tlsMove closing t = true) :
    s.tcpUp = true ∧ t.tcpUp = true := by
  cases s <;> cases t <;> first | exact ⟨rfl, rfl⟩ | cases h

theorem SockState.not_tcpUp_of_opening {s : SockState} (h : s.opening = true) : s.tcpUp = false := by
  cases s <;> first | rfl | cases h

namespace Tx

/-- Nothing is left to send. -/
structure Drained (s : Tx) : Prop where
  queues : ∀ q, (s.txqueues q).queue = []
  buffer : s.txbuffer.content = []
  pending : s.txqueuePendingPkts = 0

/-- Nothing is left to send, and no call of `send_message` is going to store
or to count a message. -/
structure NothingLeft (s : Tx) : Prop extends Drained s where
  inStore : s.inStore = []
  inCount : s.inCount = []

instance (s : Tx) : Decidable (Drained s) :=
  decidable_of_iff ((∀ q ∈ QueueId.all, (s.txqueues q).queue = []) ∧ s.txbuffer.content = [] ∧
      s.txqueuePendingPkts = 0)
    ⟨fun ⟨hq, hb, hp⟩ => ⟨fun q => hq q (QueueId.mem_all q), hb, hp⟩,
      fun h => ⟨fun q _ => h.queues q, h.buffer, h.pending⟩⟩

instance (s : Tx) : Decidable (NothingLeft s) :=
  decidable_of_iff (Drained s ∧ s.inStore = [] ∧ s.inCount = [])
    ⟨fun ⟨hd, hs, hc⟩ => ⟨hd, hs, hc⟩, fun h => ⟨h.toDrained, h.inStore, h.inCount⟩⟩

/-- Without a TCP connection nothing is left, and everything queued, packed
or about to be stored was passed to `send_message` on this connection. -/
structure Isolated (s : Tx) : Prop where
  down : s.state.tcpUp = false → NothingLeft s
  sent : Outbox.Sent Cofmsg.pack (fun m => m ∈ s.begun) s.outbox
  calls : ∀ c ∈ s.inStore, c.1 ∈ s.begun

variable {s s' : Tx}

theorem NothingLeft.keep (h : NothingLeft s) (queues : s'.txqueues = s.txqueues)
    (buffer : s'.txbuffer = s.txbuffer) (pending : s'.txqueuePendingPkts = s.txqueuePendingPkts)
    (inStore : s'.inStore = s.inStore) (inCount : s'.inCount = s.inCount) : NothingLeft s' where
  queues := queues ▸ h.queues
  buffer := buffer ▸ h.buffer
  pending := pending ▸ h.pending
  inStore := inStore ▸ h.inStore
  inCount := inCount ▸ h.inCount

theorem Isolated.new : Isolated new where
  down _ := ⟨⟨fun _ => rfl, rfl, rfl⟩, rfl, rfl⟩
  sent := ⟨fun _ _ h => (List.not_mem_nil h).elim, fun _ h => (List.not_mem_nil h).elim, rfl⟩
  calls _ h := (List.not_mem_nil h).elim

/-- A step that leaves the messages and the calls alone. -/
theorem Isolated.of_same (h : Isolated s) (outbox : s'.outbox = s.outbox) (calls : s'.calls = s.calls)
    (down : s'.state.tcpUp = false → NothingLeft s') : Isolated s' := by
  simp only [Tx.calls, Calls.mk.injEq] at calls
  obtain ⟨h₁, -, -, -, h₂, -⟩ := calls
  refine ⟨down, ?_, ?_⟩
  · rw [outbox, h₂]
    exact h.sent
  · rw [h₁, h₂]
    exact h.calls

theorem Isolated.sendMessage {m : Cofmsg} (enforce : Bool) (h : Isolated s) :
    Isolated (s.sendMessage m enforce) := by
  have hmono : ∀ a, a ∈ s.begun → a ∈ s.begun ++ [m] := fun a ha => List.mem_append_left _ ha
  have hsent := h.sent.mono hmono
  have hcalls : ∀ c ∈ s.inStore, c.1 ∈ s.begun ++ [m] := fun c hc => hmono _ (h.calls c hc)
  unfold Tx.sendMessage
  dsimp only
  split
  · exact ⟨fun hd => (h.down hd).keep rfl rfl rfl rfl rfl, hsent, hcalls⟩
  split
  · exact ⟨fun hd => (h.down hd).keep rfl rfl rfl rfl rfl, hsent, hcalls⟩
  next hup =>
    refine ⟨fun hd => ?_, hsent, fun c hc => ?_⟩
    · -- the connection has just been checked
      have := SockState.tcpUp_of_established (not_not.mp hup)
      rw [hd] at this
      cases this
    · rcases List.mem_append.mp hc with hc | hc
      · exact hcalls c hc
      · rw [List.mem_singleton.mp hc]
        exact List.mem_append_right _ (List.mem_singleton.mpr rfl)

/-- Without a connection there is no call left that could store. -/
theorem Isolated.storeMessage {i : Nat} (h : Isolated s) (hs : s.storeMessage i = some s') : Isolated s' := by
  obtain ⟨⟨m, enforce⟩, hi, rfl⟩ := Option.map_eq_some_iff.mp hs
  have hmem := List.mem_of_getElem? hi
  have hup : ¬ s.state.tcpUp = false := fun hd => by
    rw [(h.down hd).inStore] at hmem
    cases hmem
  have hcalls : ∀ c ∈ s.inStore.eraseIdx i, c.1 ∈ s.begun := fun c hc =>
    h.calls c (List.mem_of_mem_eraseIdx hc)
  dsimp only
  split
  · exact ⟨fun hd => absurd hd hup, h.sent, hcalls⟩
  next q hq =>
    refine ⟨fun hd => absurd hd hup, h.sent.step (fun a ha => ?_) (store_outbox hq _), hcalls⟩
    cases ha
    exact h.calls _ hmem

theorem Isolated.countMessage {i : Nat} (h : Isolated s) (hs : s.countMessage i = some s') : Isolated s' := by
  obtain ⟨m, hi, rfl⟩ := Option.map_eq_some_iff.mp hs
  refine ⟨fun hd => ?_, h.sent, h.calls⟩
  have hmem := List.mem_of_getElem? hi
  rw [(h.down hd).inCount] at hmem
  cases hmem

/-- With empty queues and an empty buffer the TX thread moves nothing. -/
theorem NothingLeft.moved (h : NothingLeft s) (hm : Moved s s') :
    (∀ q, (s'.txqueues q).queue = []) ∧ s'.txbuffer.content = [] := by
  have hsame : s'.outbox = s.outbox → ∀ q, (s'.txqueues q).queue = [] := fun ho q =>
    (congrFun (congrArg Outbox.queues ho) q).trans (h.queues q)
  have hempty : ∀ q, s.outbox.queues q = [] := h.queues
  cases hm with
  | none buffer outbox => exact ⟨hsame outbox, buffer ▸ h.buffer⟩
  | load q m empty room buffer outbox => simp [Outbox.step, hempty q] at outbox
  | discard q m empty mem tooLong buffer outbox => simp [Outbox.step, hempty q] at outbox
  | write n up buffer outbox =>
    refine ⟨fun q => ?_, by rw [buffer, Cbuffer.content_rseek, h.buffer, List.drop_nil]⟩
    have := congrArg Outbox.queues (Option.some.inj outbox)
    exact (congrFun this q).symm.trans (h.queues q)

theorem Isolated.runTx {result : SendResult} {throws : Bool} (h : Isolated s)
    (hs : s.runTx result throws = some s') : Isolated s' := by
  obtain ⟨hmoved, hkept⟩ := runTx_moved hs
  have hcalls := hkept.calls
  simp only [Tx.calls, Calls.mk.injEq] at hcalls
  obtain ⟨h₁, h₂, -, -, h₃, -⟩ := hcalls
  refine ⟨fun hd => ?_, ?_, by rw [h₁, h₃]; exact h.calls⟩
  · rw [hkept.state] at hd
    have hleft := h.down hd
    have hest : s.state.established = false := by
      rw [← Bool.not_eq_true]
      intro hest
      rw [SockState.tcpUp_of_established hest] at hd
      cases hd
    obtain ⟨hq, hb⟩ := hleft.moved hmoved
    exact ⟨⟨hq, hb, (hkept.pending hest).trans hleft.pending⟩, h₁.trans hleft.inStore, h₂.trans hleft.inCount⟩
  · rw [h₃]
    cases hmoved with
    | none buffer outbox => rw [outbox]; exact h.sent
    | load q m empty room buffer outbox => exact h.sent.step (by simp) outbox
    | discard q m empty mem tooLong buffer outbox => exact h.sent.step (by simp) outbox
    | write n up buffer outbox => exact h.sent.step (by simp) outbox

/-- The next connection finds nothing and starts its own record. -/
theorem Isolated.establish (h : Isolated s) (hd : s.state.tcpUp = false) :
    Drained s.establish ∧ Isolated s.establish := by
  have hleft := h.down hd
  refine ⟨⟨hleft.queues, hleft.buffer, hleft.pending⟩, nofun, ⟨fun q m hm => ?_, nofun, hleft.buffer⟩, ?_⟩
  · rw [show s.establish.outbox.queues q = [] from hleft.queues q] at hm
    cases hm
  · rw [show s.establish.inStore = [] from hleft.inStore]
    nofun

/-- Every `close()` finds nothing left. -/
def ClosesDrained (s : Tx) (a : Act) : Prop := a = .closeEnd → NothingLeft s

instance (s : Tx) (a : Act) : Decidable (ClosesDrained s a) := inferInstanceAs (Decidable (_ → _))

theorem Isolated.step {a : Act} (h : Isolated s) (hok : ClosesDrained s a) (hs : s.step a = some s') :
    Isolated s' ∧ (a = .establish → Drained s') := by
  unfold Tx.step at hs
  cases a with
  | sendMessage m enforce =>
    obtain rfl := Option.some.inj hs
    exact ⟨h.sendMessage enforce, nofun⟩
  | store i => exact ⟨h.storeMessage hs, nofun⟩
  | count i => exact ⟨h.countMessage hs, nofun⟩
  | test i | «return» i =>
    obtain ⟨m, hi, rfl⟩ := Option.map_eq_some_iff.mp hs
    exact ⟨⟨fun hd => (h.down hd).keep rfl rfl rfl rfl rfl, h.sent, h.calls⟩, nofun⟩
  | tx result throws => exact ⟨h.runTx hs, nofun⟩
  | establish =>
    dsimp only at hs
    split at hs
    next hstate =>
      obtain rfl := Option.some.inj hs
      have hd : s.state.tcpUp = false := by rcases hstate with hstate | hstate <;> rw [hstate] <;> rfl
      exact ⟨(h.establish hd).2, fun _ => (h.establish hd).1⟩
    · cases hs
  | closeEnd =>
    dsimp only at hs
    split at hs
    · obtain rfl := Option.some.inj hs
      exact ⟨h.of_same rfl rfl fun _ => (hok rfl).keep rfl rfl rfl rfl rfl, nofun⟩
    · cases hs
  | openWith state =>
    dsimp only at hs
    split at hs
    next hstate =>
      obtain rfl := Option.some.inj hs
      have hd : s.state.tcpUp = false := by rw [hstate.1]; rfl
      exact ⟨h.of_same rfl rfl fun _ => (h.down hd).keep rfl rfl rfl rfl rfl, nofun⟩
    · cases hs
  | tls state =>
    dsimp only at hs
    split at hs
    next hmove =>
      obtain rfl := Option.some.inj hs
      refine ⟨h.of_same rfl rfl fun hd => ?_, nofun⟩
      rw [(SockState.tcpUp_of_tlsMove hmove).2] at hd
      cases hd
    · cases hs
  | txDisable | txEnable =>
    obtain rfl := Option.some.inj hs
    exact ⟨h.of_same rfl rfl fun hd => (h.down hd).keep rfl rfl rfl rfl rfl, nofun⟩
  | handleWakeup | rxWantWrite | closeBegin =>
    dsimp only at hs
    split at hs
    all_goals cases hs
    all_goals exact ⟨h.of_same rfl rfl fun hd => (h.down hd).keep rfl rfl rfl rfl rfl, nofun⟩
  | handleWriteEvent =>
    dsimp only at hs
    split at hs
    · split at hs
      all_goals
        obtain rfl := Option.some.inj hs
        exact ⟨h.of_same rfl rfl fun hd => (h.down hd).keep rfl rfl rfl rfl rfl, nofun⟩
    · cases hs

/-- What the octets written on the connection so far have to be: the start
of whole messages, each passed to `send_message` since the connection was
established. -/
def OwnStream (s : Tx) : Prop := ∃ ms : List Cofmsg, (∀ m ∈ ms, m ∈ s.begun) ∧ s.written <+: ms.flatMap Cofmsg.pack

/-- **Isolation between connections**, in every run in which each `close()`
finds nothing left: every connection starts drained, and carries only its own
messages. -/
theorem reopened_isolated {t : Tx} {as : List Act} (hok : Runs.Meets step ClosesDrained new as)
    (h : Runs.run step new as = some t) :
    Runs.Along step (fun _ a s' => a = .establish → Drained s') new as ∧ OwnStream t := by
  have keep : ∀ s a s', Isolated s → ClosesDrained s a → step s a = some s' → Isolated s' :=
    fun s a s' hI ha hs => (hI.step ha hs).1
  refine ⟨Runs.along_of_meets keep (fun s a s' hI ha hs => (hI.step ha hs).2) .new hok, ?_⟩
  exact (Runs.invariant_of_meets keep .new hok h).sent.isPrefix

/-- A message of eight octets is sent before the connection is closed and the
socket opened again. -/
def drainedRun : List Act :=
  [Act.openWith .tcpConnecting, .establish, .sendMessage ⟨4, 0, 1, []⟩ false, .store 0, .count 0, .test 0,
      .return 0, .handleWakeup] ++ List.replicate 7 (Act.tx (.bytes 7) false) ++
    [Act.closeBegin, .closeEnd, .openWith .tcpAccepting, .establish]

theorem reopened_isolated_drained : ∃ t, Runs.run step new drainedRun = some t ∧ t.state = .tcpEstablished ∧
    Runs.Along step (fun _ a s' => a = .establish → Drained s') new drainedRun ∧ OwnStream t := by
  obtain ⟨t, hrun, hstate⟩ : ∃ t ∈ Runs.run step new drainedRun, t.state = .tcpEstablished := by decide +kernel
  exact ⟨t, hrun, hstate, reopened_isolated (by decide +kernel) hrun⟩

/-- The socket would block after three octets of a message of eight; the
connection is closed, and the socket opened again. -/
def cutRun : List Act :=
  [Act.openWith .tcpConnecting, .establish] ++ congestedRun ++
    [Act.closeBegin, .closeEnd, .openWith .tcpConnecting, .establish]

/-- A message is sent on the new connection. -/
def nextRun : List Act :=
  [Act.sendMessage ⟨4, 2, 7, []⟩ false, .store 0, .count 0, .test 0, .return 0, .handleWakeup] ++
    List.replicate 4 (Act.tx (.bytes 7) false)

/-- Octets of no message of the connection. -/
theorem not_ownStream {m : Cofmsg} {b : UInt8} {l : List UInt8} (hbegun : s.begun = [m])
    (hwritten : s.written = b :: l) (hb : m.version ≠ b) : ¬ OwnStream s := by
  rintro ⟨ms, hown, hprefix⟩
  rw [hwritten] at hprefix
  cases ms with
  | nil => exact absurd (List.prefix_nil.mp hprefix) (List.cons_ne_nil _ _)
  | cons m' ms =>
    obtain rfl : m' = m := by simpa [hbegun] using hown m' (by simp)
    obtain ⟨rest, hrest⟩ := hprefix
    exact hb (List.cons.inj hrest).1.symm

/-- The new connection starts in the middle of the old one's message. -/
theorem reopened_not_isolated : ∃ s t, Runs.run step new cutRun = some s ∧ s.state = .tcpEstablished ∧
    ¬ Drained s ∧ Runs.run step s nextRun = some t ∧ t.written = [8, 0, 0, 0, 1] ∧ ¬ OwnStream t := by
  obtain ⟨s, hs, hstate, hbuffer, t, ht, hbegun, hwritten⟩ : ∃ s ∈ Runs.run step new cutRun,
      s.state = .tcpEstablished ∧ s.txbuffer.content ≠ [] ∧ ∃ t ∈ Runs.run step s nextRun,
        t.begun = [⟨4, 2, 7, []⟩] ∧ t.written = [8, 0, 0, 0, 1] := by decide +kernel
  exact ⟨s, t, hs, hstate, fun h => hbuffer h.buffer, ht, hwritten, not_ownStream hbegun hwritten (by decide)⟩

/-! ## What is left stays -/

/-- Something is left unsent. -/
def Leftover (s : Tx) : Prop := (∃ q, (s.txqueues q).queue ≠ []) ∨ s.txbuffer.content ≠ []

instance (s : Tx) : Decidable (Leftover s) :=
  decidable_of_iff ((∃ q ∈ QueueId.all, (s.txqueues q).queue ≠ []) ∨ s.txbuffer.content ≠ [])
    (or_congr_left ⟨fun ⟨q, _, hq⟩ => ⟨q, hq⟩, fun ⟨q, hq⟩ => ⟨q, QueueId.mem_all q, hq⟩⟩)

theorem Leftover.of_outbox (h : Leftover s) (outbox : s'.outbox = s.outbox) : Leftover s' := by
  have hq : ∀ q, (s'.txqueues q).queue = (s.txqueues q).queue := congrFun (congrArg Outbox.queues outbox)
  have hb : s'.txbuffer.content = s.txbuffer.content := congrArg Outbox.current outbox
  unfold Leftover at h ⊢
  rw [hb]
  simpa only [hq] using h

/-- Without a connection the TX thread may still pack one message. -/
theorem Leftover.moved (h : Leftover s) (hsound : Sound s) (hdown : s.state.established = false)
    (hm : Moved s s') : Leftover s' := by
  cases hm with
  | none buffer outbox => exact h.of_outbox outbox
  | load q m empty room buffer outbox =>
    refine .inr fun hnil => ?_
    have hpos := m.length_pos
    rw [buffer, Cbuffer.content_wseek_write room] at hnil
    rw [← Cofmsg.length_pack, (List.append_eq_nil_iff.mp hnil).2] at hpos
    exact Nat.lt_irrefl 0 hpos
  | discard q m empty mem tooLong buffer outbox =>
    have := hsound.fits.queues q m mem
    rw [hsound.size, hsound.wbytes empty] at tooLong
    omega
  | write n up buffer outbox =>
    rw [hdown] at up
    cases up

theorem Leftover.storeMessage {i : Nat} (h : Leftover s) (hs : s.storeMessage i = some s') : Leftover s' := by
  obtain ⟨⟨m, enforce⟩, -, rfl⟩ := Option.map_eq_some_iff.mp hs
  dsimp only
  split
  · exact h
  next q hq =>
    refine .inl ⟨queueOf m, ?_⟩
    simp [Crofqueue.store_queue hq]

theorem Leftover.step {a : Act} (h : Leftover s) (hsound : Sound s) (hd : s.state.tcpUp = false)
    (ha : a ≠ .establish) (hs : s.step a = some s') : Leftover s' ∧ s'.state.tcpUp = false := by
  have hdown : s.state.established = false := by
    rw [← Bool.not_eq_true]
    intro hest
    rw [SockState.tcpUp_of_established hest] at hd
    cases hd
  unfold Tx.step at hs
  cases a with
  | sendMessage m enforce =>
    obtain rfl := Option.some.inj hs
    unfold Tx.sendMessage
    dsimp only
    split
    · exact ⟨h, hd⟩
    split
    · exact ⟨h, hd⟩
    · exact ⟨h, hd⟩
  | store i =>
    refine ⟨h.storeMessage hs, ?_⟩
    obtain ⟨⟨m, enforce⟩, -, rfl⟩ := Option.map_eq_some_iff.mp hs
    dsimp only
    split <;> exact hd
  | count i | test i | «return» i =>
    obtain ⟨m, -, rfl⟩ := Option.map_eq_some_iff.mp hs
    exact ⟨h, hd⟩
  | tx result throws =>
    obtain ⟨hmoved, hkept⟩ := runTx_moved hs
    exact ⟨h.moved hsound hdown hmoved, hkept.state ▸ hd⟩
  | establish => exact absurd rfl ha
  | txDisable | txEnable =>
    obtain rfl := Option.some.inj hs
    exact ⟨h, hd⟩
  | handleWakeup | rxWantWrite | closeBegin =>
    dsimp only at hs
    split at hs
    all_goals cases hs
    all_goals exact ⟨h, hd⟩
  | closeEnd =>
    dsimp only at hs
    split at hs
    all_goals cases hs
    exact ⟨h, rfl⟩
  | openWith state =>
    dsimp only at hs
    split at hs
    next hstate =>
      cases hs
      exact ⟨h, SockState.not_tcpUp_of_opening hstate.2⟩
    · cases hs
  | tls state =>
    dsimp only at hs
    split at hs
    next hmove =>
      rw [(SockState.tcpUp_of_tlsMove hmove).1] at hd
      cases hd
    · cases hs
  | handleWriteEvent =>
    dsimp only at hs
    split at hs
    · split at hs
      all_goals
        cases hs
        exact ⟨h, hd⟩
    · cases hs

/-- **What `close()` leaves unsent is never dropped**: it is there when the
next connection is established, however the socket is opened again. -/
theorem leftover_survives {t u : Tx} {as : List Act} (h : Leftover s) (hsound : Sound s)
    (hd : s.state.tcpUp = false) (hfits : ∀ a ∈ as, fitsBuffer a) (hconn : ∀ a ∈ as, a ≠ .establish)
    (hrun : Runs.run step s as = some t) (hest : t.step .establish = some u) : ¬ Drained u := by
  have hok : Runs.Meets step (fun _ a => fitsBuffer a ∧ a ≠ .establish) s as :=
    Runs.meets_of_forall fun a ha => ⟨hfits a ha, hconn a ha⟩
  have hleft := (Runs.invariant_of_meets
    (I := fun s => Leftover s ∧ Sound s ∧ s.state.tcpUp = false)
    (fun s a s' hI hok hs =>
      have hnext := hI.1.step hI.2.1 hI.2.2 hok.2 hs
      ⟨hnext.1, hI.2.1.step hok.1 hok.2 hs, hnext.2⟩) ⟨h, hsound, hd⟩ hok hrun).1
  unfold Tx.step at hest
  dsimp only at hest
  split at hest
  · obtain rfl := Option.some.inj hest
    intro hdrained
    rcases hleft with ⟨q, hq⟩ | hb
    · exact hq (hdrained.queues q)
    · exact hb hdrained.buffer
  · cases hest

end Tx
end RoflCommon
