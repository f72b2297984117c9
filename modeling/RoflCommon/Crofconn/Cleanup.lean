/-
What the state of a connection object says of the rest of it.

On the way up it says what it should: an object in `STATE_NEGOTIATING2` or
`STATE_ESTABLISHED` has exchanged HELLOs and settled on a version of both
sides. On the way down it depends on the way. `STATE_NEGOTIATION_FAILED` and
`STATE_CLOSING` fall through to `STATE_DISCONNECTED` and its clean-up; the
refused and failed attempts set `STATE_DISCONNECTED` themselves and leave
everything else as it is, and an object that is in `STATE_DISCONNECTED` is
not cleaned up again.
-/
import RoflCommon.Crofconn.Events

namespace RoflCommon
namespace Crofconn

/-- A version both sides have is chosen, and both HELLOs are exchanged. -/
structure Agreed (c : Crofconn) : Prop where
  version : c.ofpVersion ≠ Openflow.OFP_VERSION_UNKNOWN
  own : c.versionbitmap.test c.ofpVersion.toNat = true
  peer : c.versionbitmapPeer.test c.ofpVersion.toNat = true
  sent : c.flagHelloSent = true
  rcvd : c.flagHelloRcvd = true

/-- Established means negotiated. -/
def Negotiated (c : Crofconn) : Prop := c.state = .negotiating2 ∨ c.state = .established → Agreed c

/-- The invariant: also, the versions configured are octets. -/
structure Sound (c : Crofconn) : Prop where
  octets : c.versionbitmap.Octets
  negotiated : Negotiated c

/-! ## The way up -/

/-- Entering a state keeps the invariant where what the state says is there
already. -/
theorem Sound.enter {c : Crofconn} (h : Sound c) {s : ConnState}
    (hs : s = .negotiating2 ∨ s = .established → Agreed c) : Sound (runFiniteStateMachine s c).1 := by
  refine ⟨by rw [(runFiniteStateMachine_keeps s c).own]; exact h.octets, fun hstate => ?_⟩
  by_cases hself : c.state = s
  · rw [runFiniteStateMachine_of_eq hself] at hstate ⊢
    exact h.negotiated hstate
  · rw [runFiniteStateMachine_state, if_neg hself] at hstate
    rw [runFiniteStateMachine_of_ne hself]
    rcases hstate with hs' | hs'
    · obtain rfl : s = .negotiating2 := by cases s <;> first | rfl | cases hs'
      have hc := hs (.inl rfl)
      exact ⟨hc.version, hc.own, hc.peer, hc.sent, hc.rcvd⟩
    · obtain rfl : s = .established := by cases s <;> first | rfl | cases hs'
      have hc := hs (.inr rfl)
      exact ⟨hc.version, hc.own, hc.peer, hc.sent, hc.rcvd⟩

theorem Sound.moveOn {c : Crofconn} (h : Sound c) (hversion : c.ofpVersion ≠ Openflow.OFP_VERSION_UNKNOWN → Agreed c) :
    Sound (moveOn c).1 := by
  unfold Crofconn.moveOn
  split
  case isTrue => exact h.enter (by simp)
  case isFalse hv =>
    have hagreed := hversion hv
    split
    · split <;> exact h.enter fun _ => hagreed
    · exact h.enter fun _ => hagreed
    · exact h.enter (by simp)

theorem Sound.helloRcvd {c : Crofconn} (h : Sound c) (hs : HandlesHello c.state) (msg : CofmsgHello) :
    Sound (helloRcvd msg c).1 := by
  have hoct : (c.atSelection msg).versionbitmap.Octets := by rw [Reconnect.atSelection_own]; exact h.octets
  have hstate : HandlesHello (c.atSelection msg).state := by rwa [Reconnect.atSelection_state]
  have hsent : (c.atSelection msg).flagHelloSent = true := by
    unfold atSelection sendHelloMessage
    split
    case isTrue hsent => exact hsent
    case isFalse => rfl
  have hrcvd : (c.atSelection msg).flagHelloRcvd = true := rfl
  rw [helloRcvd_eq]
  generalize c.atSelection msg = d at *
  have hnone : ∀ s, s = .negotiating2 ∨ s = .established → d.state ≠ s := by
    rintro s (rfl | rfl) <;> rcases hstate with hd | hd | hd <;> simp [hd]
  have hquiet : ∀ v, Negotiated { d with ofpVersion := v } := by
    rintro v (hd | hd)
    · exact absurd hd (hnone _ (.inl rfl))
    · exact absurd hd (hnone _ (.inr rfl))
  unfold selectVersion
  dsimp only
  split
  case isTrue => exact Sound.enter ⟨hoct, hquiet d.ofpVersion⟩ (by simp)
  case isFalse hv =>
    -- the version chosen is in both sets
    have hmem := Versionbitmap.test_getHighestOfpVersion (hoct.and d.versionbitmapPeer) hv
    simp only [Versionbitmap.test_and, Bool.and_eq_true] at hmem
    exact Sound.moveOn ⟨hoct, hquiet _⟩ fun hver => ⟨hver, hmem.1, hmem.2, hsent, hrcvd⟩

theorem Sound.errorRcvd {c : Crofconn} (h : Sound c) (errType : UInt16) : Sound (errorRcvd errType c).1 := by
  have hfailed : Sound (runFiniteStateMachine .negotiationFailed c).1 := h.enter (by simp)
  unfold Crofconn.errorRcvd
  simp only [seq, effect]
  split
  · split <;> assumption
  · split <;> assumption
  · exact h

theorem Sound.helloExpired {c : Crofconn} (h : Sound c) : Sound (helloExpired c).1 := by
  unfold Crofconn.helloExpired
  split
  · exact h
  · split
    · exact h
    · exact h.enter (by simp)

end Crofconn

namespace Conn

open Crofconn

theorem fsm_store (m : Msg) (c : Conn) : (c.store m).fsm = c.fsm := rfl

theorem sound_handleRecv {c : Conn} (h : Sound c.fsm) (m : Msg) : Sound (c.handleRecv m).fsm := by
  unfold handleRecv
  split
  case h_1 hs | h_2 hs | h_3 hs =>
    have hello : HandlesHello c.fsm.state := by simp [HandlesHello, hs]
    split
    · exact h
    · split
      · rw [fsm_perform]
        exact h.helloRcvd hello _
      · rw [fsm_perform]
        exact h.errorRcvd _
      · exact h
  case h_4 hs =>
    split
    · exact h
    · split
      · rw [fsm_perform]
        exact h.enter fun _ => h.negotiated (.inl hs)
      · rw [fsm_perform]
        exact h.errorRcvd _
      · exact h
      · rwa [fsm_store]
  case h_5 =>
    split
    · exact h
    · split
      · exact h
      · rwa [fsm_perform]
      · rwa [fsm_store]
  case h_6 => exact h

theorem sound_handleTimeout {c : Conn} (h : Sound c.fsm) (congested : Bool) (expired : UInt32 → Bool)
    (t : TimerId) : Sound (c.handleTimeout congested expired t).fsm := by
  cases t with
  | needLifeCheck =>
    simp only [handleTimeout, fsm_perform, sendEchoRequest]
    split <;> exact h
  | waitForHello =>
    simp only [handleTimeout, fsm_perform]
    exact h.helloExpired
  | waitForEcho =>
    simp only [handleTimeout, fsm_perform]
    have hclosed : Sound (runFiniteStateMachine .closing c.fsm).1 := h.enter (by simp)
    exact hclosed.enter (by simp)
  | waitForFeatures =>
    simp only [handleTimeout, fsm_perform]
    exact h.enter (by simp)
  | pendingRequests => exact h
  | pendingSegments => exact h

theorem sound_attempt {c : Conn} (h : Sound c.fsm) {pending : ConnState} (rofsock : Effect)
    (hpending : pending = .connectPending ∨ pending = .acceptPending) (own : Reconnect.OwnVersions)
    (mode : Mode) : Sound (c.attempt (openWith pending rofsock own.1 mode)).fsm := by
  unfold attempt
  split
  case h_1 => exact h
  case h_2 r hr =>
    rw [show (c.after r).fsm = r.1 from foldl_act_fsm _ _]
    refine ⟨(Reconnect.openWith_keeps hr).1 ▸ own.2, fun hs => ?_⟩
    rw [openWith_state (by rcases hpending with rfl | rfl <;> rfl) hr] at hs
    rcases hpending with rfl | rfl <;> simp at hs

theorem sound_step {c c' : Conn} {e : Event} (h : Sound c.fsm) (hstep : c.step e = some c') : Sound c'.fsm := by
  cases e with
  | tcpConnect own mode =>
    obtain rfl := Option.some.inj hstep
    exact sound_attempt h _ (.inl rfl) own mode
  | tcpAccept own mode =>
    obtain rfl := Option.some.inj hstep
    exact sound_attempt h _ (.inr rfl) own mode
  | close =>
    obtain rfl := Option.some.inj hstep
    rw [fsm_perform]
    exact h.enter (by simp)
  | notify n =>
    obtain rfl := Option.some.inj hstep
    rw [fsm_perform]
    exact h.enter (by cases n <;> simp [Notification.newState])
  | recv m =>
    obtain rfl := Option.some.inj hstep
    exact sound_handleRecv h m
  | expire t congested expired =>
    obtain ⟨-, hstep⟩ := Option.ite_none_right_eq_some.mp hstep
    obtain rfl := Option.some.inj hstep
    exact sound_handleTimeout (c := c.dropTimer t) h congested expired t
  | request xid type first | segment xid | complete xid =>
    obtain rfl := Option.some.inj hstep
    exact h
  | rxMessages =>
    obtain ⟨-, hstep⟩ := Option.ite_none_left_eq_some.mp hstep
    obtain rfl := Option.some.inj hstep
    exact h
  | rxDone | rxLeave | rxEscape =>
    obtain ⟨-, hstep⟩ := Option.ite_none_right_eq_some.mp hstep
    obtain rfl := Option.some.inj hstep
    exact h

theorem sound_new (xidHello xidFeatures : UInt32) : Sound (new xidHello xidFeatures).fsm :=
  ⟨fun v hv => by simp [new, Crofconn.new] at hv, fun h => by simp [new, Crofconn.new] at h⟩

theorem sound_after_run {xidHello xidFeatures : UInt32} {es : List Event} {c : Conn}
    (hrun : Runs.run step (new xidHello xidFeatures) es = some c) : Sound c.fsm :=
  Runs.invariant (I := fun c => Sound c.fsm) (fun _ _ _ h hstep => sound_step h hstep) (sound_new _ _) hrun

/-! ## The way down -/

/-- The states that stand for the end of an attempt or of a connection. -/
def Terminal (s : ConnState) : Prop :=
  s ∈ [.negotiationFailed, .closing, .disconnected, .connectFailed, .connectRefused, .acceptFailed, .acceptRefused]

instance (s : ConnState) : Decidable (Terminal s) := inferInstanceAs (Decidable (_ ∈ _))

/-- Nothing is left of a connection but, perhaps, its state. -/
structure Idle (c : Conn) : Prop where
  version : c.fsm.ofpVersion = Openflow.OFP_VERSION_UNKNOWN
  sent : c.fsm.flagHelloSent = false
  rcvd : c.fsm.flagHelloRcvd = false
  requests : c.pendingRequests = []
  segments : c.pendingSegments = []
  timers : ∀ t, c.armed t = false

/-- Fully disconnected: the next attempt to connect will send a HELLO. -/
structure FullyDisconnected (c : Conn) : Prop extends Idle c where
  state : c.fsm.state = .disconnected
  newHello : ∀ own mode r, Crofconn.tcpConnect own mode c.fsm = some r →
    ∃ m, .sendMessage (.hello m) ∈ (runFiniteStateMachine .negotiating r.1).2

/-- The way leads through the clean-up, or there is nothing to clean up. -/
def CleansUp (s : ConnState) (c : Conn) : Prop :=
  (s = .negotiationFailed ∨ s = .closing ∨ s = .disconnected) ∧ c.fsm.state ≠ s ∨
    Idle c ∧ (c.fsm.state ≠ s ∨ s = .disconnected)

theorem hello_sent {c : Crofconn} (hs : c.state ≠ .negotiating) (hsent : c.flagHelloSent = false) :
    .sendMessage (.hello c.helloMessage) ∈ (runFiniteStateMachine .negotiating c).2 := by
  rw [runFiniteStateMachine_of_ne hs]
  cases hrcvd : c.flagHelloRcvd <;>
    simp [caseOps, execAll, seq, FsmOp.exec, assign, sendHelloMessage, hrcvd, hsent, helloMessage]

/-- Opening a connection that is disconnected leaves the flag alone. -/
theorem tcpConnect_flagHelloSent {own : Versionbitmap} {mode : Mode} {c : Crofconn} {r : Crofconn × List Effect}
    (hs : c.state = .disconnected) (h : tcpConnect own mode c = some r) : r.1.flagHelloSent = c.flagHelloSent := by
  obtain ⟨d, hd, rfl⟩ := Option.map_eq_some_iff.mp h
  unfold setVersionbitmap at hd
  split at hd
  case isTrue => cases hd
  case isFalse =>
    obtain rfl := Option.some.inj hd
    have hne : ({ c with versionbitmap := own, mode := mode } : Crofconn).state ≠ .connectPending := by simp [hs]
    simp only [seq, assign, runFiniteStateMachine_of_ne hne]
    rfl

theorem FullyDisconnected.of_idle {c : Conn} (h : Idle c) (hs : c.fsm.state = .disconnected) :
    FullyDisconnected c := by
  refine ⟨h, hs, fun own mode r hr => ⟨_, hello_sent ?_ ?_⟩⟩
  · rw [openWith_state rfl hr]
    simp
  · rw [tcpConnect_flagHelloSent hs hr, h.sent]

/-- `case STATE_DISCONNECTED` leaves nothing, wherever it is reached from. -/
theorem idle_perform_disconnectedOps (c : Conn) : Idle (c.perform (execAll disconnectedOps)) := by
  refine ⟨rfl, rfl, rfl, rfl, rfl, fun t => ?_⟩
  cases t <;> rfl

theorem perform_execAll_append (ops ops' : List FsmOp) (c : Conn) :
    c.perform (execAll (ops ++ ops')) = (c.perform (execAll ops)).perform (execAll ops') := by
  induction ops generalizing c with
  | nil => rfl
  | cons op ops ih => rw [List.cons_append, perform_execAll_cons, ih, perform_execAll_cons]

/-- Callbacks change nothing of the object. -/
theorem perform_callback (s : ConnState) (c : Conn) : c.perform (FsmOp.exec (.callback s)) = c := rfl

theorem idle_enter {c : Conn} {s : ConnState} (hs : s = .negotiationFailed ∨ s = .closing ∨ s = .disconnected)
    (hne : c.fsm.state ≠ s) : Idle (c.perform (runFiniteStateMachine s)) := by
  rw [enter_other hne]
  -- each of the three lists is the clean-up with something before and callbacks after it
  have hlist : ∃ before calls : List FsmOp, FsmOp.setState s :: caseOps s = before ++ disconnectedOps ++ calls ∧
      ∀ op ∈ calls, ∃ t, op = .callback t := by
    rcases hs with rfl | rfl | rfl
    · exact ⟨[.setState .negotiationFailed, .setState .closing, .rofsockClose, .setState .disconnected],
        [.callback .negotiationFailed, .callback .disconnected], rfl, by simp⟩
    · exact ⟨[.setState .closing, .rofsockClose, .setState .disconnected], [.callback .disconnected], rfl, by simp⟩
    · exact ⟨[.setState .disconnected], [.callback .disconnected], rfl, by simp⟩
  obtain ⟨before, calls, heq, hcalls⟩ := hlist
  rw [heq, perform_execAll_append, perform_execAll_append]
  have hidle := idle_perform_disconnectedOps (c.perform (execAll before))
  generalize (c.perform (execAll before)).perform (execAll disconnectedOps) = d at hidle
  clear heq
  induction calls with
  | nil => exact hidle
  | cons op calls ih =>
    obtain ⟨t, rfl⟩ := hcalls op (by simp)
    rw [perform_execAll_cons, perform_callback]
    exact ih fun op hop => hcalls op (by simp [hop])

/-- The refused and failed attempts: the state is all that changes. -/
theorem perform_attemptOver {c : Conn} {s : ConnState} (hs : settled s = .disconnected)
    (hno : ¬ (s = .negotiationFailed ∨ s = .closing ∨ s = .disconnected)) (hne : c.fsm.state ≠ s) :
    c.perform (runFiniteStateMachine s) = { c with fsm := { c.fsm with state := .disconnected } } := by
  rw [enter_other hne]
  cases s with
  | negotiationFailed | closing | disconnected => simp at hno
  | connectRefused | connectFailed | acceptRefused | acceptFailed => rfl
  | connectPending | acceptPending | negotiating | negotiating2 | established => cases hs

theorem Terminal.settled {s : ConnState} (h : Terminal s) : settled s = .disconnected := by
  simp only [Terminal, List.mem_cons, List.not_mem_nil, or_false] at h
  rcases h with rfl | rfl | rfl | rfl | rfl | rfl | rfl <;> rfl

/-- One call of the state machine, on any object. -/
theorem fullyDisconnected_iff (c : Conn) {s : ConnState} (hs : Terminal s) :
    FullyDisconnected (c.perform (runFiniteStateMachine s)) ↔ CleansUp s c := by
  by_cases hne : c.fsm.state = s
  · -- the machine returns at once
    rw [enter_self hne]
    simp only [CleansUp, hne, ne_eq, not_true_eq_false, and_false, false_or]
    constructor
    · intro h
      exact ⟨h.toIdle, hne.symm.trans h.state⟩
    · rintro ⟨hidle, rfl⟩
      exact .of_idle hidle hne
  · have hstate : (c.perform (runFiniteStateMachine s)).fsm.state = .disconnected := by
      rw [fsm_perform, runFiniteStateMachine_state, if_neg hne, hs.settled]
    simp only [CleansUp, ne_eq, hne, not_false_eq_true, and_true, true_or]
    by_cases hdown : s = .negotiationFailed ∨ s = .closing ∨ s = .disconnected
    · exact ⟨fun _ => .inl hdown, fun _ => .of_idle (idle_enter hdown hne) hstate⟩
    · simp only [hdown, false_or]
      have hover := perform_attemptOver hs.settled hdown hne
      constructor
      · intro h
        rw [hover] at h
        exact ⟨h.version, h.sent, h.rcvd, h.requests, h.segments, h.timers⟩
      · intro h
        refine .of_idle ?_ hstate
        rw [hover]
        exact ⟨h.version, h.sent, h.rcvd, h.requests, h.segments, h.timers⟩

/-- **Established means negotiated**, in every state an object reaches; and a
call of the state machine that ends an attempt or a connection leaves the
object fully disconnected exactly if its way leads through the clean-up or
nothing is left to clean up. -/
theorem established_and_disconnected {xidHello xidFeatures : UInt32} {es : List Event} {c : Conn}
    (hrun : Runs.run step (new xidHello xidFeatures) es = some c) :
    Negotiated c.fsm ∧ ∀ (d : Conn) (s : ConnState), Terminal s →
      (FullyDisconnected (d.perform (runFiniteStateMachine s)) ↔ CleansUp s d) :=
  ⟨(sound_after_run hrun).negotiated, fun d _ hs => fullyDisconnected_iff d hs⟩

/-- A connection that is established and then closed. -/
theorem established_and_disconnected_once : ∃ c : Conn, c.fsm.state = .established ∧ Negotiated c.fsm ∧
    FullyDisconnected (c.perform (runFiniteStateMachine .closing)) := by
  obtain ⟨c, hrun, hs⟩ : ∃ c, Runs.run step (new 0 0) [.tcpConnect Reconnect.lowVersions .datapath,
      .notify .tcpConnected, .recv (.hello ⟨Openflow10.OFP_VERSION, 0, none⟩)] = some c ∧
      c.fsm.state = .established := ⟨_, rfl, by decide⟩
  have h := established_and_disconnected hrun
  exact ⟨c, hs, h.1, (h.2 c .closing (by decide)).mpr (.inl ⟨by simp, by simp [hs]⟩)⟩

/-- A second attempt on an established connection is refused: the flags, a
request and a timer stay, and no HELLO would be sent on the next connection. -/
theorem refused_not_disconnected : ∃ c c', Runs.run step (new 0 0) [.tcpConnect Reconnect.lowVersions .datapath,
      .notify .tcpConnected, .recv (.hello ⟨Openflow10.OFP_VERSION, 0, none⟩), .request 7 18 true,
      .tcpConnect Reconnect.lowVersions .datapath] = some c ∧
    c' = c.perform (runFiniteStateMachine .connectRefused) ∧ c'.fsm.state = .disconnected ∧
    c'.fsm.flagHelloSent = true ∧ c'.fsm.flagHelloRcvd = true ∧ c'.pendingRequests = [(7, 18)] ∧
    c'.armed .needLifeCheck = true ∧ ¬ FullyDisconnected c' := by
  refine ⟨_, _, rfl, rfl, by decide, by decide, by decide, by decide, by decide, fun h => ?_⟩
  have hsent := h.sent
  revert hsent
  decide

end Conn
end RoflCommon
