/-
A connection object and its socket: what opens a TCP connection, what closes
it, and what opens it again.

The socket reconnects on its own. When an attempt fails, or an active
connection is lost, `backoff_reconnect` arms `TIMER_ID_RECONNECT` on the RX
thread, and the timer calls `tcp_connect` or `tls_connect` again. The only
timer `crofsock::close` drops is one of the same name on the TX thread, where
none is ever armed, and it does so in `STATE_TCP_CONNECTING` alone. So a
connection that is closed stays closed exactly if no reconnect is scheduled
(`closed_stays_iff`).

What the system calls and OpenSSL answer is chosen from outside
(`ConnectResult`, `Handshake`), and so is the moment at which the timers expire. The call of
`handle_tcp_connect_refused` or `handle_tcp_connect_failed` is an event of its
own, since the application may open or close the connection in its callback
before `backoff_reconnect` is reached. `opened` counts the calls that open a
TCP connection and is no variable of the class.
-/
import RoflCommon.Crofconn.Opening
import RoflCommon.Crofsock.Recv

namespace RoflCommon

/-- The variables of `crofsock` that decide over a reconnect. -/
structure Sock where
  state : SockState
  reconnectOnFailure : Bool
  tlsInUse : Bool
  /-- `TIMER_ID_RECONNECT` on the RX thread. -/
  timerRx : Bool
  /-- `TIMER_ID_RECONNECT` on the TX thread. -/
  timerTx : Bool
  reconnectBackoffMax : Nat
  reconnectBackoffStart : Nat
  reconnectBackoffCurrent : Nat
  reconnectCounter : Nat
  opened : Nat
deriving DecidableEq, Repr

namespace Sock

def new : Sock where
  state := .idle
  reconnectOnFailure := false
  tlsInUse := false
  timerRx := false
  timerTx := false
  reconnectBackoffMax := 60
  reconnectBackoffStart := 1
  reconnectBackoffCurrent := 1
  reconnectCounter := 0
  opened := 0

def close (s : Sock) : Sock :=
  match s.state with
  | .tlsConnecting | .tlsAccepting | .tlsEstablished => { s with tlsInUse := false, state := .idle }
  | .tcpConnecting => { s with timerTx := false, state := .idle }
  | _ => { s with state := .idle }

def backoffReconnect (resetTimeout : Bool) (s : Sock) : Sock :=
  if s.timerRx then s
  else if resetTimeout then { s with
    reconnectBackoffCurrent := s.reconnectBackoffStart, timerRx := true, reconnectCounter := 1 }
  else { s with
    reconnectBackoffCurrent :=
      if s.reconnectBackoffCurrent ≥ s.reconnectBackoffMax then s.reconnectBackoffMax
      else s.reconnectBackoffCurrent * 2
    timerRx := true
    reconnectCounter := s.reconnectCounter + 1 }

end Sock

/-- What comes of `::connect()`: `throws` stands for a failure of one of the
other system calls. -/
inductive ConnectResult
  | inProgress | connected | refused | failed | throws
deriving DecidableEq, Repr

/-- What comes of the TLS handshake; `throws` stands for a failure of
`tls_init_context`, before it begins. -/
inductive Handshake
  | pending | succeeded | failed | noCertificate | throws
deriving DecidableEq, Repr

open Crofconn

/-- The code an event makes the object run. -/
def Event.code (c : Conn) : Event → Code
  | .recv m => Opening.recv m
  | .expire .needLifeCheck congested _ => sendEchoRequest (congested || c.hasPendingBarrierRequest)
  | .expire .waitForHello _ _ => helloExpired
  | .expire .waitForEcho _ _ => echoRequestExpired
  | .expire .waitForFeatures _ _ => featuresRequestExpired
  | _ => Opening.skip

/-- The events that come neither from the application's opening and closing
nor from the socket. -/
def Event.inner : Event → Bool
  | .tcpConnect _ _ | .tcpAccept _ _ | .close | .notify _ => false
  | _ => true

/-- A connection object, its socket, and the number of callbacks of
`tcp_connect` that have not returned. -/
structure Endpoint where
  conn : Conn
  sock : Sock
  handlers : Nat

namespace Endpoint

def new (xidHello xidFeaturesRequest : UInt32) : Endpoint := ⟨.new xidHello xidFeaturesRequest, .new, 0⟩

/-- The object runs a piece of code, which may close the socket. -/
def perform (code : Code) (t : Endpoint) : Endpoint := { t with
  conn := t.conn.perform code
  sock := if .rofsockClose ∈ (code t.conn.fsm).2 then t.sock.close else t.sock }

def notify (n : Notification) (t : Endpoint) : Endpoint := t.perform (runFiniteStateMachine n.newState)

def setSock (f : Sock → Sock) (t : Endpoint) : Endpoint := { t with sock := f t.sock }

/-! ## The functions of `crofsock` -/

/-- `tls_connect` in `STATE_TLS_CONNECTING`, `tls_accept` in
`STATE_TLS_ACCEPTING`. -/
def handshake (passive : Bool) (h : Handshake) (t : Endpoint) : Endpoint :=
  let failed : Notification := if passive then .tlsAcceptFailed else .tlsConnectFailed
  match h with
  | .pending | .throws => t
  | .succeeded =>
    (t.setSock fun s => { s with state := .tlsEstablished }).notify (if passive then .tlsAccepted else .tlsConnected)
  | .failed => (t.setSock Sock.close).notify failed
  -- `tls_verify_ok` has closed the socket and notified before it returns
  | .noCertificate => (((t.setSock Sock.close).notify .tcpAcceptRefused).setSock Sock.close).notify failed

/-- The same in `STATE_TCP_ESTABLISHED`. -/
def startTls (passive : Bool) (h : Handshake) (t : Endpoint) : Endpoint :=
  if h = .throws then t
  else (t.setSock fun s => { s with state := if passive then .tlsAccepting else .tlsConnecting }).handshake passive h

/-- The TCP connection is there. -/
def established (passive : Bool) (h : Handshake) (t : Endpoint) : Endpoint :=
  let t := t.setSock fun s => { s with state := .tcpEstablished }
  if t.sock.tlsInUse then t.startTls passive h
  else t.notify (if passive then .tcpAccepted else .tcpConnected)

/-- What `::connect()` or, later, the socket option `SO_ERROR` says. -/
def onConnect (o : ConnectResult) (h : Handshake) (t : Endpoint) : Endpoint :=
  match o with
  | .inProgress | .throws => t
  | .connected => t.established false h
  | .refused => { (t.setSock Sock.close).notify .tcpConnectRefused with handlers := t.handlers + 1 }
  | .failed => { (t.setSock Sock.close).notify .tcpConnectFailed with handlers := t.handlers + 1 }

/-- What `tcp_connect` and `tcp_accept` begin with. -/
def reopen (reconnect : Bool) (state : SockState) (s : Sock) : Sock :=
  let s := if s.state = .idle then s else s.close
  { s with timerRx := false, reconnectOnFailure := reconnect, state := state, opened := s.opened + 1 }

def tcpConnect (reconnect : Bool) (o : ConnectResult) (h : Handshake) (t : Endpoint) : Endpoint :=
  (t.setSock (reopen reconnect .tcpConnecting)).onConnect o h

def tlsConnect (reconnect : Bool) (o : ConnectResult) (h : Handshake) (t : Endpoint) : Endpoint :=
  match t.sock.state with
  | .idle | .tcpConnecting => (t.setSock fun s => { s with tlsInUse := true }).tcpConnect reconnect o h
  | .tcpEstablished => t.startTls false h
  | .tlsConnecting => t.handshake false h
  -- in `STATE_TLS_ESTABLISHED` nothing, else an exception
  | _ => t

/-- `accepted` says that no system call fails. -/
def tcpAccept (accepted : Bool) (h : Handshake) (t : Endpoint) : Endpoint :=
  let t := t.setSock (reopen false .tcpAccepting)
  if accepted then t.established true h else t

def tlsAccept (accepted : Bool) (h : Handshake) (t : Endpoint) : Endpoint :=
  match t.sock.state with
  | .idle | .tcpAccepting => (t.setSock fun s => { s with tlsInUse := true }).tcpAccept accepted h
  | .tcpEstablished => t.startTls true h
  | .tlsAccepting => t.handshake true h
  | _ => t

/-- `on_error` in `recv_message`: the peer has shut down, or the stream is
out of sync. -/
def onError (t : Endpoint) : Endpoint :=
  (t.setSock fun s => if s.reconnectOnFailure then s.close.backoffReconnect true else s.close).notify .closed

/-- A function of `crofconn` that opens the socket, unless `set_versionbitmap`
throws. -/
def opens (code : Crofconn → Option (Crofconn × List Effect)) (rofsock : Endpoint → Endpoint) (t : Endpoint) :
    Endpoint :=
  match code t.conn.fsm with
  | none => t
  | some r => rofsock { t with conn := t.conn.after r }

end Endpoint

/-- What the application, the socket and the object itself do. -/
inductive Act
  | tcpConnect (own : Reconnect.OwnVersions) (mode : Mode) (reconnect : Bool) (o : ConnectResult) (h : Handshake)
  | tlsConnect (own : Reconnect.OwnVersions) (mode : Mode) (reconnect : Bool) (o : ConnectResult) (h : Handshake)
  | tcpAccept (own : Reconnect.OwnVersions) (mode : Mode) (accepted : Bool) (h : Handshake)
  | tlsAccept (own : Reconnect.OwnVersions) (mode : Mode) (accepted : Bool) (h : Handshake)
  | close
  /-- The callback of a refused or failed `tcp_connect` returns. -/
  | returned
  /-- The RX thread looks how the connect has fared. -/
  | connecting (o : ConnectResult) (h : Handshake)
  /-- The RX thread goes on with the handshake. -/
  | handshake (h : Handshake)
  | lost
  /-- `TIMER_ID_RECONNECT` expires. -/
  | reconnect (o : ConnectResult) (h : Handshake)
  | conn (e : Event)

/-- The application opens the connection. -/
def Act.opens : Act → Bool
  | .tcpConnect .. | .tlsConnect .. | .tcpAccept .. | .tlsAccept .. => true
  | _ => false

namespace Endpoint

def step (t : Endpoint) : Act → Option Endpoint
  | .tcpConnect own mode reconnect o h => some (t.opens (Crofconn.tcpConnect own.1 mode) (tcpConnect reconnect o h))
  | .tlsConnect own mode reconnect o h => some (t.opens (Crofconn.tcpConnect own.1 mode) (tlsConnect reconnect o h))
  | .tcpAccept own mode accepted h => some (t.opens (Crofconn.tcpAccept own.1 mode) (tcpAccept accepted h))
  | .tlsAccept own mode accepted h => some (t.opens (Crofconn.tcpAccept own.1 mode) (tlsAccept accepted h))
  | .close => some (t.perform (runFiniteStateMachine .closing))
  | .returned =>
    if t.handlers = 0 then none
    else some { t with
      handlers := t.handlers - 1
      sock := if t.sock.reconnectOnFailure then t.sock.backoffReconnect false else t.sock }
  | .connecting o h => if t.sock.state = .tcpConnecting then some (t.onConnect o h) else none
  | .handshake h =>
    match t.sock.state with
    | .tlsConnecting => some (t.handshake false h)
    | .tlsAccepting => some (t.handshake true h)
    | _ => none
  | .lost => if t.sock.state.established then some t.onError else none
  | .reconnect o h =>
    if t.sock.timerRx then
      let t := t.setSock fun s => { s with timerRx := false }
      some (if t.sock.tlsInUse then t.tlsConnect true o h else t.tcpConnect true o h)
    else none
  | .conn e =>
    if e.inner then (t.conn.step e).map fun c => { t with
      conn := c
      sock := if .rofsockClose ∈ (e.code t.conn t.conn.fsm).2 then t.sock.close else t.sock }
    else none

/-- Until the application opens the connection again, no TCP connection is
opened and the object stays in `STATE_DISCONNECTED`. -/
def StaysClosed (t : Endpoint) : Prop :=
  ∀ as t', (∀ a ∈ as, a.opens = false) → Runs.run step t as = some t' →
    t'.conn.fsm.state = .disconnected ∧ t'.sock.opened = t.sock.opened

/-! ## The object between two events -/

/-- The state machine is at rest. -/
def Rests (c : Crofconn) : Prop := settled c.state = c.state

theorem rests_run {c : Crofconn} (h : Rests c) (s : ConnState) : Rests (runFiniteStateMachine s c).1 := by
  unfold Rests
  rw [runFiniteStateMachine_state]
  split
  case isTrue hs => exact hs ▸ h
  case isFalse => cases s <;> rfl

theorem rests_moveOn {c : Crofconn} (h : Rests c) : Rests (moveOn c).1 := by
  rw [Opening.moveOn_eq]
  exact rests_run h _

theorem rests_helloRcvd {c : Crofconn} (h : Rests c) (msg : CofmsgHello) : Rests (helloRcvd msg c).1 := by
  have hd : Rests (c.atSelection msg) := by
    unfold Rests
    rw [Reconnect.atSelection_state]
    exact h
  rw [helloRcvd_eq]
  unfold selectVersion
  dsimp only
  split
  · exact rests_run hd .negotiationFailed
  · exact rests_moveOn hd

theorem rests_errorRcvd {c : Crofconn} (h : Rests c) (errType : UInt16) : Rests (errorRcvd errType c).1 := by
  have hfailed := rests_run h .negotiationFailed
  simp only [errorRcvd, seq, effect]
  split
  · split <;> assumption
  · split <;> assumption
  · exact h

theorem rests_recv {c : Crofconn} (h : Rests c) (m : Msg) : Rests (Opening.recv m c).1 := by
  unfold Opening.recv
  split
  case h_1 | h_2 | h_3 =>
    split
    · exact h
    · split
      · exact rests_helloRcvd h _
      · exact rests_errorRcvd h _
      · exact h
  case h_4 =>
    split
    · exact h
    · split
      · exact rests_run h .established
      · exact rests_errorRcvd h _
      · exact h
  case h_5 => exact h

theorem rests_code {c : Conn} (h : Rests c.fsm) (e : Event) : Rests (e.code c c.fsm).1 := by
  unfold Event.code
  split
  · exact rests_recv h _
  · unfold sendEchoRequest
    split <;> exact h
  · unfold helloExpired
    split
    · exact h
    · split
      · exact h
      · exact rests_run h _
  · exact rests_run (rests_run h .closing) .disconnected
  · exact rests_run h _
  · exact h

/-- An event of the object's own runs its code. -/
theorem fsm_step {c c' : Conn} {e : Event} (he : e.inner = true) (h : c.step e = some c') :
    c'.fsm = (e.code c c.fsm).1 := by
  cases e with
  | tcpConnect own mode | tcpAccept own mode | close | notify n => cases he
  | recv m =>
    obtain rfl := Option.some.inj h
    exact Opening.fsm_handleRecv c m
  | expire t congested expired =>
    obtain ⟨-, h⟩ := Option.ite_none_right_eq_some.mp h
    obtain rfl := Option.some.inj h
    cases t <;> simp only [Conn.handleTimeout, Conn.fsm_perform, Event.code] <;> rfl
  | request xid type first | segment xid | complete xid =>
    obtain rfl := Option.some.inj h
    rfl
  | rxMessages =>
    obtain ⟨-, h⟩ := Option.ite_none_left_eq_some.mp h
    obtain rfl := Option.some.inj h
    rfl
  | rxDone | rxLeave | rxEscape =>
    obtain ⟨-, h⟩ := Option.ite_none_right_eq_some.mp h
    obtain rfl := Option.some.inj h
    rfl

/-- Once disconnected, the object does not move on its own. -/
theorem code_disconnected {c : Conn} (h : c.fsm.state = .disconnected) (e : Event) :
    (e.code c c.fsm).1.state = .disconnected := by
  have hrun : ∀ (d : Crofconn) s, d.state = .disconnected → settled s = .disconnected →
      (runFiniteStateMachine s d).1.state = .disconnected := by
    intro d s hd hs
    rw [runFiniteStateMachine_state]
    split
    case isTrue heq => rw [← heq, hd]
    case isFalse => exact hs
  unfold Event.code
  split
  · simp [Opening.recv, h]
  · unfold sendEchoRequest
    split <;> exact h
  · unfold helloExpired
    split
    · exact h
    · split
      · exact h
      · exact hrun _ _ h rfl
  · exact hrun _ .disconnected (hrun _ .closing h rfl) rfl
  · exact hrun _ _ h rfl
  · exact h

/-! ## The state machine is at rest after every event -/

theorem rests_perform {t : Endpoint} (h : Rests t.conn.fsm) (s : ConnState) :
    Rests (t.perform (runFiniteStateMachine s)).conn.fsm := by
  simp only [perform, Conn.fsm_perform]
  exact rests_run h s

theorem rests_notify {t : Endpoint} (h : Rests t.conn.fsm) (n : Notification) : Rests (t.notify n).conn.fsm :=
  rests_perform h _

theorem rests_handshake {t : Endpoint} (h : Rests t.conn.fsm) (passive : Bool) (r : Handshake) :
    Rests (t.handshake passive r).conn.fsm := by
  cases r with
  | pending | throws => exact h
  | succeeded | failed => exact rests_notify (t := t.setSock _) h _
  | noCertificate =>
    have hrefused := rests_notify (t := t.setSock Sock.close) h .tcpAcceptRefused
    exact rests_notify (t := setSock Sock.close (notify .tcpAcceptRefused (t.setSock Sock.close))) hrefused _

theorem rests_startTls {t : Endpoint} (h : Rests t.conn.fsm) (passive : Bool) (r : Handshake) :
    Rests (t.startTls passive r).conn.fsm := by
  unfold startTls
  split
  · exact h
  · exact rests_handshake (t := t.setSock _) h passive r

theorem rests_established {t : Endpoint} (h : Rests t.conn.fsm) (passive : Bool) (r : Handshake) :
    Rests (t.established passive r).conn.fsm := by
  unfold established
  dsimp only
  split
  · exact rests_startTls (t := t.setSock _) h passive r
  · exact rests_notify (t := t.setSock _) h _

theorem rests_onConnect {t : Endpoint} (h : Rests t.conn.fsm) (o : ConnectResult) (r : Handshake) :
    Rests (t.onConnect o r).conn.fsm := by
  cases o with
  | inProgress | throws => exact h
  | connected => exact rests_established h false r
  | refused | failed => exact rests_notify (t := t.setSock _) h _

theorem rests_tcpConnect {t : Endpoint} (h : Rests t.conn.fsm) (reconnect : Bool) (o : ConnectResult) (r : Handshake) :
    Rests (t.tcpConnect reconnect o r).conn.fsm :=
  rests_onConnect (t := t.setSock _) h o r

theorem rests_tlsConnect {t : Endpoint} (h : Rests t.conn.fsm) (reconnect : Bool) (o : ConnectResult) (r : Handshake) :
    Rests (t.tlsConnect reconnect o r).conn.fsm := by
  unfold tlsConnect
  split
  · exact rests_tcpConnect (t := t.setSock _) h reconnect o r
  · exact rests_tcpConnect (t := t.setSock _) h reconnect o r
  · exact rests_startTls h false r
  · exact rests_handshake h false r
  · exact h

theorem rests_tcpAccept {t : Endpoint} (h : Rests t.conn.fsm) (accepted : Bool) (r : Handshake) :
    Rests (t.tcpAccept accepted r).conn.fsm := by
  unfold tcpAccept
  dsimp only
  split
  · exact rests_established (t := t.setSock _) h true r
  · exact h

theorem rests_tlsAccept {t : Endpoint} (h : Rests t.conn.fsm) (accepted : Bool) (r : Handshake) :
    Rests (t.tlsAccept accepted r).conn.fsm := by
  unfold tlsAccept
  split
  · exact rests_tcpAccept (t := t.setSock _) h accepted r
  · exact rests_tcpAccept (t := t.setSock _) h accepted r
  · exact rests_startTls h true r
  · exact rests_handshake h true r
  · exact h

theorem rests_opens {t : Endpoint} (h : Rests t.conn.fsm) {pending : ConnState} (hpending : settled pending = pending)
    (eff : Effect) (own : Versionbitmap) (mode : Mode) {rofsock : Endpoint → Endpoint}
    (hsock : ∀ u : Endpoint, Rests u.conn.fsm → Rests (rofsock u).conn.fsm) :
    Rests (t.opens (openWith pending eff own mode) rofsock).conn.fsm := by
  unfold opens
  split
  case h_1 => exact h
  case h_2 r hr =>
    refine hsock _ ?_
    unfold Rests
    rw [show (t.conn.after r).fsm = r.1 from Conn.foldl_act_fsm _ _, openWith_state hpending hr, hpending]

theorem rests_step {t t' : Endpoint} {a : Act} (h : Rests t.conn.fsm) (hstep : t.step a = some t') :
    Rests t'.conn.fsm := by
  cases a with
  | tcpConnect own mode reconnect o r =>
    obtain rfl := Option.some.inj hstep
    exact rests_opens h rfl _ _ _ fun u hu => rests_tcpConnect hu reconnect o r
  | tlsConnect own mode reconnect o r =>
    obtain rfl := Option.some.inj hstep
    exact rests_opens h rfl _ _ _ fun u hu => rests_tlsConnect hu reconnect o r
  | tcpAccept own mode accepted r =>
    obtain rfl := Option.some.inj hstep
    exact rests_opens h rfl _ _ _ fun u hu => rests_tcpAccept hu accepted r
  | tlsAccept own mode accepted r =>
    obtain rfl := Option.some.inj hstep
    exact rests_opens h rfl _ _ _ fun u hu => rests_tlsAccept hu accepted r
  | close =>
    obtain rfl := Option.some.inj hstep
    exact rests_perform h _
  | returned =>
    obtain ⟨-, hstep⟩ := Option.ite_none_left_eq_some.mp hstep
    obtain rfl := Option.some.inj hstep
    exact h
  | connecting o r =>
    obtain ⟨-, hstep⟩ := Option.ite_none_right_eq_some.mp hstep
    obtain rfl := Option.some.inj hstep
    exact rests_onConnect h o r
  | handshake r =>
    simp only [step] at hstep
    split at hstep
    · obtain rfl := Option.some.inj hstep
      exact rests_handshake h false r
    · obtain rfl := Option.some.inj hstep
      exact rests_handshake h true r
    · cases hstep
  | lost =>
    obtain ⟨-, hstep⟩ := Option.ite_none_right_eq_some.mp hstep
    obtain rfl := Option.some.inj hstep
    exact rests_notify (t := t.setSock _) h _
  | reconnect o r =>
    obtain ⟨-, hstep⟩ := Option.ite_none_right_eq_some.mp hstep
    obtain rfl := Option.some.inj hstep
    split
    · exact rests_tlsConnect (t := t.setSock _) h true o r
    · exact rests_tcpConnect (t := t.setSock _) h true o r
  | conn e =>
    obtain ⟨he, hstep⟩ := Option.ite_none_right_eq_some.mp hstep
    obtain ⟨c, hc, rfl⟩ := Option.map_eq_some_iff.mp hstep
    rw [fsm_step he hc]
    exact rests_code h e

/-! ## Closed -/

/-- The connection is down and nothing of the socket's own is going to open it
again. -/
structure Shut (t : Endpoint) : Prop where
  conn : t.conn.fsm.state = .disconnected
  sock : t.sock.state = .idle
  timer : t.sock.timerRx = false
  handlers : t.handlers = 0

theorem state_close (s : Sock) : s.close.state = .idle := by
  unfold Sock.close
  split <;> rfl

theorem timerRx_close (s : Sock) : s.close.timerRx = s.timerRx := by
  unfold Sock.close
  split <;> rfl

theorem opened_close (s : Sock) : s.close.opened = s.opened := by
  unfold Sock.close
  split <;> rfl

/-- `close()` of an object at rest. -/
theorem perform_closing {t : Endpoint} (h : Rests t.conn.fsm) :
    (t.perform (runFiniteStateMachine .closing)).conn.fsm.state = .disconnected ∧
      (t.perform (runFiniteStateMachine .closing)).sock = t.sock.close := by
  have hne : t.conn.fsm.state ≠ .closing := by
    intro hs
    rw [Rests, hs] at h
    cases h
  constructor
  · simp only [perform, Conn.fsm_perform]
    rw [runFiniteStateMachine_state, if_neg hne]
    rfl
  · have hmem : .rofsockClose ∈ (runFiniteStateMachine .closing t.conn.fsm).2 := by
      rw [runFiniteStateMachine_of_ne hne]
      simp [caseOps, closingOps, execAll, seq, FsmOp.exec, assign, effect]
    simp only [perform, if_pos hmem]

theorem Shut.step {t t' : Endpoint} {a : Act} (h : Shut t) (ha : a.opens = false) (hstep : t.step a = some t') :
    Shut t' ∧ t'.sock.opened = t.sock.opened := by
  cases a with
  | tcpConnect | tlsConnect | tcpAccept | tlsAccept => cases ha
  | close =>
    obtain rfl := Option.some.inj hstep
    obtain ⟨hconn, hsock⟩ := perform_closing (t := t) (by simp [Rests, h.conn, settled])
    refine ⟨⟨hconn, ?_, ?_, h.handlers⟩, ?_⟩
    · rw [hsock, state_close]
    · rw [hsock, timerRx_close, h.timer]
    · rw [hsock, opened_close]
  | returned =>
    obtain ⟨hhandlers, -⟩ := Option.ite_none_left_eq_some.mp hstep
    exact absurd h.handlers hhandlers
  | connecting o r =>
    obtain ⟨hs, -⟩ := Option.ite_none_right_eq_some.mp hstep
    rw [h.sock] at hs
    cases hs
  | handshake r => simp [Endpoint.step, h.sock] at hstep
  | lost =>
    obtain ⟨hs, -⟩ := Option.ite_none_right_eq_some.mp hstep
    rw [h.sock] at hs
    cases hs
  | reconnect o r =>
    obtain ⟨hs, -⟩ := Option.ite_none_right_eq_some.mp hstep
    rw [h.timer] at hs
    cases hs
  | conn e =>
    obtain ⟨he, hstep⟩ := Option.ite_none_right_eq_some.mp hstep
    obtain ⟨c, hc, rfl⟩ := Option.map_eq_some_iff.mp hstep
    have hconn : c.fsm.state = .disconnected := by
      rw [fsm_step he hc]
      exact code_disconnected h.conn e
    dsimp only
    split
    · exact ⟨⟨hconn, state_close _, (timerRx_close _).trans h.timer, h.handlers⟩, opened_close _⟩
    · exact ⟨⟨hconn, h.sock, h.timer, h.handlers⟩, rfl⟩

theorem Shut.staysClosed {t : Endpoint} (h : Shut t) : StaysClosed t := by
  intro as t' has hrun
  have hinv : Shut t' ∧ t'.sock.opened = t.sock.opened := by
    refine Runs.invariant_of_meets (I := fun u => Shut u ∧ u.sock.opened = t.sock.opened) ?_ ⟨h, rfl⟩
      (Runs.meets_of_forall has) hrun
    rintro u a u' ⟨hshut, hopened⟩ ha hstep
    obtain ⟨hshut', hopened'⟩ := hshut.step ha hstep
    exact ⟨hshut', hopened'.trans hopened⟩
  exact ⟨hinv.1.conn, hinv.2⟩

/-- A reconnect that is scheduled opens the connection again. -/
theorem not_staysClosed {t : Endpoint} (hconn : t.conn.fsm.state = .disconnected) (hsock : t.sock.state = .idle)
    (htimer : t.sock.timerRx = true) : ¬ StaysClosed t := by
  intro h
  have hnegotiating : (runFiniteStateMachine .negotiating t.conn.fsm).1.state = .negotiating := by
    rw [runFiniteStateMachine_state, hconn]
    rfl
  have hstep : ∃ u, t.step (.reconnect .connected .succeeded) = some u ∧ u.conn.fsm.state = .negotiating := by
    simp only [step, htimer, if_true, Option.some.injEq, exists_eq_left']
    cases htls : t.sock.tlsInUse <;>
      simp [setSock, htls, hsock, tlsConnect, tcpConnect, onConnect, established, startTls, handshake, reopen, notify,
        perform, Notification.newState, hnegotiating]
  obtain ⟨u, hu, hstate⟩ := hstep
  have hstays := (h [.reconnect .connected .succeeded] u (by simp [Act.opens]) (Runs.run_cons.mpr ⟨u, hu, rfl⟩)).1
  rw [hstate] at hstays
  cases hstays

/-- **Closed stays closed** exactly if no reconnect is scheduled: for every
run of a connection object and its socket, and every call of `close` that
comes while no handler is in progress. -/
theorem closed_stays_iff {xidHello xidFeatures : UInt32} {as : List Act} {t t' : Endpoint}
    (hrun : Runs.run step (new xidHello xidFeatures) as = some t) (hhandlers : t.handlers = 0)
    (hclose : t.step .close = some t') : StaysClosed t' ↔ t.sock.timerRx = false := by
  have hnew : Rests (new xidHello xidFeatures).conn.fsm := rfl
  have hrests : Rests t.conn.fsm := Runs.invariant (I := fun t => Rests t.conn.fsm)
    (fun _ _ _ h hstep => rests_step h hstep) hnew hrun
  obtain rfl := Option.some.inj hclose
  obtain ⟨hconn, hsock⟩ := perform_closing hrests
  have hidle : (t.perform (runFiniteStateMachine .closing)).sock.state = .idle := by rw [hsock, state_close]
  have htimer : (t.perform (runFiniteStateMachine .closing)).sock.timerRx = t.sock.timerRx := by
    rw [hsock, timerRx_close]
  constructor
  · intro h
    by_contra harmed
    exact not_staysClosed hconn hidle (htimer.trans (by simpa using harmed)) h
  · intro h
    exact Shut.staysClosed ⟨hconn, hidle, htimer.trans h, hhandlers⟩

/-- An established connection, closed. -/
theorem closed_stays_iff_established : ∃ t t', Runs.run step (new 0 0)
      [.tcpConnect Reconnect.lowVersions .datapath true .inProgress .pending, .connecting .connected .pending] = some t ∧
    t.step .close = some t' ∧ t.sock.state = .tcpEstablished ∧ StaysClosed t' := by
  obtain ⟨t, hrun, hstate, htimer, hhandlers⟩ : ∃ t, Runs.run step (new 0 0)
      [.tcpConnect Reconnect.lowVersions .datapath true .inProgress .pending, .connecting .connected .pending] = some t ∧
      t.sock.state = .tcpEstablished ∧ t.sock.timerRx = false ∧ t.handlers = 0 :=
    ⟨_, rfl, by decide, by decide, by decide⟩
  exact ⟨t, _, hrun, rfl, hstate, (closed_stays_iff hrun hhandlers rfl).mpr htimer⟩

/-- The connection is refused and a reconnect is scheduled; the application
closes it; the timer expires, and it is negotiating again. -/
theorem closed_reopens : ∃ t t' t'', Runs.run step (new 0 0)
      [.tcpConnect Reconnect.lowVersions .datapath true .refused .pending, .returned] = some t ∧ t.handlers = 0 ∧
    t.step .close = some t' ∧ t'.conn.fsm.state = .disconnected ∧ t'.sock.opened = 1 ∧
    Runs.run step t' [.reconnect .inProgress .pending, .connecting .connected .pending] = some t'' ∧
    t''.conn.fsm.state = .negotiating ∧ t''.sock.opened = 2 ∧ ¬ StaysClosed t' := by
  refine ⟨_, _, _, rfl, by decide, rfl, by decide, by decide, rfl, by decide, by decide, fun h => ?_⟩
  have hopened := (h [.reconnect .inProgress .pending, .connecting .connected .pending] _
    (by simp [Act.opens]) rfl).2
  revert hopened
  decide

end Endpoint
end RoflCommon
