/-
What becomes of TLS when a connection object and its socket reconnect.

An application that opens its connections with `tls_connect` and `tls_accept` alone may
expect never to speak OpenFlow in the clear. But `FLAG_TLS_IN_USE` is the only memory the
socket has of what it was asked for, `crofsock::close` takes it back where a handshake has
begun, and the timer asks it whether to call `tls_connect` or `tcp_connect`. So the first
connection that is lost after its handshake comes back without TLS. An object stays with
TLS exactly if it was not asked to reconnect, or can neither open a connection any more nor
notice the end of one (`staysEncrypted_iff`).

The steps are those of `Endpoint`, with restrictions. The end of a connection is noticed only
where `recv_message` is called: by `handle_read_event_rxthread`, which asks for the flag, and
after a handshake that it has brought to its end, where it does not. Messages may also wait in
the queues of the object.

To close an established TLS connection the socket write-locks `sslock` and does so again with
the lock in its hands. The system reports `EDEADLK` (where it waits instead, nothing more happens
at all), which passes for a success; so the lock is unlocked once more than it was locked, and
what the next handshake does with it is undefined. An application that opens the object again
after this is left out.
-/
import RoflCommon.Crofconn.Closed

namespace RoflCommon

open Crofconn

/-- `handle_read_event_rxthread` calls `recv_message`, with no handshake under way. -/
def Sock.reads (s : Sock) : Bool :=
  match s.state with
  | .tcpEstablished => !s.tlsInUse
  | .tlsEstablished => s.tlsInUse
  | _ => false

/-- Messages can have been received. -/
def Sock.exchanges (s : Sock) : Bool :=
  match s.state with
  | .tcpEstablished => !s.tlsInUse
  | .tlsEstablished => true
  | _ => false

/-- The application opens the connection with TLS. -/
def Act.opensTls : Act → Bool
  | .tlsConnect .. | .tlsAccept .. => true
  | _ => false

/-- The RX thread goes on with a handshake. -/
def Act.shakes : Act → Bool
  | .handshake _ => true
  | _ => false

/-- The object exchanges messages with its peer. -/
def Crofconn.Speaks (c : Crofconn) : Prop := c.state = .negotiating ∨ c.state = .negotiating2 ∨ c.state = .established

/-- OpenFlow is spoken in the clear. -/
def Endpoint.Plain (t : Endpoint) : Prop := t.conn.fsm.Speaks ∧ t.sock.state = .tcpEstablished

/-- An endpoint, whether the RX thread is in `recv_message` since the end of a handshake, and
whether an established TLS connection has been closed. -/
structure TlsEndpoint where
  endpoint : Endpoint
  reading : Bool
  spent : Bool

inductive TlsAct
  | act (a : Act)
  /-- `recv_message` returns, which was called after a handshake. -/
  | recvReturns

def TlsAct.opens : TlsAct → Bool
  | .act a => a.opens
  | .recvReturns => false

def TlsAct.opensTls : TlsAct → Bool
  | .act a => a.opensTls
  | .recvReturns => false

namespace TlsEndpoint

def new (xidHello xidFeatures : UInt32) : TlsEndpoint := ⟨.new xidHello xidFeatures, false, false⟩

def allows (t : TlsEndpoint) : Act → Bool
  | .lost => t.endpoint.sock.reads || t.reading
  | .conn (.recv _) => t.endpoint.sock.exchanges
  | a => !(a.opens && t.spent)

/-- What is left when an act has come to an end. -/
def after (t : TlsEndpoint) (a : Act) (u : Endpoint) : TlsEndpoint where
  endpoint := u
  reading := (t.reading || a.shakes) && u.sock.state == .tlsEstablished
  spent := t.spent || t.endpoint.sock.state == .tlsEstablished && u.sock.state != .tlsEstablished

def step (t : TlsEndpoint) : TlsAct → Option TlsEndpoint
  | .act a => if t.allows a then (t.endpoint.step a).map (t.after a) else none
  | .recvReturns => if t.reading then some { t with reading := false } else none

/-- The socket is down, or waits in vain for a handshake that could not be begun, or does not
read what comes after one, the flag having been lost before; and neither a timer nor a handler
is going to open it. -/
structure Dead (t : TlsEndpoint) : Prop where
  down : t.endpoint.sock.state = .idle ∨
    t.endpoint.sock.state = .tcpEstablished ∧ t.endpoint.sock.tlsInUse = true ∨
    t.endpoint.sock.state = .tlsEstablished ∧ t.endpoint.sock.tlsInUse = false
  reading : t.reading = false
  timer : t.endpoint.sock.timerRx = false
  handlers : t.endpoint.handlers = 0

end TlsEndpoint

/-! ## The state machine and the socket -/

namespace Crofconn

theorem not_speaks {c : Crofconn} {s : ConnState} (h : c.state = s)
    (hs : s ≠ .negotiating ∧ s ≠ .negotiating2 ∧ s ≠ .established) : ¬ c.Speaks := by
  unfold Speaks
  rw [h]
  intro hspeaks
  rcases hspeaks with hspeaks | hspeaks | hspeaks
  · exact hs.1 hspeaks
  · exact hs.2.1 hspeaks
  · exact hs.2.2 hspeaks

theorem not_speaks_run {s : ConnState} (hs : s ≠ .negotiating ∧ s ≠ .negotiating2 ∧ s ≠ .established) (c : Crofconn) :
    ¬ (runFiniteStateMachine s c).1.Speaks := by
  refine not_speaks (runFiniteStateMachine_state s c) ?_
  split
  · exact hs
  · cases s <;> simp_all [settled]

theorem FsmOp.rofsockClose_mem_exec (op : FsmOp) (c : Crofconn) :
    .rofsockClose ∈ (op.exec c).2 ↔ op = .rofsockClose := by
  cases op with
  | sendHello => simp only [exec, sendHelloMessage]; split <;> simp
  | waitForHello => simp only [exec]; split <;> simp
  | rofsockClose => simp [exec, effect]
  | _ => simp [exec, effect, assign, Crofconn.sendFeaturesRequest]

theorem rofsockClose_mem_execAll (ops : List FsmOp) (c : Crofconn) :
    .rofsockClose ∈ (execAll ops c).2 ↔ .rofsockClose ∈ ops := by
  induction ops generalizing c with
  | nil => simp [execAll]
  | cons op ops ih =>
    simp only [execAll, seq, List.mem_append, op.rofsockClose_mem_exec, ih, List.mem_cons]
    exact or_congr_left eq_comm

/-- The socket is closed on the way to `STATE_CLOSING` and `STATE_NEGOTIATION_FAILED` only. -/
theorem eq_of_rofsockClose_mem_run {s : ConnState} {c : Crofconn} (h : .rofsockClose ∈ (runFiniteStateMachine s c).2) :
    c.state ≠ s ∧ (s = .closing ∨ s = .negotiationFailed) := by
  by_cases hs : c.state = s
  · rw [runFiniteStateMachine_of_eq hs] at h
    cases h
  · rw [runFiniteStateMachine_of_ne hs, rofsockClose_mem_execAll] at h
    refine ⟨hs, ?_⟩
    cases s <;> simp_all [caseOps, closingOps, disconnectedOps, pendingOps]

theorem not_speaks_of_rofsockClose_mem_run {s : ConnState} {c : Crofconn}
    (h : .rofsockClose ∈ (runFiniteStateMachine s c).2) : ¬ (runFiniteStateMachine s c).1.Speaks := by
  obtain ⟨-, rfl | rfl⟩ := eq_of_rofsockClose_mem_run h
  · exact not_speaks_run (by decide) c
  · exact not_speaks_run (by decide) c

theorem not_speaks_of_rofsockClose_mem_moveOn {c : Crofconn} (h : .rofsockClose ∈ (moveOn c).2) :
    ¬ (moveOn c).1.Speaks := by
  rw [Opening.moveOn_eq] at h ⊢
  exact not_speaks_of_rofsockClose_mem_run h

theorem not_speaks_of_rofsockClose_mem_hello {c : Crofconn} {msg : CofmsgHello}
    (h : .rofsockClose ∈ (helloRcvd msg c).2) : ¬ (helloRcvd msg c).1.Speaks := by
  have hsend : .rofsockClose ∉ (sendHelloMessage c).2 := by
    unfold sendHelloMessage
    split <;> simp
  rw [helloRcvd_eq] at h ⊢
  have hselect : .rofsockClose ∈ (selectVersion msg (c.atSelection msg)).2 := by
    simpa [hsend] using h
  unfold selectVersion at hselect ⊢
  dsimp only at hselect ⊢
  split at hselect
  · next hunknown =>
    rw [if_pos hunknown]
    exact not_speaks_run (by decide) _
  · next hknown =>
    rw [if_neg hknown]
    exact not_speaks_of_rofsockClose_mem_moveOn hselect

theorem not_speaks_of_rofsockClose_mem_error {c : Crofconn} {errType : UInt16}
    (h : .rofsockClose ∈ (errorRcvd errType c).2) : ¬ (errorRcvd errType c).1.Speaks := by
  simp only [errorRcvd, seq, effect] at h ⊢
  split at h
  · split at h
    · next heq =>
      simp only [if_pos heq]
      exact not_speaks_run (by decide) c
    · simp at h
  · split at h
    · next heq =>
      simp only [if_pos heq]
      exact not_speaks_run (by decide) c
    · simp at h
  · simp at h

end Crofconn

/-- The handlers of messages. -/
theorem Opening.recv_cases (m : Msg) (c : Crofconn) : Opening.recv m c = (c, []) ∨
    (∃ msg, Opening.recv m c = helloRcvd msg c) ∨ (∃ errType, Opening.recv m c = errorRcvd errType c) ∨
    Opening.recv m c = featuresReplyRcvd c := by
  unfold Opening.recv
  cases c.state with
  | connectPending | acceptPending | negotiating =>
    dsimp only
    split
    · exact .inl rfl
    · cases m with
      | hello msg => exact .inr (.inl ⟨msg, rfl⟩)
      | error version xid errType => exact .inr (.inr (.inl ⟨errType, rfl⟩))
      | _ => exact .inl rfl
  | negotiating2 =>
    dsimp only
    split
    · exact .inl rfl
    · cases m with
      | error version xid errType => exact .inr (.inr (.inl ⟨errType, rfl⟩))
      | featuresReply version xid => exact .inr (.inr (.inr rfl))
      | _ => exact .inl rfl
  | _ => exact .inl rfl

/-- An object that closes its socket on its own account is silent afterwards. -/
theorem Event.not_speaks_of_rofsockClose {c : Conn} {e : Event} (h : .rofsockClose ∈ (e.code c c.fsm).2) :
    ¬ (e.code c c.fsm).1.Speaks := by
  cases e with
  | recv m =>
    simp only [Event.code] at h ⊢
    rcases Opening.recv_cases m c.fsm with hrecv | ⟨msg, hrecv⟩ | ⟨errType, hrecv⟩ | hrecv
    · rw [hrecv] at h
      cases h
    · rw [hrecv] at h ⊢
      exact not_speaks_of_rofsockClose_mem_hello h
    · rw [hrecv] at h ⊢
      exact not_speaks_of_rofsockClose_mem_error h
    · rw [hrecv, featuresReplyRcvd] at h
      have hrun : .rofsockClose ∈ (runFiniteStateMachine .established c.fsm).2 := by simpa [seq, effect] using h
      rcases (eq_of_rofsockClose_mem_run hrun).2 with hs | hs <;> cases hs
  | expire t congested expired =>
    cases t with
    | needLifeCheck =>
      simp only [Event.code, sendEchoRequest] at h
      split at h <;> simp [effect] at h
    | waitForHello =>
      simp only [Event.code, helloExpired] at h ⊢
      split at h
      · cases h
      · split at h
        · cases h
        · next hflag =>
          rw [if_neg hflag]
          exact not_speaks_run (by decide) _
    | waitForEcho =>
      simp only [Event.code, echoRequestExpired, seq]
      exact not_speaks_run (by decide) _
    | waitForFeatures => exact not_speaks_run (by decide) _
    | pendingRequests | pendingSegments => simp [Event.code, Opening.skip] at h
  | _ => simp [Event.code, Opening.skip] at h

/-- Without a message of its peer an object does not begin to speak. -/
theorem Event.speaks_of_code {c : Conn} {e : Event} (he : ∀ m, e ≠ .recv m) (h : (e.code c c.fsm).1.Speaks) :
    c.fsm.Speaks := by
  cases e with
  | recv m => exact absurd rfl (he m)
  | expire t congested expired =>
    cases t with
    | needLifeCheck =>
      simp only [Event.code, sendEchoRequest] at h
      split at h <;> exact h
    | waitForHello =>
      simp only [Event.code, helloExpired] at h
      split at h
      · exact h
      · split at h
        · exact h
        · exact absurd h (not_speaks_run (by decide) _)
    | waitForEcho =>
      simp only [Event.code, echoRequestExpired, seq] at h
      exact absurd h (not_speaks_run (by decide) _)
    | waitForFeatures => exact absurd h (not_speaks_run (by decide) _)
    | pendingRequests | pendingSegments => exact h
  | _ => exact h

namespace Endpoint

/-! ## What the functions of the socket come to -/

@[simp] theorem sock_setSock (f : Sock → Sock) (t : Endpoint) : (t.setSock f).sock = f t.sock := rfl

@[simp] theorem conn_setSock (f : Sock → Sock) (t : Endpoint) : (t.setSock f).conn = t.conn := rfl

/-- A notification that does not ask for the end closes nothing. -/
theorem sock_notify (n : Notification) (t : Endpoint) : (t.notify n).sock = t.sock := by
  have hnot : .rofsockClose ∉ (runFiniteStateMachine n.newState t.conn.fsm).2 := by
    intro hmem
    rcases (eq_of_rofsockClose_mem_run hmem).2 with hs | hs <;> cases n <;> cases hs
  simp only [notify, perform, if_neg hnot]

theorem fsm_notify (n : Notification) (t : Endpoint) :
    (t.notify n).conn.fsm = (runFiniteStateMachine n.newState t.conn.fsm).1 := by
  simp only [notify, perform, Conn.fsm_perform]

theorem not_speaks_notify {n : Notification}
    (hn : n.newState ≠ .negotiating ∧ n.newState ≠ .negotiating2 ∧ n.newState ≠ .established) (t : Endpoint) :
    ¬ (t.notify n).conn.fsm.Speaks := by
  rw [fsm_notify]
  exact not_speaks_run hn _

/-- What opening a connection comes to: it is waited for the system or for the peer; TLS is
there; the connection is there without TLS, which is not in use; or the socket is closed. -/
inductive Moves (t u : Endpoint) : Prop
  | waits (state : SockState) (hstate : state = t.sock.state ∨ state = .tlsConnecting ∨ state = .tlsAccepting ∨
      state = .tcpEstablished ∧ t.sock.tlsInUse = true) (hconn : u.conn = t.conn)
      (hsock : u.sock = { t.sock with state := state })
  | secured (hsock : u.sock = { t.sock with state := .tlsEstablished })
  | plain (htls : t.sock.tlsInUse = false) (hsock : u.sock = { t.sock with state := .tcpEstablished })
  | closed (hstate : u.sock.state = .idle) (hreconnect : u.sock.reconnectOnFailure = t.sock.reconnectOnFailure)
      (htimer : u.sock.timerRx = t.sock.timerRx) (hsilent : ¬ u.conn.fsm.Speaks)

theorem reconnectOnFailure_close (s : Sock) : s.close.reconnectOnFailure = s.reconnectOnFailure := by
  unfold Sock.close
  split <;> rfl

theorem Moves.refl (t : Endpoint) : Moves t t := .waits t.sock.state (.inl rfl) rfl rfl

/-- The state the socket was in before does not matter. -/
theorem Moves.of_setState {t u : Endpoint} {state : SockState}
    (hstate : state = .tlsConnecting ∨ state = .tlsAccepting ∨
      state = .tcpEstablished ∧ t.sock.tlsInUse = true)
    (h : Moves (t.setSock fun s => { s with state := state }) u) : Moves t u := by
  cases h with
  | waits state' hstate' hconn hsock =>
    refine .waits state' ?_ hconn hsock
    rcases hstate' with rfl | hstate'
    · exact .inr hstate
    · exact .inr hstate'
  | secured hsock => exact .secured hsock
  | plain htls hsock => exact .plain htls hsock
  | closed hidle hreconnect htimer hsilent => exact .closed hidle hreconnect htimer hsilent

/-- The socket is closed and the end notified. -/
theorem moves_closed {n : Notification}
    (hn : n.newState ≠ .negotiating ∧ n.newState ≠ .negotiating2 ∧ n.newState ≠ .established) {t u : Endpoint}
    (hstate : u.sock.state = .idle) (hreconnect : u.sock.reconnectOnFailure = t.sock.reconnectOnFailure)
    (htimer : u.sock.timerRx = t.sock.timerRx) (handlers : ℕ) : Moves t { u.notify n with handlers := handlers } := by
  have hsock : (u.notify n).sock = u.sock := sock_notify n u
  refine .closed ?_ ?_ ?_ (not_speaks_notify hn u)
  · exact (congrArg Sock.state hsock).trans hstate
  · exact (congrArg Sock.reconnectOnFailure hsock).trans hreconnect
  · exact (congrArg Sock.timerRx hsock).trans htimer

theorem moves_handshake (passive : Bool) (h : Handshake) (t : Endpoint) : Moves t (t.handshake passive h) := by
  have hn : (if passive then Notification.tlsAcceptFailed else .tlsConnectFailed).newState = .disconnected := by
    cases passive <;> rfl
  cases h with
  | pending | throws => exact Moves.refl t
  | succeeded => exact .secured (sock_notify _ _)
  | failed =>
    exact moves_closed (u := t.setSock Sock.close) (by rw [hn]; decide) (state_close _) (reconnectOnFailure_close _)
      (timerRx_close _) t.handlers
  | noCertificate =>
    refine moves_closed (u := setSock Sock.close ((t.setSock Sock.close).notify .tcpAcceptRefused)) (by rw [hn]; decide)
      (state_close _) ?_ ?_ t.handlers
    · rw [sock_setSock, reconnectOnFailure_close, sock_notify, sock_setSock, reconnectOnFailure_close]
    · rw [sock_setSock, timerRx_close, sock_notify, sock_setSock, timerRx_close]

theorem moves_startTls (passive : Bool) (h : Handshake) (t : Endpoint) : Moves t (t.startTls passive h) := by
  unfold startTls
  split
  · exact Moves.refl t
  · refine Moves.of_setState ?_ (moves_handshake passive h _)
    cases passive
    · exact .inl rfl
    · exact .inr (.inl rfl)

theorem moves_established (passive : Bool) (h : Handshake) (t : Endpoint) : Moves t (t.established passive h) := by
  unfold established
  dsimp only
  split
  · next htls => exact Moves.of_setState (.inr (.inr ⟨rfl, htls⟩)) (moves_startTls passive h _)
  · next htls => exact .plain (by simpa using htls) (sock_notify _ _)

theorem moves_onConnect (o : ConnectResult) (h : Handshake) (t : Endpoint) : Moves t (t.onConnect o h) := by
  cases o with
  | inProgress | throws => exact Moves.refl t
  | connected => exact moves_established false h t
  | refused | failed =>
    exact moves_closed (u := t.setSock Sock.close) (by decide) (state_close _) (reconnectOnFailure_close _)
      (timerRx_close _) (t.handlers + 1)

/-! ## Runs in which the application opens connections with TLS -/

/-- What such runs come to: where TLS is in use, messages are exchanged after the handshake
only; without a reconnect asked for none is scheduled, and TLS is in use unless the socket
is down; an active socket is not accepting. -/
structure Reached (t : Endpoint) : Prop where
  speaks : t.sock.tlsInUse = true → t.conn.fsm.Speaks → t.sock.state = .tlsEstablished
  timer : t.sock.reconnectOnFailure = false → t.sock.timerRx = false
  tls : t.sock.reconnectOnFailure = false → t.sock.tlsInUse = true ∨ t.sock.state = .idle
  accepting : t.sock.state = .tcpAccepting → t.sock.reconnectOnFailure = false
  listening : t.sock.state ≠ .listening

theorem Moves.reconnectOnFailure {t u : Endpoint} (h : Moves t u) :
    u.sock.reconnectOnFailure = t.sock.reconnectOnFailure := by
  cases h with
  | waits state hstate hconn hsock => rw [hsock]
  | secured hsock => rw [hsock]
  | plain htls hsock => rw [hsock]
  | closed hidle hreconnect htimer hsilent => exact hreconnect

theorem Moves.timerRx {t u : Endpoint} (h : Moves t u) : u.sock.timerRx = t.sock.timerRx := by
  cases h with
  | waits state hstate hconn hsock => rw [hsock]
  | secured hsock => rw [hsock]
  | plain htls hsock => rw [hsock]
  | closed hidle hreconnect htimer hsilent => exact htimer

theorem Moves.state {t u : Endpoint} (h : Moves t u) : u.sock.state = t.sock.state ∨ u.sock.state = .tlsConnecting ∨
    u.sock.state = .tlsAccepting ∨ u.sock.state = .tcpEstablished ∨ u.sock.state = .tlsEstablished ∨
    u.sock.state = .idle := by
  cases h with
  | waits state hstate hconn hsock =>
    rw [hsock]
    rcases hstate with rfl | rfl | rfl | ⟨rfl, -⟩
    · exact .inl rfl
    · exact .inr (.inl rfl)
    · exact .inr (.inr (.inl rfl))
    · exact .inr (.inr (.inr (.inl rfl)))
  | secured hsock => exact .inr (.inr (.inr (.inr (.inl (by rw [hsock])))))
  | plain htls hsock => exact .inr (.inr (.inr (.inl (by rw [hsock]))))
  | closed hidle hreconnect htimer hsilent => exact .inr (.inr (.inr (.inr (.inr hidle))))

/-- Whatever comes of it, the socket is accepting or listening only if it was. -/
theorem Moves.was {t u : Endpoint} (h : Moves t u) {state : SockState}
    (hstate : state = .tcpAccepting ∨ state = .listening) (hu : u.sock.state = state) : t.sock.state = state := by
  rcases h.state with hs | hs | hs | hs | hs | hs
  · exact hs.symm.trans hu
  all_goals
    rw [hu] at hs
    rcases hstate with rfl | rfl <;> cases hs

/-- An object that is silent where TLS is in use, whatever comes of its opening. -/
theorem Reached.of_moves {t u : Endpoint} (hspeaks : t.sock.tlsInUse = true → ¬ t.conn.fsm.Speaks)
    (htimer : t.sock.reconnectOnFailure = false → t.sock.timerRx = false)
    (htls : t.sock.reconnectOnFailure = false → t.sock.tlsInUse = true)
    (haccepting : t.sock.state = .tcpAccepting → t.sock.reconnectOnFailure = false)
    (hlistening : t.sock.state ≠ .listening) (h : Moves t u) : Reached u := by
  refine ⟨?_, ?_, ?_, ?_, fun hu => hlistening (h.was (.inr rfl) hu)⟩
  · intro htls' hspeaks'
    cases h with
    | waits state hstate hconn hsock =>
      rw [hsock] at htls'
      rw [hconn] at hspeaks'
      exact absurd hspeaks' (hspeaks htls')
    | secured hsock => rw [hsock]
    | plain htls hsock =>
      rw [hsock, htls] at htls'
      cases htls'
    | closed hidle hreconnect htimer hsilent => exact absurd hspeaks' hsilent
  · rw [h.reconnectOnFailure, h.timerRx]
    exact htimer
  · rw [h.reconnectOnFailure]
    intro hr
    cases h with
    | waits state hstate hconn hsock => exact .inl (by rw [hsock]; exact htls hr)
    | secured hsock => exact .inl (by rw [hsock]; exact htls hr)
    | plain htls' hsock =>
      rw [htls hr] at htls'
      cases htls'
    | closed hidle hreconnect htimer hsilent => exact .inr hidle
  · rw [h.reconnectOnFailure]
    exact fun hu => haccepting (h.was (.inl rfl) hu)

/-- A connection that is there or on its way already. -/
theorem Reached.moves {t u : Endpoint} (h : Reached t) (hidle : t.sock.state ≠ .idle)
    (hspeaks : t.conn.fsm.Speaks → t.sock.state ≠ .tlsEstablished) (hmoves : Moves t u) : Reached u :=
  Reached.of_moves (fun htls hs => hspeaks hs (h.speaks htls hs)) h.timer (fun hr => (h.tls hr).resolve_right hidle)
    h.accepting h.listening hmoves

theorem tlsInUse_reopen {s : Sock} (hs : s.state = .idle ∨ s.state = .tcpConnecting ∨ s.state = .tcpAccepting)
    (reconnect : Bool) (state : SockState) : (reopen reconnect state s).tlsInUse = s.tlsInUse := by
  unfold reopen
  dsimp only
  split
  · rfl
  · rcases hs with hs | hs | hs
    all_goals rw [Sock.close, hs]

theorem tlsInUse_reopen_of_not {s : Sock} (h : s.tlsInUse = false) (reconnect : Bool) (state : SockState) :
    (reopen reconnect state s).tlsInUse = false := by
  unfold reopen
  dsimp only
  split
  · exact h
  · unfold Sock.close
    split
    · rfl
    · rfl
    · rfl
    · exact h
    · exact h

/-- A connection opened anew, with TLS in use. -/
theorem reached_reopen {t u : Endpoint} {state : SockState} {reconnect : Bool} (hsilent : ¬ t.conn.fsm.Speaks)
    (htls : t.sock.tlsInUse = true)
    (hs : t.sock.state = .idle ∨ t.sock.state = .tcpConnecting ∨ t.sock.state = .tcpAccepting)
    (hstate : state = .tcpConnecting ∨ state = .tcpAccepting ∧ reconnect = false)
    (h : Moves (t.setSock (reopen reconnect state)) u) : Reached u := by
  refine Reached.of_moves (t := t.setSock (reopen reconnect state)) (fun _ => hsilent) (fun _ => rfl)
    (fun _ => (tlsInUse_reopen hs reconnect state).trans htls) ?_ ?_ h
  · intro hu
    have hbefore : state = .tcpAccepting := hu
    rcases hstate with rfl | ⟨-, rfl⟩
    · cases hbefore
    · rfl
  · intro hu
    have hbefore : state = .listening := hu
    rcases hstate with rfl | ⟨rfl, -⟩ <;> cases hbefore

/-- `crofconn` has entered a pending state and calls the socket. -/
theorem reached_opens {t : Endpoint} (h : Reached t) {pending : ConnState} (hpending : settled pending = pending)
    (hne : pending ≠ .negotiating ∧ pending ≠ .negotiating2 ∧ pending ≠ .established) (eff : Effect)
    (own : Versionbitmap) (mode : Mode) {rofsock : Endpoint → Endpoint}
    (hsock : ∀ u : Endpoint, Reached u → ¬ u.conn.fsm.Speaks → Reached (rofsock u)) :
    Reached (t.opens (openWith pending eff own mode) rofsock) := by
  unfold opens
  split
  case h_1 => exact h
  case h_2 r hr =>
    have hstate : (t.conn.after r).fsm.state = pending := by
      rw [show (t.conn.after r).fsm = r.1 from Conn.foldl_act_fsm _ _, openWith_state hpending hr]
    have hsilent : ¬ (t.conn.after r).fsm.Speaks := not_speaks hstate hne
    exact hsock _ ⟨fun _ hspeaks => absurd hspeaks hsilent, h.timer, h.tls, h.accepting, h.listening⟩ hsilent

/-- The object is silent, or has its TLS connection. -/
theorem reached_tlsConnect {t : Endpoint} (h : Reached t)
    (hspeaks : t.conn.fsm.Speaks → t.sock.state = .tlsEstablished) (reconnect : Bool) (o : ConnectResult)
    (r : Handshake) : Reached (t.tlsConnect reconnect o r) := by
  have hsilent : ∀ {state : SockState}, t.sock.state = state → state ≠ .tlsEstablished → ¬ t.conn.fsm.Speaks := by
    intro state hs hne hspeaks'
    exact hne (hs.symm.trans (hspeaks hspeaks'))
  unfold tlsConnect
  split
  · next hs =>
    exact reached_reopen (t := t.setSock fun s => { s with tlsInUse := true }) (hsilent hs (by decide)) rfl (.inl hs)
      (.inl rfl) (moves_onConnect o r _)
  · next hs =>
    exact reached_reopen (t := t.setSock fun s => { s with tlsInUse := true }) (hsilent hs (by decide)) rfl
      (.inr (.inl hs)) (.inl rfl) (moves_onConnect o r _)
  · next hs =>
    exact h.moves (by rw [hs]; decide) (fun hspeaks' => absurd hspeaks' (hsilent hs (by decide)))
      (moves_startTls false r t)
  · next hs =>
    exact h.moves (by rw [hs]; decide) (fun hspeaks' => absurd hspeaks' (hsilent hs (by decide)))
      (moves_handshake false r t)
  · exact h

theorem moves_tcpAccept (accepted : Bool) (r : Handshake) (t : Endpoint) :
    Moves (t.setSock (reopen false .tcpAccepting)) (t.tcpAccept accepted r) := by
  unfold tcpAccept
  dsimp only
  split
  · exact moves_established true r _
  · exact Moves.refl _

theorem reached_tlsAccept {t : Endpoint} (h : Reached t) (hsilent : ¬ t.conn.fsm.Speaks) (accepted : Bool)
    (r : Handshake) : Reached (t.tlsAccept accepted r) := by
  unfold tlsAccept
  split
  · next hs =>
    exact reached_reopen (t := t.setSock fun s => { s with tlsInUse := true }) hsilent rfl (.inl hs) (.inr ⟨rfl, rfl⟩)
      (moves_tcpAccept accepted r _)
  · next hs =>
    exact reached_reopen (t := t.setSock fun s => { s with tlsInUse := true }) hsilent rfl (.inr (.inr hs))
      (.inr ⟨rfl, rfl⟩) (moves_tcpAccept accepted r _)
  · next hs => exact h.moves (by rw [hs]; decide) (fun hspeaks => absurd hspeaks hsilent) (moves_startTls true r t)
  · next hs => exact h.moves (by rw [hs]; decide) (fun hspeaks => absurd hspeaks hsilent) (moves_handshake true r t)
  · exact h

/-- The timer opens the connection as the flag says. -/
theorem reached_reconnect {t : Endpoint} (h : Reached t) (o : ConnectResult) (r : Handshake) :
    let u := t.setSock fun s => { s with timerRx := false }
    Reached (if u.sock.tlsInUse then u.tlsConnect true o r else u.tcpConnect true o r) := by
  intro u
  have hu : Reached u := ⟨h.speaks, fun _ => rfl, h.tls, h.accepting, h.listening⟩
  split
  · next htls => exact reached_tlsConnect hu (fun hspeaks => hu.speaks htls hspeaks) true o r
  · next htls =>
    have htls' : (reopen true .tcpConnecting u.sock).tlsInUse = false :=
      tlsInUse_reopen_of_not (by simpa using htls) true .tcpConnecting
    refine Reached.of_moves (t := u.setSock (reopen true .tcpConnecting)) (fun hin => ?_) (fun hr => ?_) (fun hr => ?_)
      (fun hs => ?_) (fun hs => ?_) (moves_onConnect o r _)
    · rw [sock_setSock, htls'] at hin
      cases hin
    all_goals first | cases hr | cases hs

/-- The socket is closed, and the object silent. -/
theorem reached_closed {t u : Endpoint} (h : Reached t) (hsock : u.sock = t.sock.close)
    (hsilent : ¬ u.conn.fsm.Speaks) : Reached u := by
  have hidle : u.sock.state = .idle := by rw [hsock, state_close]
  refine ⟨fun _ hspeaks => absurd hspeaks hsilent, ?_, fun _ => .inr hidle, ?_, ?_⟩
  · rw [hsock, reconnectOnFailure_close, timerRx_close]
    exact h.timer
  · rw [hidle]
    intro hs
    cases hs
  · rw [hidle]
    decide

theorem backoffReconnect_state (resetTimeout : Bool) (s : Sock) : (s.backoffReconnect resetTimeout).state = s.state ∧
    (s.backoffReconnect resetTimeout).reconnectOnFailure = s.reconnectOnFailure ∧
    (s.backoffReconnect resetTimeout).tlsInUse = s.tlsInUse ∧ (s.backoffReconnect resetTimeout).timerRx = true := by
  unfold Sock.backoffReconnect
  split
  · next htimer => exact ⟨rfl, rfl, rfl, htimer⟩
  · split <;> exact ⟨rfl, rfl, rfl, rfl⟩

/-- A reconnect is scheduled where one was asked for. -/
theorem Reached.backoff {t u : Endpoint} (h : Reached t) (hr : t.sock.reconnectOnFailure = true) {resetTimeout : Bool}
    (hsock : u.sock = t.sock.backoffReconnect resetTimeout) (hconn : u.conn = t.conn) : Reached u := by
  obtain ⟨hstate, hreconnect, htls, -⟩ := backoffReconnect_state resetTimeout t.sock
  have hr' : u.sock.reconnectOnFailure = true := by rw [hsock, hreconnect, hr]
  refine ⟨?_, ?_, ?_, ?_, ?_⟩
  · rw [hsock, hstate, htls, hconn]
    exact h.speaks
  · intro hfalse
    rw [hr'] at hfalse
    cases hfalse
  · intro hfalse
    rw [hr'] at hfalse
    cases hfalse
  · rw [hsock, hstate, hreconnect]
    exact h.accepting
  · rw [hsock, hstate]
    exact h.listening

theorem sock_onError (t : Endpoint) : t.onError.sock =
    if t.sock.reconnectOnFailure then t.sock.close.backoffReconnect true else t.sock.close := by
  rw [onError, sock_notify, sock_setSock]

theorem not_speaks_onError (t : Endpoint) : ¬ t.onError.conn.fsm.Speaks := not_speaks_notify (by decide) _

theorem not_speaks_closing (t : Endpoint) : ¬ (t.perform (runFiniteStateMachine .closing)).conn.fsm.Speaks := by
  simp only [perform, Conn.fsm_perform]
  exact not_speaks_run (by decide) _

/-- The same socket, with an object that is silent. -/
theorem Reached.silent {t u : Endpoint} (h : Reached t) (hsock : u.sock = t.sock) (hsilent : ¬ u.conn.fsm.Speaks) :
    Reached u := by
  refine ⟨fun _ hspeaks => absurd hspeaks hsilent, ?_, ?_, ?_, ?_⟩
  all_goals rw [hsock]
  · exact h.timer
  · exact h.tls
  · exact h.accepting
  · exact h.listening

/-- Where TLS is in use, messages are received after the handshake only. -/
theorem state_of_exchanges {s : Sock} (h : s.exchanges = true) (htls : s.tlsInUse = true) :
    s.state = .tlsEstablished := by
  unfold Sock.exchanges at h
  split at h
  · rw [htls] at h
    cases h
  · next hs => exact hs
  · cases h

/-- The connection is lost. -/
theorem Reached.onError {t : Endpoint} (h : Reached t) : Reached t.onError := by
  have hsock := sock_onError t
  by_cases hr : t.sock.reconnectOnFailure = true
  · have hclosed : Reached { t with conn := t.onError.conn, sock := t.sock.close } :=
      reached_closed h rfl (not_speaks_onError t)
    exact hclosed.backoff ((reconnectOnFailure_close _).trans hr) (hsock.trans (if_pos hr)) rfl
  · exact reached_closed h (hsock.trans (if_neg hr)) (not_speaks_onError t)

/-- An event of the connection, over a socket that hands messages over after the handshake only. -/
theorem Reached.step_conn {t t' : Endpoint} {e : Event} (h : Reached t)
    (hexchanges : ∀ m, e = .recv m → t.sock.exchanges = true) (hstep : t.step (.conn e) = some t') : Reached t' := by
  obtain ⟨he, hstep⟩ := Option.ite_none_right_eq_some.mp hstep
  obtain ⟨c, hc, rfl⟩ := Option.map_eq_some_iff.mp hstep
  have hfsm := fsm_step he hc
  by_cases hmem : .rofsockClose ∈ (e.code t.conn t.conn.fsm).2
  · refine reached_closed h (if_pos hmem) ?_
    show ¬ c.fsm.Speaks
    rw [hfsm]
    exact Event.not_speaks_of_rofsockClose hmem
  · rw [if_neg hmem]
    refine ⟨fun htls hspeaks => ?_, h.timer, h.tls, h.accepting, h.listening⟩
    dsimp only at htls hspeaks ⊢
    by_cases hrecv : ∃ m, e = .recv m
    · obtain ⟨m, rfl⟩ := hrecv
      exact state_of_exchanges (hexchanges m rfl) htls
    · rw [hfsm] at hspeaks
      exact h.speaks htls (Event.speaks_of_code (fun m heq => hrecv ⟨m, heq⟩) hspeaks)

theorem Reached.step {t t' : Endpoint} {a : Act} (h : Reached t) (ha : a.opens = true → a.opensTls = true)
    (hexchanges : ∀ m, a = .conn (.recv m) → t.sock.exchanges = true) (hstep : t.step a = some t') : Reached t' := by
  cases a with
  | tlsConnect own mode reconnect o r =>
    obtain rfl := Option.some.inj hstep
    exact reached_opens h rfl (by decide) _ _ _ fun u hu hsilent =>
      reached_tlsConnect hu (fun hspeaks => absurd hspeaks hsilent) reconnect o r
  | tlsAccept own mode accepted r =>
    obtain rfl := Option.some.inj hstep
    exact reached_opens h rfl (by decide) _ _ _ fun u hu hsilent => reached_tlsAccept hu hsilent accepted r
  | tcpConnect | tcpAccept => cases ha rfl
  | close =>
    obtain rfl := Option.some.inj hstep
    have hsilent := not_speaks_closing t
    by_cases hmem : .rofsockClose ∈ (runFiniteStateMachine .closing t.conn.fsm).2
    · exact reached_closed h (if_pos hmem) hsilent
    · exact h.silent (if_neg hmem) hsilent
  | returned =>
    obtain ⟨-, hstep⟩ := Option.ite_none_left_eq_some.mp hstep
    obtain rfl := Option.some.inj hstep
    by_cases hr : t.sock.reconnectOnFailure = true
    · exact h.backoff hr (if_pos hr) rfl
    · rw [if_neg hr]
      exact ⟨h.speaks, h.timer, h.tls, h.accepting, h.listening⟩
  | connecting o r =>
    obtain ⟨hs, hstep⟩ := Option.ite_none_right_eq_some.mp hstep
    obtain rfl := Option.some.inj hstep
    exact h.moves (by rw [hs]; decide) (fun _ => by rw [hs]; decide) (moves_onConnect o r t)
  | handshake r =>
    simp only [Endpoint.step] at hstep
    split at hstep
    · next hs =>
      obtain rfl := Option.some.inj hstep
      exact h.moves (by rw [hs]; decide) (fun _ => by rw [hs]; decide) (moves_handshake false r t)
    · next hs =>
      obtain rfl := Option.some.inj hstep
      exact h.moves (by rw [hs]; decide) (fun _ => by rw [hs]; decide) (moves_handshake true r t)
    · cases hstep
  | lost =>
    obtain ⟨-, hstep⟩ := Option.ite_none_right_eq_some.mp hstep
    obtain rfl := Option.some.inj hstep
    exact h.onError
  | reconnect o r =>
    obtain ⟨-, hstep⟩ := Option.ite_none_right_eq_some.mp hstep
    obtain rfl := Option.some.inj hstep
    exact reached_reconnect h o r
  | conn e => exact h.step_conn (fun m heq => hexchanges m (congrArg Act.conn heq)) hstep

end Endpoint

namespace TlsEndpoint

open Endpoint

/-- What every run comes to in which the application opens connections with TLS. -/
structure Sound (t : TlsEndpoint) : Prop where
  reached : Reached t.endpoint
  reading : t.reading = true → t.endpoint.sock.state = .tlsEstablished

/-- An act that is allowed is one of the endpoint's. -/
theorem step_act {t t' : TlsEndpoint} {a : Act} (hstep : t.step (.act a) = some t') :
    t.allows a = true ∧ ∃ u, t.endpoint.step a = some u ∧ t' = t.after a u := by
  obtain ⟨hallows, hstep⟩ := Option.ite_none_right_eq_some.mp hstep
  obtain ⟨u, hu, rfl⟩ := Option.map_eq_some_iff.mp hstep
  exact ⟨hallows, u, hu, rfl⟩

theorem step_recvReturns {t t' : TlsEndpoint} (hstep : t.step .recvReturns = some t') :
    t.reading = true ∧ t' = { t with reading := false } := by
  obtain ⟨hreading, hstep⟩ := Option.ite_none_right_eq_some.mp hstep
  exact ⟨hreading, (Option.some.inj hstep).symm⟩

theorem Sound.step {t t' : TlsEndpoint} {a : TlsAct} (h : Sound t) (ha : a.opens = true → a.opensTls = true)
    (hstep : t.step a = some t') : Sound t' := by
  cases a with
  | act a =>
    obtain ⟨hallows, u, hu, rfl⟩ := step_act hstep
    refine ⟨h.reached.step ha (fun m heq => ?_) hu, fun hreading => ?_⟩
    · subst heq
      exact hallows
    · simp only [after, Bool.and_eq_true, beq_iff_eq] at hreading
      exact hreading.2
  | recvReturns =>
    obtain ⟨-, rfl⟩ := step_recvReturns hstep
    exact ⟨h.reached, fun hreading => by cases hreading⟩

/-- Nothing is under way at a socket that is dead. -/
theorem Dead.state_ne {t : TlsEndpoint} (h : Dead t) {state : SockState}
    (hstate : state = .tcpConnecting ∨ state = .tlsConnecting ∨ state = .tlsAccepting) :
    t.endpoint.sock.state ≠ state := by
  intro hs
  rcases h.down with hs' | ⟨hs', -⟩ | ⟨hs', -⟩ <;> rw [hs] at hs' <;> rcases hstate with rfl | rfl | rfl <;> cases hs'

theorem Dead.not_reads {t : TlsEndpoint} (h : Dead t) : t.endpoint.sock.reads = false := by
  unfold Sock.reads
  rcases h.down with hs | ⟨hs, htls⟩ | ⟨hs, htls⟩
  · rw [hs]
  · rw [hs, htls]
    rfl
  · rw [hs, htls]

/-- It may be closed once more. -/
theorem Dead.after {t : TlsEndpoint} (h : Dead t) (c : Conn) (closes : Prop) [Decidable closes] {a : Act}
    (hshakes : a.shakes = false) : Dead (t.after a { t.endpoint with
      conn := c, sock := if closes then t.endpoint.sock.close else t.endpoint.sock }) := by
  have hreading : ∀ u : Endpoint, (t.after a u).reading = false := by
    intro u
    simp [TlsEndpoint.after, h.reading, hshakes]
  split
  · exact ⟨.inl (state_close _), hreading _, (timerRx_close _).trans h.timer, h.handlers⟩
  · exact ⟨h.down, hreading _, h.timer, h.handlers⟩

theorem Dead.step {t t' : TlsEndpoint} {a : TlsAct} (h : Dead t) (ha : a.opens = false) (hstep : t.step a = some t') :
    Dead t' := by
  cases a with
  | recvReturns =>
    obtain ⟨hreading, -⟩ := step_recvReturns hstep
    rw [h.reading] at hreading
    cases hreading
  | act a =>
    obtain ⟨hallows, u, hu, rfl⟩ := step_act hstep
    cases a with
    | tcpConnect | tlsConnect | tcpAccept | tlsAccept => cases ha
    | close =>
      obtain rfl := Option.some.inj hu
      exact h.after _ _ rfl
    | returned =>
      obtain ⟨hhandlers, -⟩ := Option.ite_none_left_eq_some.mp hu
      exact absurd h.handlers hhandlers
    | connecting o r =>
      obtain ⟨hs, -⟩ := Option.ite_none_right_eq_some.mp hu
      exact absurd hs (h.state_ne (.inl rfl))
    | handshake r =>
      simp only [Endpoint.step] at hu
      split at hu
      · next hs => exact absurd hs (h.state_ne (.inr (.inl rfl)))
      · next hs => exact absurd hs (h.state_ne (.inr (.inr rfl)))
      · cases hu
    | lost =>
      rw [allows, h.not_reads, h.reading] at hallows
      cases hallows
    | reconnect o r =>
      obtain ⟨hs, -⟩ := Option.ite_none_right_eq_some.mp hu
      rw [h.timer] at hs
      cases hs
    | conn e =>
      obtain ⟨he, hu⟩ := Option.ite_none_right_eq_some.mp hu
      obtain ⟨c, hc, rfl⟩ := Option.map_eq_some_iff.mp hu
      exact h.after c _ rfl

/-- A TLS connection is asked for and established. -/
def secured (reconnect : Bool) : List TlsAct :=
  [.act (.tlsConnect Reconnect.lowVersions .datapath reconnect .inProgress .pending),
   .act (.connecting .connected .pending), .act (.handshake .succeeded), .recvReturns]

end TlsEndpoint
end RoflCommon
