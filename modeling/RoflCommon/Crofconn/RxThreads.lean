/-
The receiving side of `crofconn`: the RX thread of `rofsock` in
`handle_recv`, the thread of the connection in `handle_rx_messages`, the
state machine, and whoever opens and closes the socket.

Again every access to a variable that another thread uses is a step of its
own. `handle_recv` may be called with any message while no call is in
progress; what the callbacks of the application and the merging of segments
do is chosen from outside (`Outcome`). The state machine may enter any state
at any time: who asks for it is of no concern here, what it does to the
queues and to the pending segments is (`enter`).

The messages come with the octets they were decoded from, of any type. The
last field is no variable of the class: it records the messages handed to the
application on the current TCP connection.
-/
import RoflCommon.Crofconn.Fsm
import RoflCommon.Crofqueue
import RoflCommon.Crofsock.Recv
import Mathlib.Data.List.AList

namespace RoflCommon

/-- A message and the octets it was decoded from. -/
structure Received (α : Type) where
  frame : List α
  msg : Cofmsg
deriving DecidableEq, Repr

/-- Where the RX thread is in `handle_recv`. -/
inductive RecvPc (α : Type)
  | idle
  | dispatch (m : Received α)
  | store (m : Received α)
  | capacity (q : QueueId)
  | rxDisable
  | dropReadFd
  | testState
  | testWorking
  | wakeup
deriving DecidableEq, Repr

/-- Where the thread of the connection is in `handle_rx_messages`: `again`
says that `keep_running` is not 0 yet, `q` and `n` are `queue_id` and `num`. -/
inductive HandlerPc (α : Type)
  | idle
  | entry
  | queue (again : Bool) (q : QueueId)
  | test (again : Bool) (q : QueueId)
  | item (again : Bool) (q : QueueId) (n : Nat)
  | retrieve (again : Bool) (q : QueueId) (n : Nat)
  | deliver (again : Bool) (q : QueueId) (n : Nat) (m : Received α)
  | queueEnd (again : Bool) (q : QueueId)
  | roundEnd (again : Bool)
  | stop
  | finish
  | testDisabled
  | rxEnable
  | addReadFd
deriving DecidableEq, Repr

/-- Where `crofsock::close` is on an established socket. -/
inductive ClosePc
  | idle | rxDisable | dropReadFd | setIdle | reset
deriving DecidableEq, Repr

/-- `eRofConnNotFound`, another `std::runtime_error`, or anything else. -/
inductive Thrown
  | notFound | runtimeError | other
deriving DecidableEq, Repr

/-- How a message fares: `fails` throws before the application is called,
`throws` in its callback. -/
inductive Outcome
  | returns
  | throws (e : Thrown)
  | fails (e : Thrown)
deriving DecidableEq, Repr

structure RxConn (α : Type) where
  state : ConnState
  ofpVersion : UInt8
  rxqueues : Crofqueues (Received α)
  /-- The octets collected of each multipart message, by its xid. -/
  pendingSegments : AList fun _ : UInt32 => List α
  rxThreadWorking : Bool
  /-- A wakeup of the thread of the connection is pending. -/
  wakeup : Bool
  sockState : SockState
  rxDisabled : Bool
  /-- The descriptor is registered with the RX thread for reading. -/
  readFd : Bool
  recv : RecvPc α
  handler : HandlerPc α
  closing : ClosePc
  handed : List (List α)

namespace RxConn

variable {α : Type}

/-! ## handle_recv -/

/-- Whether `handle_recv` stores the message, rather than dealing with it on
the spot or dropping it. -/
def stores (state : ConnState) (ofpVersion : UInt8) (msg : Cofmsg) : Bool :=
  match state with
  | .negotiating2 => msg.version == ofpVersion && msg.type != Openflow13.OFPT_FEATURES_REPLY &&
      msg.type != Openflow13.OFPT_ERROR && msg.type != Openflow13.OFPT_ECHO_REQUEST
  | .established => msg.version == ofpVersion && msg.type != Openflow13.OFPT_ECHO_REQUEST &&
      msg.type != Openflow13.OFPT_ECHO_REPLY
  | _ => false

/-- The next step of the RX thread. -/
def runRecv (s : RxConn α) : Option (RxConn α) :=
  match s.recv with
  | .idle => none
  | .dispatch m => some { s with recv := if stores s.state s.ofpVersion m.msg then .store m else .idle }
  | .store m =>
    match rxqueueOf s.ofpVersion m.msg.type with
    | none => some { s with recv := .idle }
    | some q => ((s.rxqueues q).store m true).map fun queue => { s with
        rxqueues := Function.update s.rxqueues q queue, recv := .capacity q }
  | .capacity q => some { s with
      recv := if (s.rxqueues q).capacity = 0 then .rxDisable else .testState }
  | .rxDisable => some { s with rxDisabled := true, recv := .dropReadFd }
  | .dropReadFd => some { s with readFd := s.readFd && !s.sockState.established, recv := .testState }
  | .testState => some { s with recv := if s.state = .established then .testWorking else .idle }
  | .testWorking => some { s with recv := if s.rxThreadWorking then .idle else .wakeup }
  | .wakeup => some { s with wakeup := true, recv := .idle }

/-! ## handle_rx_messages -/

/-- The message is part of a multipart message with more to come. -/
def more (msg : Cofmsg) : Bool := be16toh (msg.body.getD 2 0) (msg.body.getD 3 0) % 2 == 1

/-- `handle_rx_multipart_message` looks at these messages. -/
def multipart (ofpVersion : UInt8) (msg : Cofmsg) : Bool :=
  ofpVersion != Openflow10.OFP_VERSION && ofpVersion != Openflow12.OFP_VERSION &&
    (msg.type == Openflow13.OFPT_MULTIPART_REQUEST || msg.type == Openflow13.OFPT_MULTIPART_REPLY)

/-- Hands the message to the application, alone or merged with the segments
pending, or adds it to these. -/
def deliver (s : RxConn α) (m : Received α) : RxConn α :=
  if multipart s.ofpVersion m.msg then
    -- 18 and 19 are BARRIER messages there
    if m.msg.version = Openflow10.OFP_VERSION then s
    else if more m.msg then
      let octets := (s.pendingSegments.lookup m.msg.xid).getD [] ++ m.frame
      { s with pendingSegments := s.pendingSegments.insert m.msg.xid octets }
    else match s.pendingSegments.lookup m.msg.xid with
      | some octets => { s with
          pendingSegments := s.pendingSegments.erase m.msg.xid
          handed := s.handed ++ [octets ++ m.frame] }
      | none => { s with handed := s.handed ++ [m.frame] }
  else { s with handed := s.handed ++ [m.frame] }

/-- After the queue `q`. -/
def nextQueue (again : Bool) (q : QueueId) : HandlerPc α :=
  match q.next with
  | some q => .queue again q
  | none => .roundEnd again

/-- After the round, unless it was the last one. -/
def nextRound (again : Bool) : HandlerPc α := if again then .queue false .oam else .finish

/-- After the message number `n` of the queue. -/
def nextItem (again : Bool) (q : QueueId) (n : Nat) : HandlerPc α :=
  if n + 1 < q.weight then .item again q (n + 1) else .queueEnd again q

/-- The `catch` branches. -/
def caught (again : Bool) : Thrown → HandlerPc α
  | .notFound => .finish
  | .runtimeError => nextRound again
  | .other => .idle

def runDeliver (s : RxConn α) (again : Bool) (q : QueueId) (n : Nat) (m : Received α) : Outcome → RxConn α
  | .returns => { s.deliver m with handler := nextItem again q n }
  | .throws e => { s.deliver m with handler := caught again e }
  | .fails e => { s with handler := caught again e }

/-- The next step of the thread of the connection. -/
def runHandler (s : RxConn α) (outcome : Outcome) : Option (RxConn α) :=
  match s.handler with
  | .idle => none
  | .entry => some { s with rxThreadWorking := true, handler := .queue true .oam }
  | .queue again q => some { s with handler := if s.state = .established then .test again q else .stop }
  | .test again q => some { s with
      handler := if (s.rxqueues q).empty then nextQueue again q else .item again q 0 }
  | .item again q n => some { s with handler := if s.state = .established then .retrieve again q n else .stop }
  | .retrieve again q n =>
    match (s.rxqueues q).retrieve with
    | none => some { s with handler := .queueEnd again q }
    | some (m, rest) => some { s with
        rxqueues := Function.update s.rxqueues q rest, handler := .deliver again q n m }
  | .deliver again q n m => some (s.runDeliver again q n m outcome)
  | .queueEnd again q => some { s with
      wakeup := s.wakeup || !(s.rxqueues q).empty, handler := nextQueue again q }
  | .roundEnd again => some { s with handler := if s.state = .established then nextRound again else .stop }
  | .stop => some { s with rxThreadWorking := false, handler := .idle }
  | .finish => some { s with rxThreadWorking := false, handler := .testDisabled }
  | .testDisabled => some { s with handler := if s.rxDisabled then .rxEnable else .idle }
  | .rxEnable => some { s with rxDisabled := false, handler := .addReadFd }
  | .addReadFd => some { s with readFd := s.readFd || s.sockState.established, handler := .idle }

/-! ## The state machine and the socket -/

/-- `run_finite_state_machine`; the call of `rofsock.close()` in
`STATE_CLOSING` is the steps of `closing`. The messages of the copied queues
are freed, and the queues go on pointing to them. -/
def enter (s : RxConn α) (state : ConnState) : RxConn α :=
  if s.state = state then s
  else match state with
    | .negotiationFailed | .closing | .disconnected => { s with
        state := .disconnected, ofpVersion := Openflow.OFP_VERSION_UNKNOWN, pendingSegments := ∅ }
    | .connectPending | .acceptPending => { s with
        state := state, ofpVersion := Openflow.OFP_VERSION_UNKNOWN, rxqueues := s.rxqueues.clearCopies.1 }
    | .connectFailed | .connectRefused | .acceptFailed | .acceptRefused => { s with state := .disconnected }
    | .negotiating | .negotiating2 | .established => { s with state := state }

/-- The TCP connection is there; the record starts over. -/
def establish (s : RxConn α) : RxConn α := { s with sockState := .tcpEstablished, readFd := true, handed := [] }

/-- The next step of `close()`. -/
def runClose (s : RxConn α) : Option (RxConn α) :=
  match s.closing with
  | .idle => none
  | .rxDisable => some { s with rxDisabled := s.rxDisabled || s.sockState.established, closing := .dropReadFd }
  | .dropReadFd => some { s with readFd := false, closing := .setIdle }
  | .setIdle => some { s with sockState := .idle, closing := .reset }
  | .reset => some { s with rxDisabled := false, closing := .idle }

inductive Act (α : Type)
  /-- `handle_recv` is called. -/
  | handleRecv (m : Received α)
  | recv
  | handleWakeup
  | handler (outcome : Outcome)
  | enter (state : ConnState)
  /-- `hello_rcvd` selects a version. -/
  | setVersion (version : UInt8)
  | expireSegment (xid : UInt32)
  | openWith (sockState : SockState)
  | establish
  /-- The TLS handshake. -/
  | tls (sockState : SockState)
  | close
  | closing
  /-- `rx_disable()` and `rx_enable()`, called by the application. -/
  | rxDisable
  | rxEnable
deriving DecidableEq, Repr

def step (s : RxConn α) : Act α → Option (RxConn α)
  | .handleRecv m =>
    match s.recv with
    | .idle => some { s with recv := .dispatch m }
    | _ => none
  | .recv => s.runRecv
  | .handleWakeup =>
    match s.handler with
    | .idle => if s.wakeup then some { s with wakeup := false, handler := .entry } else none
    | _ => none
  | .handler outcome => s.runHandler outcome
  | .enter state => some (s.enter state)
  | .setVersion version => some { s with ofpVersion := version }
  | .expireSegment xid => some { s with pendingSegments := s.pendingSegments.erase xid }
  | .openWith sockState =>
    if s.sockState = .idle ∧ sockState.opening then
      some { s with sockState := sockState }
    else none
  | .establish =>
    if s.sockState = .tcpConnecting ∨ s.sockState = .tcpAccepting then some s.establish else none
  | .tls sockState =>
    if s.sockState.tlsMove false sockState then some { s with sockState := sockState } else none
  | .close => if s.closing = .idle then some { s with closing := .rxDisable } else none
  | .closing => s.runClose
  | .rxDisable => some { s with rxDisabled := true, readFd := s.readFd && !s.sockState.established }
  | .rxEnable => some { s with rxDisabled := false, readFd := s.readFd || s.sockState.established }

/-- The constructor, and `set_rxqueue_max_size` for each queue. -/
def new (rxqueueMaxSize : QueueId → Nat) : RxConn α where
  state := .disconnected
  ofpVersion := Openflow.OFP_VERSION_UNKNOWN
  rxqueues q := ⟨[], rxqueueMaxSize q⟩
  pendingSegments := ∅
  rxThreadWorking := false
  wakeup := false
  sockState := .idle
  rxDisabled := false
  readFd := false
  recv := .idle
  handler := .idle
  closing := .idle
  handed := []

/-! ## The steps -/

variable {s : RxConn α}

/-- `enter` is what `run_finite_state_machine` does to the state and to the
version. -/
theorem enter_runFiniteStateMachine {c : Crofconn} (state : ConnState) (hs : c.state = s.state)
    (hv : c.ofpVersion = s.ofpVersion) :
    (c.runFiniteStateMachine state).1.state = (s.enter state).state ∧
      (c.runFiniteStateMachine state).1.ofpVersion = (s.enter state).ofpVersion := by
  unfold Crofconn.runFiniteStateMachine enter
  rw [hs]
  split
  · exact ⟨hs, hv⟩
  · rw [Crofconn.execAll_state, Crofconn.execAll_ofpVersion, hv]
    cases state <;> exact ⟨rfl, rfl⟩

theorem deliver_eq (s : RxConn α) (m : Received α) :
    ∃ segments handed, s.deliver m = { s with pendingSegments := segments, handed := handed } := by
  unfold deliver
  split
  · split
    · exact ⟨_, _, rfl⟩
    split
    · exact ⟨_, _, rfl⟩
    · split <;> exact ⟨_, _, rfl⟩
  · exact ⟨_, _, rfl⟩

/-- Where the thread of the connection goes on after a message. -/
def afterMessage (again : Bool) (q : QueueId) (n : Nat) : Outcome → HandlerPc α
  | .returns => nextItem again q n
  | .throws e | .fails e => caught again e

/-- Handing over a message changes nothing that another thread looks at. -/
theorem runDeliver_eq (s : RxConn α) (again : Bool) (q : QueueId) (n : Nat) (m : Received α) (outcome : Outcome) :
    ∃ segments handed, s.runDeliver again q n m outcome =
      { s with pendingSegments := segments, handed := handed, handler := afterMessage again q n outcome } := by
  obtain ⟨segments, handed, h⟩ := deliver_eq s m
  cases outcome with
  | returns => exact ⟨segments, handed, by rw [runDeliver, h]; rfl⟩
  | throws e => exact ⟨segments, handed, by rw [runDeliver, h]; rfl⟩
  | fails e => exact ⟨s.pendingSegments, s.handed, rfl⟩

end RxConn
end RoflCommon
