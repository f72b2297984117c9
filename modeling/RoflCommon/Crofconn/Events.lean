/-
What happens to a connection object, one event after the other: calls of
the application, notifications of the socket, messages received, timers that
expire, and the thread of the connection at work in `handle_rx_messages`.

A handler runs to its end before the next event. Around the variables of the
state machine stand the timers the object has armed and the xids it waits
for; `perform` lets the effects of a piece of code act on these. Which
requests and which segments have expired when their timer does, and whether
the socket is congested, is chosen from outside; the order of the requests
and their deadlines are modelled elsewhere.

The messages sent by `send_echo_request`, `echo_request_rcvd` and for a bad
version are left out, as are `dpid` and `auxid`: no handler here reads what
becomes of them. So are the reception queues, and with them
`rx_thread_working`, which is asked only where a message is stored. The
references that `get_versionbitmap` and `get_versionbitmap_peer` hand out are
not written to.
-/
import RoflCommon.Crofconn.Reconnect
import Mathlib.Logic.Function.Basic

namespace RoflCommon

/-- The types of error messages `error_rcvd` looks for. -/
def Openflow13.OFPET_HELLO_FAILED : UInt16 := 0
def Openflow13.OFPET_BAD_REQUEST : UInt16 := 1

/-- A message as far as `handle_recv` looks at it. -/
inductive Msg
  | hello (m : CofmsgHello)
  | error (version : UInt8) (xid : UInt32) (errType : UInt16)
  | featuresReply (version : UInt8) (xid : UInt32)
  | echoRequest (version : UInt8) (xid : UInt32)
  | echoReply (version : UInt8) (xid : UInt32)
  /-- Any other type. -/
  | other (version : UInt8) (xid : UInt32)
deriving DecidableEq, Repr

namespace Msg

def version : Msg → UInt8
  | .hello m => m.version
  | .error v _ _ | .featuresReply v _ | .echoRequest v _ | .echoReply v _ | .other v _ => v

def xid : Msg → UInt32
  | .hello m => m.xid
  | .error _ x _ | .featuresReply _ x | .echoRequest _ x | .echoReply _ x | .other _ x => x

end Msg

/-- What `rofsock` tells the connection. -/
inductive Notification
  | tcpConnectRefused | tcpConnectFailed | tcpConnected
  | tcpAcceptRefused | tcpAcceptFailed | tcpAccepted
  | tlsConnectFailed | tlsConnected | tlsAcceptFailed | tlsAccepted
  | closed
deriving DecidableEq, Repr

/-- The state its handler asks for. -/
def Notification.newState : Notification → ConnState
  | .tcpConnectRefused => .connectRefused
  | .tcpConnectFailed => .connectFailed
  | .tcpAcceptRefused => .acceptRefused
  | .tcpAcceptFailed => .acceptFailed
  | .tcpConnected | .tcpAccepted | .tlsConnected | .tlsAccepted => .negotiating
  | .tlsConnectFailed | .tlsAcceptFailed | .closed => .disconnected

namespace Crofconn

/-! ## The handlers of messages -/

/-- `error_rcvd`. -/
def errorRcvd (errType : UInt16) : Code :=
  seq (effect (.dropTimer .waitForHello)) fun c =>
    match c.state with
    | .negotiating =>
      if errType = Openflow13.OFPET_HELLO_FAILED then runFiniteStateMachine .negotiationFailed c else (c, [])
    | .negotiating2 =>
      if errType = Openflow13.OFPET_BAD_REQUEST then runFiniteStateMachine .negotiationFailed c else (c, [])
    | _ => (c, [])

def featuresReplyRcvd : Code :=
  seq (effect (.dropTimer .waitForFeatures)) (runFiniteStateMachine .established)

def echoReplyRcvd : Code :=
  seq (effect (.dropTimer .waitForEcho)) (effect (.addTimer .needLifeCheck))

/-! ## The handlers of timers -/

def helloExpired : Code := fun c =>
  match c.state with
  | .established => (c, [])
  | _ => if c.flagHelloRcvd then (c, []) else runFiniteStateMachine .negotiationFailed c

def featuresRequestExpired : Code := runFiniteStateMachine .negotiationFailed

/-- `send_echo_request`; the check is put off while the socket is congested
or a barrier request is pending. -/
def sendEchoRequest (putOff : Bool) : Code :=
  if putOff then effect (.addTimer .needLifeCheck) else effect (.addTimer .waitForEcho)

/-- `echo_request_expired`. The machine is in `STATE_DISCONNECTED` when it
calls `handle_closed`. -/
def echoRequestExpired : Code :=
  seq (runFiniteStateMachine .closing) (runFiniteStateMachine .disconnected)

end Crofconn

open Crofconn

/-- A connection object with its timers and what it waits for: requests by
xid and message type, multipart messages by xid. -/
structure Conn where
  fsm : Crofconn
  armed : TimerId → Bool
  pendingRequests : List (UInt32 × UInt8)
  pendingSegments : List UInt32
  /-- The thread of the connection is in `handle_rx_messages`. -/
  rxRunning : Bool

namespace Conn

/-- An object just constructed. -/
def new (xidHello xidFeaturesRequest : UInt32) : Conn :=
  ⟨.new xidHello xidFeaturesRequest, fun _ => false, [], [], false⟩

def addTimer (t : TimerId) (c : Conn) : Conn := { c with armed := Function.update c.armed t true }

def dropTimer (t : TimerId) (c : Conn) : Conn := { c with armed := Function.update c.armed t false }

/-- What an effect does to the timers and to what is pending. -/
def act (c : Conn) : Effect → Conn
  | .addTimer t => c.addTimer t
  | .dropTimer t => c.dropTimer t
  | .dropTimers => { c with armed := fun _ => false }
  -- `clear_pending_requests()` and `clear_pending_segments()`
  | .clearPending =>
    dropTimer .pendingSegments (dropTimer .pendingRequests { c with pendingRequests := [], pendingSegments := [] })
  | _ => c

/-- The object once a piece of code has come out as `r`. -/
def after (r : Crofconn × List Effect) (c : Conn) : Conn := r.2.foldl act { c with fsm := r.1 }

/-- The object runs a piece of code. -/
def perform (code : Code) (c : Conn) : Conn := c.after (code c.fsm)

/-- The object runs code that may throw; if it does, the exception goes to the
caller and leaves the object as it was. -/
def attempt (code : Crofconn → Option (Crofconn × List Effect)) (c : Conn) : Conn :=
  match code c.fsm with
  | none => c
  | some r => c.after r

/-- `has_pending_barrier_request`. -/
def hasPendingBarrierRequest (c : Conn) : Bool :=
  let type := if c.fsm.ofpVersion = Openflow12.OFP_VERSION then Openflow12.OFPT_BARRIER_REQUEST
    else if c.fsm.ofpVersion = Openflow13.OFP_VERSION then Openflow13.OFPT_BARRIER_REQUEST
    -- version 1.4
    else if c.fsm.ofpVersion = 5 then 20
    else Openflow10.OFPT_BARRIER_REQUEST
  c.pendingRequests.any fun r => r.2 == type

/-- A message put into a queue for the thread of the connection. -/
def store (m : Msg) (c : Conn) : Conn :=
  { c with pendingRequests := c.pendingRequests.filter fun r => r.1 != m.xid }

def handleRecv (m : Msg) (c : Conn) : Conn :=
  match c.fsm.state with
  | .connectPending | .acceptPending | .negotiating =>
    if m.version = Openflow.OFP_VERSION_UNKNOWN then c
    else match m with
      | .hello msg => c.perform (helloRcvd msg)
      | .error _ _ errType => c.perform (errorRcvd errType)
      | _ => c
  | .negotiating2 =>
    if m.version ≠ c.fsm.ofpVersion then c
    else match m with
      | .featuresReply _ _ => c.perform featuresReplyRcvd
      | .error _ _ errType => c.perform (errorRcvd errType)
      | .echoRequest _ _ => c
      | _ => c.store m
  | .established =>
    if m.version ≠ c.fsm.ofpVersion then c
    else match m with
      | .echoRequest _ _ => c
      | .echoReply _ _ => c.perform echoReplyRcvd
      | _ => c.store m
  | _ => c

/-- `handle_timeout`: `expired` are the xids whose time is up. -/
def handleTimeout (congested : Bool) (expired : UInt32 → Bool) (c : Conn) : TimerId → Conn
  | .needLifeCheck => c.perform (sendEchoRequest (congested || c.hasPendingBarrierRequest))
  | .waitForHello => c.perform helloExpired
  | .waitForEcho => c.perform echoRequestExpired
  | .waitForFeatures => c.perform featuresRequestExpired
  | .pendingRequests =>
    let rest := c.pendingRequests.filter fun r => !expired r.1
    { c with pendingRequests := rest, armed := Function.update c.armed .pendingRequests !rest.isEmpty }
  | .pendingSegments =>
    let rest := c.pendingSegments.filter fun x => !expired x
    { c with pendingSegments := rest, armed := Function.update c.armed .pendingSegments !rest.isEmpty }

end Conn

inductive Event
  | tcpConnect (own : Reconnect.OwnVersions) (mode : Mode)
  | tcpAccept (own : Reconnect.OwnVersions) (mode : Mode)
  | close
  | notify (n : Notification)
  | recv (m : Msg)
  /-- A timer expires. -/
  | expire (t : TimerId) (congested : Bool) (expired : UInt32 → Bool)
  /-- `send_message` registers a request; `first` if its deadline is now the
  earliest. -/
  | request (xid : UInt32) (type : UInt8) (first : Bool)
  /-- A segment is added to the multipart message of this xid, or the message
  is complete. -/
  | segment (xid : UInt32)
  | complete (xid : UInt32)
  /-- The thread of the connection enters `handle_rx_messages`, leaves it at
  its end, leaves it having found another state than `STATE_ESTABLISHED`, or
  is thrown out of it by what is no `std::runtime_error`. -/
  | rxMessages
  | rxDone
  | rxLeave
  | rxEscape

namespace Conn

def step (c : Conn) : Event → Option Conn
  | .tcpConnect own mode => some (c.attempt (Crofconn.tcpConnect own.1 mode))
  | .tcpAccept own mode => some (c.attempt (Crofconn.tcpAccept own.1 mode))
  | .close => some (c.perform (runFiniteStateMachine .closing))
  | .notify n => some (c.perform (runFiniteStateMachine n.newState))
  | .recv m => some (c.handleRecv m)
  | .expire t congested expired =>
    if c.armed t then some ((c.dropTimer t).handleTimeout congested expired t) else none
  | .request xid type first => some { c with
      pendingRequests := c.pendingRequests ++ [(xid, type)]
      armed := Function.update c.armed .pendingRequests
        (c.armed .pendingRequests || c.pendingRequests.isEmpty || first) }
  | .segment xid => some { c with
      pendingSegments := if xid ∈ c.pendingSegments then c.pendingSegments else xid :: c.pendingSegments
      armed := Function.update c.armed .pendingSegments true }
  | .complete xid => some { c with pendingSegments := c.pendingSegments.filter (· != xid) }
  | .rxMessages =>
    if c.rxRunning then none
    else some (dropTimer .needLifeCheck { c with rxRunning := true })
  | .rxDone =>
    if c.rxRunning then some (addTimer .needLifeCheck { c with rxRunning := false }) else none
  | .rxLeave =>
    if c.rxRunning ∧ c.fsm.state ≠ .established then some { c with rxRunning := false } else none
  | .rxEscape => if c.rxRunning then some { c with rxRunning := false } else none

/-! ## Code, piece by piece -/

@[simp] theorem fsm_act (c : Conn) (e : Effect) : (c.act e).fsm = c.fsm := by cases e <;> rfl

@[simp] theorem rxRunning_act (c : Conn) (e : Effect) : (c.act e).rxRunning = c.rxRunning := by
  cases e <;> rfl

theorem foldl_act_fsm (es : List Effect) (c : Conn) : (es.foldl act c).fsm = c.fsm := by
  induction es generalizing c with
  | nil => rfl
  | cons e es ih => rw [List.foldl_cons, ih, fsm_act]

theorem foldl_act_rxRunning (es : List Effect) (c : Conn) :
    (es.foldl act c).rxRunning = c.rxRunning := by
  induction es generalizing c with
  | nil => rfl
  | cons e es ih => rw [List.foldl_cons, ih, rxRunning_act]

/-- Effects do not look at the variables of the state machine. -/
theorem foldl_act_with (es : List Effect) (c : Conn) (fsm : Crofconn) :
    es.foldl act { c with fsm := fsm } = { es.foldl act c with fsm := fsm } := by
  induction es generalizing c with
  | nil => rfl
  | cons e es ih =>
    have h : act { c with fsm := fsm } e = { c.act e with fsm := fsm } := by cases e <;> rfl
    rw [List.foldl_cons, h, ih, List.foldl_cons]

@[simp] theorem fsm_perform (code : Code) (c : Conn) : (c.perform code).fsm = (code c.fsm).1 :=
  foldl_act_fsm _ _

@[simp] theorem rxRunning_perform (code : Code) (c : Conn) :
    (c.perform code).rxRunning = c.rxRunning :=
  foldl_act_rxRunning _ _

theorem perform_seq (f g : Code) (c : Conn) : c.perform (seq f g) = (c.perform f).perform g := by
  have hf : (c.perform f).fsm = (f c.fsm).1 := fsm_perform f c
  unfold perform at hf ⊢
  rw [hf]
  simp only [after, seq, List.foldl_append, foldl_act_with]

@[simp] theorem perform_assign (f : Crofconn → Crofconn) (c : Conn) :
    c.perform (assign f) = { c with fsm := f c.fsm } := rfl

@[simp] theorem perform_effect (e : Effect) (c : Conn) : c.perform (effect e) = c.act e := rfl

@[simp] theorem armed_perform_sendFeaturesRequest (c : Conn) :
    (c.perform sendFeaturesRequest).armed = Function.update c.armed .waitForFeatures true := rfl

@[simp] theorem armed_perform_sendHelloMessage (c : Conn) : (c.perform sendHelloMessage).armed = c.armed := by
  unfold perform sendHelloMessage
  split <;> rfl

/-- Entering `STATE_NEGOTIATING` without a HELLO of the peer arms the timer. -/
theorem armed_perform_waitForHello {c : Conn} (h : c.fsm.flagHelloRcvd = false) :
    (c.perform (FsmOp.exec .waitForHello)).armed = Function.update c.armed .waitForHello true := by
  simp [perform, FsmOp.exec, h, after, act, addTimer]

@[simp] theorem perform_execAll_nil (c : Conn) : c.perform (execAll []) = c := rfl

theorem perform_execAll_cons (op : FsmOp) (ops : List FsmOp) (c : Conn) :
    c.perform (execAll (op :: ops)) = (c.perform op.exec).perform (execAll ops) :=
  perform_seq _ _ c

/-- The state machine asked for the state it is in. -/
theorem enter_self {c : Conn} {s : ConnState} (h : c.fsm.state = s) : c.perform (runFiniteStateMachine s) = c := by
  unfold perform
  rw [runFiniteStateMachine_of_eq h]
  rfl

/-- The state machine asked for another state. -/
theorem enter_other {c : Conn} {s : ConnState} (h : c.fsm.state ≠ s) :
    c.perform (runFiniteStateMachine s) = c.perform (execAll (.setState s :: caseOps s)) := by
  unfold perform
  rw [runFiniteStateMachine_of_ne h]

end Conn
end RoflCommon
