/-
The sending half of `crofsock`: any number of threads in `send_message`, the
TX thread in `send_from_queue`, and whoever opens and closes the connection.

Every access to a shared variable that matters to another thread is a step
of its own: a call of `send_message` checks the connection, stores its
message, counts it, tests whether the TX thread is running, and returns;
the TX thread takes the nested loops of `send_from_queue` one check, one
retrieval, one write at a time. How a write falls, and whether a callback
throws, is chosen from outside (`SendResult`, `throws`). A message too long
for the transmission buffer ends the run of `send_from_queue` with an
exception, as `pack` does where it notices.

The last five fields are no variables of the class; they record what happens
on the current connection.
-/
import RoflCommon.Crofsock.Recv
import RoflCommon.Crofqueue
import RoflCommon.Lib.Outbox

namespace RoflCommon

/-- `msg_result_t`. Nothing here returns `MSG_IGNORED`. -/
inductive MsgResult
  | ignored | queued | queuedCongestion | queueFull | notEstablished | shutdownInProgress
deriving DecidableEq, Repr

/-- How `::send` or `SSL_write` falls. `bytes k` is `k + 1` octets, or as many
as there are, if these are fewer; `zero`, `wantRead` and `wantOther`
(`SSL_ERROR_WANT_ACCEPT`, `SSL_ERROR_WANT_CONNECT`) exist for TLS only. -/
inductive SendResult
  | bytes (k : Nat)
  | again
  | zero
  | wantRead
  | wantOther
  | fatal
deriving DecidableEq, Repr

/-- Where the TX thread is in `send_from_queue`: `q` and `n` are `queue_id` and
`num`, `r` is `reschedule`. -/
inductive TxPc
  | idle
  | entry
  | slot (q : QueueId) (n : Nat) (r : Bool)
  | fetch (q : QueueId) (n : Nat) (r : Bool)
  | send (q : QueueId) (n : Nat) (r : Bool)
  | queueEnd (q : QueueId) (r : Bool)
  | roundEnd (r : Bool)
  | finish1
  | finish2
deriving DecidableEq, Repr

structure Tx where
  state : SockState
  flagClosing : Bool
  txDisabled : Bool
  txIsRunning : Bool
  flagCongested : Bool
  flagTxBlockQueueing : Bool
  txbuffer : Cbuffer UInt8
  txqueues : Crofqueues Cofmsg
  txqueuePendingPkts : UInt32
  txqueueSizeCongestionOccurred : UInt32
  txqueueSizeTxThreshold : UInt32
  /-- A wakeup of the TX thread is pending. -/
  wakeup : Bool
  /-- The descriptor is registered with the TX thread for writing. -/
  writeFd : Bool
  pc : TxPc
  /-- The calls of `send_message`, by what they do next. -/
  inStore : List (Cofmsg × Bool)
  inCount : List Cofmsg
  inTest : List Cofmsg
  inReturn : List Cofmsg
  begun : List Cofmsg
  stored : List Cofmsg
  packed : List Cofmsg
  written : List UInt8
  results : List (Cofmsg × MsgResult)

namespace Tx

/-- The queue a message is stored in. -/
def queueOf (m : Cofmsg) : QueueId := txqueueOf m.version m.type

/-- ECHO messages are stored even in a full queue. -/
def isEcho (m : Cofmsg) : Bool := m.type == Openflow13.OFPT_ECHO_REQUEST || m.type == Openflow13.OFPT_ECHO_REPLY

/-! ## send_message -/

/-- The call is entered, up to both checks of the connection. -/
def sendMessage (s : Tx) (m : Cofmsg) (enforce : Bool) : Tx :=
  let s := { s with begun := s.begun ++ [m] }
  if s.txDisabled then { s with results := s.results ++ [(m, .shutdownInProgress)] }
  else if ¬ s.state.established then { s with results := s.results ++ [(m, .notEstablished)] }
  else { s with inStore := s.inStore ++ [(m, enforce || isEcho m)] }

/-- The `i`-th of the calls about to store does so. -/
def storeMessage (s : Tx) (i : Nat) : Option Tx :=
  s.inStore[i]?.map fun (m, enforce) =>
    let s := { s with inStore := s.inStore.eraseIdx i }
    match (s.txqueues (queueOf m)).store m enforce with
    | none => { s with results := s.results ++ [(m, .queueFull)] }
    | some q => { s with
        txqueues := Function.update s.txqueues (queueOf m) q
        inCount := s.inCount ++ [m]
        stored := s.stored ++ [m] }

/-- `txqueue_pending_pkts++`. -/
def countMessage (s : Tx) (i : Nat) : Option Tx :=
  s.inCount[i]?.map fun m => { s with
    inCount := s.inCount.eraseIdx i
    inTest := s.inTest ++ [m]
    txqueuePendingPkts := s.txqueuePendingPkts + 1 }

/-- `if (not tx_is_running) wakeup`. -/
def testRunning (s : Tx) (i : Nat) : Option Tx :=
  s.inTest[i]?.map fun m => { s with
    inTest := s.inTest.eraseIdx i
    inReturn := s.inReturn ++ [m]
    wakeup := s.wakeup || !s.txIsRunning }

/-- The call returns `MSG_QUEUED` or `MSG_QUEUED_CONGESTION`. -/
def returnQueued (s : Tx) (i : Nat) : Option Tx :=
  s.inReturn[i]?.map fun m => { s with
    inReturn := s.inReturn.eraseIdx i
    results := s.results ++ [(m, if s.flagTxBlockQueueing then .queuedCongestion else .queued)] }

/-! ## send_from_queue -/

/-- The end of the innermost loop's body. -/
def nextSlot (q : QueueId) (n : Nat) (r : Bool) : TxPc :=
  if n + 1 < q.weight then .slot q (n + 1) r else .queueEnd q r

/-- A message is packed into the buffer. -/
def pack (s : Tx) (m : Cofmsg) : Tx :=
  { s with
    txbuffer := (s.txbuffer.write m.pack).wseek m.pack.length
    packed := s.packed ++ [m] }

/-- `if (txbuffer.empty())` and its body. -/
def fetch (s : Tx) (q : QueueId) (n : Nat) (r : Bool) : Tx :=
  if s.txbuffer.empty then
    match (s.txqueues q).retrieve with
    | none => { s with pc := .queueEnd q r }
    | some (m, rest) =>
      let s := { s with txqueues := Function.update s.txqueues q rest }
      if m.length ≤ s.txbuffer.size - s.txbuffer.wbytes then { s.pack m with pc := .send q n r }
      else { s with pc := .idle }
  else { s with pc := .send q n r }

/-- At least some octets were sent. -/
def wrote (s : Tx) (n : Nat) : Tx :=
  let b := s.txbuffer.rseek n
  { s with
    txbuffer := b
    flagCongested := false
    txqueuePendingPkts := if b.empty then s.txqueuePendingPkts - 1 else s.txqueuePendingPkts
    written := s.written ++ s.txbuffer.content.take n }

/-- `EAGAIN` and `SSL_ERROR_WANT_WRITE`. -/
def congested (s : Tx) : Tx :=
  { s with
    txIsRunning := false
    flagCongested := true
    writeFd := true
    flagTxBlockQueueing := true
    txqueueSizeCongestionOccurred :=
      if s.flagTxBlockQueueing then s.txqueueSizeCongestionOccurred else s.txqueuePendingPkts
    txqueueSizeTxThreshold :=
      if s.flagTxBlockQueueing then s.txqueueSizeTxThreshold else s.txqueuePendingPkts / 2
    pc := .idle }

/-- The `switch` over the state, with the write in the two established ones. -/
def send (s : Tx) (q : QueueId) (n : Nat) (r : Bool) (result : SendResult) : Option Tx :=
  if s.state.established then
    match result with
    | .bytes k => some { s.wrote (min (k + 1) s.txbuffer.rmemlen) with pc := nextSlot q n r }
    | .again => some s.congested
    | .fatal => some { s with txIsRunning := false, pc := .idle }
    | .zero => if s.state = .tlsEstablished then some { s.wrote 0 with pc := nextSlot q n r } else none
    | .wantRead => if s.state = .tlsEstablished then some { s with pc := .idle } else none
    | .wantOther =>
      if s.state = .tlsEstablished then some { s with txIsRunning := false, pc := .idle } else none
  else some { s with pc := nextSlot q n r }

/-- The end of a round over the queues, with the congestion indication. -/
def endRound (s : Tx) (r throws : Bool) : Tx :=
  let pc : TxPc := if r then .slot .oam 0 false else .finish1
  if ¬ s.flagCongested ∧ s.flagTxBlockQueueing ∧ s.txqueuePendingPkts ≤ s.txqueueSizeTxThreshold then
    -- `congestion_solved_indication`
    { s with flagTxBlockQueueing := false, pc := if throws then .idle else pc }
  else { s with pc := pc }

/-- The next step of the TX thread. -/
def runTx (s : Tx) (result : SendResult) (throws : Bool) : Option Tx :=
  match s.pc with
  | .idle => none
  | .entry =>
    if s.state = .idle then some { s with pc := .idle }
    else some { s with txIsRunning := true, pc := .slot .oam 0 false }
  | .slot q n r =>
    if s.txDisabled ∨ ¬ s.state.established then some { s with txIsRunning := false, pc := .idle }
    else some { s with pc := .fetch q n r }
  | .fetch q n r => some (s.fetch q n r)
  | .send q n r => s.send q n r result
  | .queueEnd q r =>
    let r := r || !(s.txqueues q).empty
    some { s with pc := match q.next with | some q => .slot q 0 r | none => .roundEnd r }
  | .roundEnd r => some (s.endRound r throws)
  | .finish1 => some { s with txIsRunning := false, pc := .finish2 }
  | .finish2 =>
    some { s with
      wakeup := s.wakeup || (decide (s.txqueuePendingPkts > 0) && !s.flagTxBlockQueueing)
      pc := .idle }

/-! ## Opening and closing -/

/-- `tcp_connect`, `tcp_accept` and `listen`: the loop over the queues empties
copies of them and frees the messages, which the queues go on pointing to. -/
def openWith (s : Tx) (state : SockState) : Tx :=
  { s with state := state, txqueues := s.txqueues.clearCopies.1 }

/-- The connection is there; the record starts over. -/
def establish (s : Tx) : Tx :=
  { s with state := .tcpEstablished, begun := [], stored := [], packed := [], written := [], results := [] }

/-- The last steps of `close()`. -/
def closed (s : Tx) : Tx :=
  { s with state := .idle, writeFd := false, txDisabled := false, flagClosing := false }

inductive Act
  | sendMessage (m : Cofmsg) (enforce : Bool)
  | store (i : Nat)
  | count (i : Nat)
  | test (i : Nat)
  | return (i : Nat)
  /-- The TX thread turns to a pending wakeup, or to the writable descriptor. -/
  | handleWakeup
  | handleWriteEvent
  | tx (result : SendResult) (throws : Bool)
  /-- `SSL_ERROR_WANT_WRITE` in the RX thread. -/
  | rxWantWrite
  | txDisable
  | txEnable
  | openWith (state : SockState)
  | establish
  | tls (state : SockState)
  | closeBegin
  | closeEnd
deriving DecidableEq, Repr

def step (s : Tx) : Act → Option Tx
  | .sendMessage m enforce => some (s.sendMessage m enforce)
  | .store i => s.storeMessage i
  | .count i => s.countMessage i
  | .test i => s.testRunning i
  | .return i => s.returnQueued i
  | .handleWakeup =>
    if s.wakeup ∧ s.pc = .idle then
      some { s with wakeup := false, pc := if s.flagClosing then .idle else .entry }
    else none
  | .handleWriteEvent =>
    if s.writeFd ∧ s.pc = .idle then
      if s.flagClosing then some s
      else some { s with flagCongested := false, writeFd := false, pc := .entry }
    else none
  | .tx result throws => s.runTx result throws
  | .rxWantWrite => if s.state = .tlsEstablished then some { s with writeFd := true } else none
  | .txDisable => some { s with txDisabled := true }
  | .txEnable => some { s with txDisabled := false, wakeup := true }
  | .openWith state => if s.state = .idle ∧ state.opening then some (s.openWith state) else none
  | .establish =>
    if s.state = .tcpConnecting ∨ s.state = .tcpAccepting then some s.establish else none
  | .tls state => if s.state.tlsMove s.flagClosing state then some { s with state := state } else none
  | .closeBegin => if s.flagClosing then none else some { s with flagClosing := true }
  | .closeEnd => if s.flagClosing then some s.closed else none

/-- The constructor. -/
def new : Tx where
  state := .idle
  flagClosing := false
  txDisabled := false
  txIsRunning := false
  flagCongested := false
  flagTxBlockQueueing := false
  txbuffer := Cbuffer.new 65536
  txqueues _ := Crofqueue.new
  txqueuePendingPkts := 0
  txqueueSizeCongestionOccurred := 0
  txqueueSizeTxThreshold := 0
  wakeup := false
  writeFd := false
  pc := .idle
  inStore := []
  inCount := []
  inTest := []
  inReturn := []
  begun := []
  stored := []
  packed := []
  written := []
  results := []

end Tx
end RoflCommon
