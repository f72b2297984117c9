/-
Receive isolation between connections: what one socket hands to the
application on a TCP connection is made only of octets received on that
connection, and the receive queues hold nothing older.

Each octet carries the number of the connection it was received on. The steps
are those of the RX thread and of the connection taken together: a frame is
collected in `rxbuffer`, decoded, passed to `handle_recv`, stored in a queue,
taken out and handed over or kept as a segment, and on the way the connection
may be closed and opened again at any point.

Nothing on this way is emptied for a new connection. `close`, `tcp_connect`
and `tcp_accept` leave `rxbuffer` alone, the state machine empties copies of
the queues and frees what the queues themselves go on pointing to, what a
thread has in hands stays there, and the reconnect of the socket does not even
enter `STATE_CONNECT_PENDING`. So isolation holds in the runs in which nothing
is left when a connection is established (`receive_isolated`), and
`receive_not_isolated` is one in which something is: a part of a frame, and a
message on its way to the application.
-/
import RoflCommon.Crofconn.RxThreads
import RoflCommon.Crofsock.Framing

namespace RoflCommon

/-- An octet, and the number of the TCP connection it was received on. -/
structure Tagged where
  conn : Nat
  octet : UInt8
deriving DecidableEq, Repr

instance : Octet Tagged where
  default := ⟨0, 0⟩
  val := Tagged.octet

/-- The message the RX thread has in hands. -/
def RecvPc.message {α : Type} : RecvPc α → Option (Received α)
  | .dispatch m | .store m => some m
  | .idle | .capacity _ | .rxDisable | .dropReadFd | .testState | .testWorking | .wakeup => none

/-- The message the thread of the connection has in hands. -/
def HandlerPc.message {α : Type} : HandlerPc α → Option (Received α)
  | .deliver _ _ _ m => some m
  | .idle | .entry | .queue _ _ | .test _ _ | .item _ _ _ | .retrieve _ _ _ | .queueEnd _ _ | .roundEnd _ | .stop
  | .finish | .testDisabled | .rxEnable | .addReadFd => none

/-- The new connection is still to come. -/
def ConnState.pending : ConnState → Bool
  | .connectPending | .acceptPending => true
  | _ => false

/-! ## What a connection has in hands -/

namespace RxConn

variable {α : Type} {p : α → Prop} {c c' : RxConn α}

/-- Only octets with the property `p`, wherever the connection keeps a
message, and in all it has handed over. -/
structure Only (p : α → Prop) (c : RxConn α) : Prop where
  recv : ∀ m, c.recv.message = some m → ∀ o ∈ m.frame, p o
  rxqueues : ∀ q, ∀ m ∈ (c.rxqueues q).queue, ∀ o ∈ m.frame, p o
  handler : ∀ m, c.handler.message = some m → ∀ o ∈ m.frame, p o
  segments : ∀ xid octets, c.pendingSegments.lookup xid = some octets → ∀ o ∈ octets, p o
  handed : ∀ frame ∈ c.handed, ∀ o ∈ frame, p o

/-- Both threads may put down what they have in hands; the rest stays. -/
theorem Only.of_same (h : Only p c) (hrecv : ∀ m, c'.recv.message = some m → c.recv.message = some m)
    (hqueues : c'.rxqueues = c.rxqueues) (hhandler : ∀ m, c'.handler.message = some m → c.handler.message = some m)
    (hsegments : c'.pendingSegments = c.pendingSegments) (hhanded : c'.handed = c.handed) : Only p c' where
  recv m hm := h.recv m (hrecv m hm)
  rxqueues := by rw [hqueues]; exact h.rxqueues
  handler m hm := h.handler m (hhandler m hm)
  segments := by rw [hsegments]; exact h.segments
  handed := by rw [hhanded]; exact h.handed

/-- The RX thread goes on, with at most the message it had. -/
theorem Only.recv_goesTo (h : Only p c) {pc : RecvPc α}
    (hpc : ∀ m, pc.message = some m → c.recv.message = some m) : Only p { c with recv := pc } :=
  h.of_same hpc rfl (fun _ => id) rfl rfl

/-- The thread of the connection goes on, with at most the message it had. -/
theorem Only.handler_goesTo (h : Only p c) {pc : HandlerPc α}
    (hpc : ∀ m, pc.message = some m → c.handler.message = some m) : Only p { c with handler := pc } :=
  h.of_same (fun _ => id) rfl hpc rfl rfl

theorem Only.runRecv (h : Only p c) (hs : c.runRecv = some c') : Only p c' := by
  unfold RxConn.runRecv at hs
  split at hs
  next => cases hs
  next m hpc =>
    obtain rfl := Option.some.inj hs
    refine h.recv_goesTo fun m' hm' => ?_
    rw [hpc]
    split at hm'
    · exact hm'
    · cases hm'
  next m hpc =>
    split at hs
    · obtain rfl := Option.some.inj hs
      exact h.recv_goesTo fun m' hm' => by cases hm'
    next q _ =>
      obtain ⟨queue, hstore, rfl⟩ := Option.map_eq_some_iff.mp hs
      refine ⟨fun m' hm' => (by cases hm'), fun q' m' hm' => ?_, h.handler, h.segments, h.handed⟩
      by_cases hq : q' = q
      · subst hq
        simp only [Function.update_self, Crofqueue.store_queue hstore, List.mem_append,
          List.mem_singleton] at hm'
        rcases hm' with hold | rfl
        · exact h.rxqueues q' m' hold
        · exact h.recv m' (by rw [hpc]; rfl)
      · simp only [Function.update_of_ne hq] at hm'
        exact h.rxqueues q' m' hm'
  next q hpc =>
    obtain rfl := Option.some.inj hs
    refine h.recv_goesTo fun m' hm' => ?_
    split at hm' <;> cases hm'
  next hpc =>
    obtain rfl := Option.some.inj hs
    exact h.of_same (fun m' hm' => by cases hm') rfl (fun _ => id) rfl rfl
  next hpc =>
    obtain rfl := Option.some.inj hs
    exact h.of_same (fun m' hm' => by cases hm') rfl (fun _ => id) rfl rfl
  next hpc =>
    obtain rfl := Option.some.inj hs
    refine h.recv_goesTo fun m' hm' => ?_
    split at hm' <;> cases hm'
  next hpc =>
    obtain rfl := Option.some.inj hs
    refine h.recv_goesTo fun m' hm' => ?_
    split at hm' <;> cases hm'
  next hpc =>
    obtain rfl := Option.some.inj hs
    exact h.of_same (fun m' hm' => by cases hm') rfl (fun _ => id) rfl rfl

theorem Only.erase_segments (h : Only p c) (xid : UInt32) :
    ∀ xid' octets, (c.pendingSegments.erase xid).lookup xid' = some octets → ∀ o ∈ octets, p o := by
  intro xid' octets hoctets
  by_cases hxid : xid' = xid
  · rw [hxid, AList.lookup_erase] at hoctets
    cases hoctets
  · rw [AList.lookup_erase_ne hxid] at hoctets
    exact h.segments xid' octets hoctets

/-- A message handed over leaves its octets with the segments or with the
application. -/
theorem Only.deliver (h : Only p c) {m : Received α} (hm : ∀ o ∈ m.frame, p o) : Only p (c.deliver m) := by
  have hhanded : ∀ frame, (∀ o ∈ frame, p o) → ∀ f ∈ c.handed ++ [frame], ∀ o ∈ f, p o := by
    intro frame hframe f hf
    rcases List.mem_append.mp hf with hold | hnew
    · exact h.handed f hold
    · obtain rfl := List.mem_singleton.mp hnew
      exact hframe
  unfold RxConn.deliver
  split
  · split
    · exact h
    split
    · refine ⟨h.recv, h.rxqueues, h.handler, fun xid octets hoctets => ?_, h.handed⟩
      by_cases hxid : xid = m.msg.xid
      · subst hxid
        rw [AList.lookup_insert] at hoctets
        obtain rfl := Option.some.inj hoctets
        intro o ho
        rcases List.mem_append.mp ho with hold | hnew
        · cases hpending : c.pendingSegments.lookup m.msg.xid with
          | none => simp [hpending] at hold
          | some pending => exact h.segments _ _ hpending o (by simpa [hpending] using hold)
        · exact hm o hnew
      · rw [AList.lookup_insert_ne hxid] at hoctets
        exact h.segments xid octets hoctets
    · split
      next pending hpending =>
        refine ⟨h.recv, h.rxqueues, h.handler, h.erase_segments _, hhanded _ fun o ho => ?_⟩
        exact (List.mem_append.mp ho).elim (h.segments _ _ hpending o) (hm o)
      next => exact ⟨h.recv, h.rxqueues, h.handler, h.segments, hhanded _ hm⟩
  · exact ⟨h.recv, h.rxqueues, h.handler, h.segments, hhanded _ hm⟩

theorem message_nextQueue (again : Bool) (q : QueueId) : (nextQueue again q : HandlerPc α).message = none := by
  cases q <;> rfl

theorem message_nextRound (again : Bool) : (nextRound again : HandlerPc α).message = none := by
  cases again <;> rfl

/-- After a message the thread of the connection has none. -/
theorem message_afterMessage (again : Bool) (q : QueueId) (n : Nat) (outcome : Outcome) :
    (afterMessage again q n outcome : HandlerPc α).message = none := by
  cases outcome with
  | returns =>
    simp only [afterMessage, nextItem]
    split <;> rfl
  | throws e | fails e =>
    cases e with
    | runtimeError => exact message_nextRound again
    | notFound | other => rfl

theorem Only.runDeliver (h : Only p c) {again : Bool} {q : QueueId} {n : Nat} {m : Received α}
    (hpc : c.handler = .deliver again q n m) (outcome : Outcome) : Only p (c.runDeliver again q n m outcome) := by
  have hm : ∀ o ∈ m.frame, p o := h.handler m (by rw [hpc]; rfl)
  have hnone : (afterMessage again q n outcome : HandlerPc α).message = none := message_afterMessage again q n outcome
  cases outcome with
  | returns | throws e => exact (h.deliver hm).handler_goesTo fun _ hm' => by cases hnone.symm.trans hm'
  | fails e => exact h.handler_goesTo fun _ hm' => by cases hnone.symm.trans hm'

theorem Only.runHandler (h : Only p c) {outcome : Outcome} (hs : c.runHandler outcome = some c') : Only p c' := by
  unfold RxConn.runHandler at hs
  split at hs
  next => cases hs
  next hpc =>
    obtain rfl := Option.some.inj hs
    exact h.of_same (fun _ => id) rfl nofun rfl rfl
  next again q hpc =>
    obtain rfl := Option.some.inj hs
    exact h.handler_goesTo fun m hm => by split at hm <;> cases hm
  next again q hpc =>
    obtain rfl := Option.some.inj hs
    refine h.handler_goesTo fun m hm => ?_
    split at hm
    · cases (message_nextQueue again q).symm.trans hm
    · cases hm
  next again q n hpc =>
    obtain rfl := Option.some.inj hs
    exact h.handler_goesTo fun m hm => by split at hm <;> cases hm
  next again q n hpc =>
    split at hs
    · obtain rfl := Option.some.inj hs
      exact h.handler_goesTo nofun
    next m rest hretrieve =>
      obtain rfl := Option.some.inj hs
      have hqueue := Crofqueue.retrieve_eq_some hretrieve
      refine ⟨h.recv, fun q' m' hm' => ?_, fun m' hm' => ?_, h.segments, h.handed⟩
      · by_cases hq : q' = q
        · subst hq
          simp only [Function.update_self] at hm'
          exact h.rxqueues q' m' (by rw [hqueue]; exact List.mem_cons_of_mem _ hm')
        · simp only [Function.update_of_ne hq] at hm'
          exact h.rxqueues q' m' hm'
      · obtain rfl := Option.some.inj hm'
        exact h.rxqueues q m (by rw [hqueue]; exact List.mem_cons_self)
  next again q n m hpc =>
    obtain rfl := Option.some.inj hs
    exact h.runDeliver hpc outcome
  next again q hpc =>
    obtain rfl := Option.some.inj hs
    exact h.of_same (fun _ => id) rfl (fun m hm => by cases (message_nextQueue again q).symm.trans hm) rfl rfl
  next again hpc =>
    obtain rfl := Option.some.inj hs
    refine h.handler_goesTo fun m hm => ?_
    split at hm
    · cases (message_nextRound again).symm.trans hm
    · cases hm
  next hpc =>
    obtain rfl := Option.some.inj hs
    exact h.of_same (fun _ => id) rfl nofun rfl rfl
  next hpc =>
    obtain rfl := Option.some.inj hs
    exact h.of_same (fun _ => id) rfl nofun rfl rfl
  next hpc =>
    obtain rfl := Option.some.inj hs
    exact h.handler_goesTo fun m hm => by split at hm <;> cases hm
  next hpc =>
    obtain rfl := Option.some.inj hs
    exact h.of_same (fun _ => id) rfl nofun rfl rfl
  next hpc =>
    obtain rfl := Option.some.inj hs
    exact h.of_same (fun _ => id) rfl nofun rfl rfl

/-- The state machine keeps the queues and drops segments at most. -/
theorem Only.enter (h : Only p c) (state : ConnState) : Only p (c.enter state) := by
  unfold RxConn.enter
  split
  · exact h
  · cases state with
    | negotiationFailed | closing | disconnected => exact ⟨h.recv, h.rxqueues, h.handler, nofun, h.handed⟩
    | connectPending | acceptPending | connectFailed | connectRefused | acceptFailed | acceptRefused | negotiating
    | negotiating2 | established => exact ⟨h.recv, h.rxqueues, h.handler, h.segments, h.handed⟩

/-- The only octets that come in are those of a message passed to
`handle_recv`. -/
theorem Only.step {a : Act α} (h : Only p c) (hrecv : ∀ m, a = .handleRecv m → ∀ o ∈ m.frame, p o)
    (hs : c.step a = some c') : Only p c' := by
  unfold RxConn.step at hs
  cases a with
  | handleRecv m =>
    dsimp only at hs
    split at hs
    · obtain rfl := Option.some.inj hs
      refine ⟨fun m' hm' => ?_, h.rxqueues, h.handler, h.segments, h.handed⟩
      obtain rfl := Option.some.inj hm'
      exact hrecv m rfl
    · cases hs
  | recv => exact h.runRecv hs
  | handleWakeup =>
    dsimp only at hs
    split at hs
    · split at hs
      · obtain rfl := Option.some.inj hs
        exact h.of_same (fun _ => id) rfl nofun rfl rfl
      · cases hs
    · cases hs
  | handler outcome => exact h.runHandler hs
  | enter state =>
    obtain rfl := Option.some.inj hs
    exact h.enter state
  | setVersion version | rxDisable | rxEnable =>
    obtain rfl := Option.some.inj hs
    exact h.of_same (fun _ => id) rfl (fun _ => id) rfl rfl
  | expireSegment xid =>
    obtain rfl := Option.some.inj hs
    exact ⟨h.recv, h.rxqueues, h.handler, h.erase_segments xid, h.handed⟩
  | openWith state | tls state | close =>
    dsimp only at hs
    split at hs
    · obtain rfl := Option.some.inj hs
      exact h.of_same (fun _ => id) rfl (fun _ => id) rfl rfl
    · cases hs
  | establish =>
    dsimp only at hs
    split at hs
    · obtain rfl := Option.some.inj hs
      exact ⟨h.recv, h.rxqueues, h.handler, h.segments, nofun⟩
    · cases hs
  | closing =>
    dsimp only at hs
    unfold runClose at hs
    split at hs
    · cases hs
    all_goals
      obtain rfl := Option.some.inj hs
      exact h.of_same (fun _ => id) rfl (fun _ => id) rfl rfl

end RxConn

/-! ## The RX thread and the connection taken together -/

/-- `conn` has the socket's state too. `epoch` is the number of the TCP
connection established last, `incoming` what is still to be read from it. -/
structure RxSession where
  conn : RxConn Tagged
  rxbuffer : Cbuffer Tagged
  nbytes : Nat
  pc : RxPc Tagged
  incoming : List Tagged
  epoch : Nat

namespace RxSession

/-- What `recv_message` works on. -/
def rx (s : RxSession) : Rx Tagged := ⟨s.rxbuffer, s.conn.rxDisabled, s.conn.sockState, s.nbytes, s.pc⟩

/-- What `recv_message` makes of it. The one thing it does to the socket is to
call `close()`, which returns at once if another call is under way. -/
def withRx (s : RxSession) (rx : Rx Tagged) : RxSession :=
  let readFd := s.conn.readFd && rx.state == s.conn.sockState
  { s with
    rxbuffer := rx.rxbuffer
    nbytes := rx.nbytes
    pc := rx.pc
    conn := if s.conn.closing = .idle then
        { s.conn with sockState := rx.state, rxDisabled := rx.rxDisabled, readFd := readFd }
      else s.conn }

inductive Act
  /-- A step of the connection that does not concern `recv_message`. -/
  | conn (a : RxConn.Act Tagged)
  /-- The TCP connection is there; the octets are what the peer sends on it. -/
  | establish (octets : List UInt8)
  /-- A read event or a wakeup: `recv_message` is entered. -/
  | call
  | round (r : Recv)
  | parse
  /-- `handle_recv` returns, or an exception leaves it. -/
  | handled (escapes : Bool)
deriving DecidableEq, Repr

def step (unpack : Unpack) (s : RxSession) : Act → Option RxSession
  | .conn a =>
    match a with
    | .handleRecv _ | .establish => none
    | a => (s.conn.step a).map fun conn => { s with conn := conn }
  | .establish octets => (s.conn.step .establish).map fun conn => { s with
      conn := conn, epoch := s.epoch + 1, incoming := octets.map (Tagged.mk (s.epoch + 1)) }
  | .call =>
    if s.pc = .idle ∧ s.conn.closing = .idle ∧ s.conn.sockState.established then
      some { s with nbytes := 0, pc := .loop }
    else none
  | .round r =>
    if s.pc = .loop then
      (s.rx.round s.incoming r).map fun (rx, incoming) => { s.withRx rx with incoming := incoming }
    else none
  | .parse =>
    if s.pc = .parse then
      let rx := s.rx.parse unpack
      (match rx.pc with
        | .handle frame msg => s.conn.step (.handleRecv ⟨frame, msg⟩)
        | _ => some s.conn).map fun conn => { s with conn := conn, rxbuffer := rx.rxbuffer, pc := rx.pc }
    else none
  | .handled escapes =>
    match s.pc, s.conn.recv with
    | .handle _ _, .idle => some { s with pc := if escapes then .idle else .loop }
    | _, _ => none

/-- The constructors of `crofconn` and `crofsock`. -/
def new (rxqueueMaxSize : QueueId → Nat) : RxSession :=
  ⟨RxConn.new rxqueueMaxSize, Cbuffer.new 65536, 0, .idle, [], 0⟩

/-! ## Isolation -/

/-- All messages handed over on the TCP connection are made of its own octets. -/
def OwnMessages (s : RxSession) : Prop := ∀ frame ∈ s.conn.handed, ∀ o ∈ frame, o.conn = s.epoch

/-- All messages in the queues are. -/
def OwnQueues (s : RxSession) : Prop :=
  ∀ q, ∀ m ∈ (s.conn.rxqueues q).queue, ∀ o ∈ m.frame, o.conn = s.epoch

/-- Where the connection leaves `STATE_CONNECT_PENDING` or
`STATE_ACCEPT_PENDING`, its queues hold nothing older. -/
def LeavesClean (s : RxSession) (_ : Act) (s' : RxSession) : Prop :=
  s.conn.state.pending = true → s'.conn.state.pending = false → OwnQueues s'

/-- Nothing of what was received is left. -/
structure NothingLeft (s : RxSession) : Prop where
  rxbuffer : s.rxbuffer.content = []
  rxqueues : ∀ q, (s.conn.rxqueues q).queue = []
  segments : s.conn.pendingSegments.keys = []
  recv : s.conn.recv.message = none
  handler : s.conn.handler.message = none

/-- What keeps connections apart: nothing is left when one is established,
and no round that does not read moves the buffer on. -/
def Separating (s : RxSession) : Act → Prop
  | .establish _ => NothingLeft s
  | .round _ => s.conn.rxDisabled = true ∨ s.conn.sockState = .idle ∨ s.conn.sockState.established = true ∨
      s.nbytes = 0
  | _ => True

/-- Every octet kept anywhere is of the TCP connection established last, and
the buffer has room for what a round asks for. -/
structure Own (s : RxSession) : Prop where
  rxbuffer : ∀ o ∈ s.rxbuffer.content, o.conn = s.epoch
  rbytes : s.rxbuffer.rbytes = 0
  size : s.rxbuffer.size = 65536
  room : s.rxbuffer.wbytes < 65536
  incoming : ∀ o ∈ s.incoming, o.conn = s.epoch
  conn : s.conn.Only (·.conn = s.epoch)

variable {unpack : Unpack} {s s' : RxSession}

theorem msgLen_lt (b : Cbuffer Tagged) : Rx.msgLen b < 65536 := by
  unfold Rx.msgLen
  split
  · decide
  · exact be16toh_lt _ _

/-- A round asks for no more than there is room for. -/
theorem Own.fits (h : Own s) {n : Nat} (hn : n ≤ Rx.request s.rxbuffer) : s.rxbuffer.wbytes + n < 65536 := by
  have hlen := msgLen_lt s.rxbuffer
  have hroom := h.room
  have hr := h.rbytes
  unfold Rx.request Cbuffer.rmemlen at hn
  omega

/-- Closing the socket touches no message. -/
theorem Own.conn_withRx (h : Own s) (rx : Rx Tagged) : (s.withRx rx).conn.Only (·.conn = s.epoch) := by
  unfold RxSession.withRx
  dsimp only
  split
  · exact h.conn.of_same (fun _ => id) rfl (fun _ => id) rfl rfl
  · exact h.conn

/-- `recv_message` goes on with the buffer as it is. -/
theorem Own.withRx (h : Own s) {rx : Rx Tagged} (hb : rx.rxbuffer = s.rxbuffer) : Own (s.withRx rx) where
  rxbuffer := by rw [RxSession.withRx, hb]; exact h.rxbuffer
  rbytes := by rw [RxSession.withRx, hb]; exact h.rbytes
  size := by rw [RxSession.withRx, hb]; exact h.size
  room := by rw [RxSession.withRx, hb]; exact h.room
  incoming := h.incoming
  conn := h.conn_withRx rx

/-- The octets of one `recv` come after those collected before. -/
theorem Own.received (h : Own s) {n : Nat} (hn : n ≤ Rx.request s.rxbuffer) :
    Own { s.withRx (s.rx.received (s.incoming.take n)) with incoming := s.incoming.drop n } := by
  have hlen : (s.incoming.take n).length ≤ n := by simp only [List.length_take]; omega
  have hroom := h.fits (Nat.le_trans hlen hn)
  have hfit : s.rxbuffer.wbytes + (s.incoming.take n).length ≤ s.rxbuffer.size := by rw [h.size]; omega
  refine ⟨fun o ho => ?_, h.rbytes, (Cbuffer.wseek_of_le (b := s.rxbuffer.write _) hfit).2.trans h.size, hroom,
    fun o ho => h.incoming o (List.mem_of_mem_drop ho), h.conn_withRx _⟩
  have ho' : o ∈ s.rxbuffer.content ++ s.incoming.take n := by
    rw [← Cbuffer.content_wseek_write hfit]
    exact ho
  rcases List.mem_append.mp ho' with hold | hnew
  · exact h.rxbuffer o hold
  · exact h.incoming o (List.mem_of_mem_take hnew)

theorem Own.round (h : Own s) {r : Recv} (hok : Separating s (.round r)) (hs : step unpack s (.round r) = some s') :
    Own s' := by
  simp only [RxSession.step] at hs
  split at hs
  · obtain ⟨⟨rx, incoming⟩, hround, rfl⟩ := Option.map_eq_some_iff.mp hs
    rcases Rx.round_cases hround with ⟨rfl, rfl, -⟩ | ⟨rfl, rfl, -⟩ | ⟨n, rfl, rfl, -, hn, -⟩ |
      ⟨rfl, rfl, hon, hidle, hest⟩
    · exact h.withRx rfl
    · refine h.withRx ?_
      unfold Rx.onError
      split <;> rfl
    · exact h.received hn
    · -- no octets are read, and none are passed over
      rcases hok with h₀ | h₁ | h₂ | h₃
      · cases hon.symm.trans h₀
      · exact absurd h₁ hidle
      · rw [show s.conn.sockState.established = false from hest] at h₂
        cases h₂
      · refine h.withRx ?_
        simp only [Rx.notReceived, RxSession.rx, h₃, Cbuffer.wseek_zero]
  · cases hs

theorem Own.parse (h : Own s) (hs : step unpack s .parse = some s') : Own s' := by
  simp only [RxSession.step] at hs
  split at hs
  · obtain ⟨conn, hconn, rfl⟩ := Option.map_eq_some_iff.mp hs
    unfold Rx.parse at hconn ⊢
    cases hparse : parseBuffer unpack (Rx.octets s.rx.rxbuffer) with
    | ok msg =>
      simp only [hparse] at hconn ⊢
      have hempty : s.rx.rxbuffer.reset.rbytes = 0 ∧ s.rx.rxbuffer.reset.wbytes = 0 := by
        simp [Cbuffer.reset, Cbuffer.wseekSet, Cbuffer.rseekSet]
      refine ⟨?_, hempty.1, (Cbuffer.size_reset _).trans h.size, by rw [hempty.2]; decide, h.incoming, ?_⟩
      · rw [Cbuffer.content_reset]
        exact List.forall_mem_nil _
      · split at hconn
        next frame msg' hpc =>
          split at hpc
          · cases hpc
          · obtain ⟨rfl, rfl⟩ := RxPc.handle.inj hpc
            refine h.conn.step (fun m hm => ?_) hconn
            obtain rfl := RxConn.Act.handleRecv.inj hm
            exact h.rxbuffer
        · obtain rfl := Option.some.inj hconn
          exact h.conn
    | error e =>
      simp only [hparse] at hconn ⊢
      split at hconn
      next hpc => split at hpc <;> cases hpc
      · obtain rfl := Option.some.inj hconn
        exact ⟨h.rxbuffer, h.rbytes, h.size, h.room, h.incoming, h.conn⟩
  · cases hs

/-- Where nothing is left, everything is of the connection being established. -/
theorem NothingLeft.only (h : NothingLeft s) (p : Tagged → Prop) : s.conn.establish.Only p where
  recv m hm := by cases h.recv.symm.trans hm
  rxqueues q m hm := by
    rw [show (s.conn.establish.rxqueues q).queue = [] from h.rxqueues q] at hm
    cases hm
  handler m hm := by cases h.handler.symm.trans hm
  segments xid octets ho := by
    have hkey : xid ∈ s.conn.pendingSegments.keys :=
      AList.lookup_isSome.mp (by rw [show s.conn.pendingSegments.lookup xid = some octets from ho]; rfl)
    rw [h.segments] at hkey
    cases hkey
  handed := nofun

theorem Own.step {a : Act} (h : Own s) (hok : Separating s a) (hs : step unpack s a = some s') : Own s' := by
  cases a with
  | conn a =>
    simp only [RxSession.step] at hs
    split at hs
    · cases hs
    · cases hs
    next ha _ =>
      obtain ⟨conn, hstep, rfl⟩ := Option.map_eq_some_iff.mp hs
      refine ⟨h.rxbuffer, h.rbytes, h.size, h.room, h.incoming, ?_⟩
      exact h.conn.step (fun m hm => absurd hm (ha m)) hstep
  | establish octets =>
    simp only [RxSession.step] at hs
    obtain ⟨conn, hstep, rfl⟩ := Option.map_eq_some_iff.mp hs
    obtain rfl : s.conn.establish = conn := by
      simp only [RxConn.step] at hstep
      split at hstep
      · exact Option.some.inj hstep
      · cases hstep
    refine ⟨?_, h.rbytes, h.size, h.room, ?_, hok.only _⟩
    · rw [hok.rxbuffer]
      nofun
    · intro o ho
      obtain ⟨octet, -, rfl⟩ := List.mem_map.mp ho
      rfl
  | call =>
    simp only [RxSession.step] at hs
    split at hs
    · obtain rfl := Option.some.inj hs
      exact ⟨h.rxbuffer, h.rbytes, h.size, h.room, h.incoming, h.conn⟩
    · cases hs
  | round r => exact h.round hok hs
  | parse => exact h.parse hs
  | handled escapes =>
    simp only [RxSession.step] at hs
    split at hs
    · obtain rfl := Option.some.inj hs
      exact ⟨h.rxbuffer, h.rbytes, h.size, h.room, h.incoming, h.conn⟩
    · cases hs

theorem Own.new (rxqueueMaxSize : QueueId → Nat) : Own (new rxqueueMaxSize) where
  rxbuffer := nofun
  rbytes := rfl
  size := rfl
  room := show 0 < 65536 by decide
  incoming := nofun
  conn := ⟨nofun, nofun, nofun, nofun, nofun⟩

/-- **Nothing received on an old connection gets into a new one** in a run
whose steps all meet the condition. -/
theorem receive_isolated {unpack : Unpack} {rxqueueMaxSize : QueueId → Nat} {t : RxSession} {as : List Act}
    (hok : Runs.Meets (step unpack) Separating (new rxqueueMaxSize) as)
    (h : Runs.run (step unpack) (new rxqueueMaxSize) as = some t) :
    OwnMessages t ∧ Runs.Along (step unpack) LeavesClean (new rxqueueMaxSize) as := by
  refine ⟨?_, ?_⟩
  · exact (Runs.invariant_of_meets (fun _ _ _ hI ha hs => Own.step hI ha hs) (.new rxqueueMaxSize) hok h).conn.handed
  · refine Runs.along_of_meets (I := Own) (fun _ _ _ hI ha hs => hI.step ha hs) ?_ (.new rxqueueMaxSize) hok
    intro s a s' hI ha hs _ _
    exact (hI.step ha hs).conn.rxqueues

instance (s : RxSession) : Decidable (NothingLeft s) :=
  decidable_of_iff (s.rxbuffer.content = [] ∧ (∀ q ∈ QueueId.all, (s.conn.rxqueues q).queue = []) ∧
      s.conn.pendingSegments.keys = [] ∧ s.conn.recv.message = none ∧ s.conn.handler.message = none)
    ⟨fun ⟨h₁, h₂, h₃, h₄, h₅⟩ => ⟨h₁, fun q => h₂ q (QueueId.mem_all q), h₃, h₄, h₅⟩,
      fun h => ⟨h.rxbuffer, fun q _ => h.rxqueues q, h.segments, h.recv, h.handler⟩⟩

instance (s : RxSession) : ∀ a, Decidable (Separating s a)
  | .establish _ => inferInstanceAs (Decidable (NothingLeft s))
  | .round _ => inferInstanceAs (Decidable (_ ∨ _))
  | .conn _ | .call | .parse | .handled _ => inferInstanceAs (Decidable True)

/-- HELLO of version 1.3. -/
def hello : List UInt8 := [4, 0, 0, 8, 0, 0, 0, 1]

/-- BARRIER_REQUEST of version 1.3. -/
def barrierRequest (xid : UInt8) : List UInt8 := [4, 20, 0, 8, 0, 0, 0, xid]

/-- A connection is opened, on which the peer sends the octets; its HELLO
selects version 1.3. -/
def connects (octets : List UInt8) : List Act :=
  [Act.conn (.enter .connectPending), .conn (.openWith .tcpConnecting), .establish octets,
    .conn (.enter .negotiating), .call, .round (.bytes 7), .parse, .conn .recv, .conn (.setVersion 4),
    .conn (.enter .negotiating2), .handled false]

/-- `STATE_ESTABLISHED` is entered on account of the FEATURES reply. -/
def establishes : List Act :=
  [.round (.bytes 7), .round (.bytes 1), .parse, .conn .recv, .conn (.enter .established), .handled false]

/-- A message is stored and the thread of the connection woken up, which
takes the first message of the queue. -/
def takesUp : List Act :=
  [Act.round (.bytes 7), .parse] ++ List.replicate 6 (Act.conn .recv) ++ [Act.handled false, .conn .handleWakeup] ++
    List.replicate 9 (Act.conn (.handler .returns))

/-- The peer shuts the connection down. -/
def shutDown : List Act := [.round .failed, .conn (.enter .disconnected)]

def separateRun : List Act :=
  connects hello ++ shutDown ++ connects (hello ++ Receiver.featuresReply ++ barrierRequest 8) ++ establishes ++
    takesUp ++ [.conn (.handler .returns)]

theorem receive_isolated_reconnected : ∃ t,
    Runs.run (step Receiver.headerOnly) (new fun _ => 128) separateRun = some t ∧
    t.conn.handed = [(barrierRequest 8).map (Tagged.mk 2)] ∧
    OwnMessages t ∧ Runs.Along (step Receiver.headerOnly) LeavesClean (new fun _ => 128) separateRun := by
  obtain ⟨t, hrun, hhanded⟩ : ∃ t ∈ Runs.run (step Receiver.headerOnly) (new fun _ => 128) separateRun,
      t.conn.handed = [(barrierRequest 8).map (Tagged.mk 2)] := by decide +kernel
  exact ⟨t, hrun, hhanded, receive_isolated (by decide +kernel) hrun⟩

/-- The peer shuts the connection down in the middle of a frame, while the
thread of the connection is about to hand over a message. -/
def cutRun : List Act :=
  connects (hello ++ Receiver.featuresReply ++ barrierRequest 7 ++ hello.take 4) ++ establishes ++ takesUp ++
    [.round (.bytes 3)] ++ shutDown

/-- What the peer sends on the next connection. -/
def nextOctets : List UInt8 := hello.drop 4 ++ Receiver.featuresReply

/-- On the next connection a HELLO is decoded of which one half came on the
old one, and the old message is handed over. No message is in a queue when
either connection is opened. -/
theorem receive_not_isolated : ∃ s t,
    Runs.run (step Receiver.headerOnly) (new fun _ => 128) (cutRun ++ (connects nextOctets).take 7) = some s ∧
    s.pc = .handle ((hello.take 4).map (Tagged.mk 1) ++ (hello.drop 4).map (Tagged.mk 2))
      ⟨Openflow13.OFP_VERSION, Openflow13.OFPT_HELLO, 0, []⟩ ∧
    Runs.run (step Receiver.headerOnly) s
      ((connects nextOctets).drop 7 ++ establishes ++ [.conn (.handler .returns)]) = some t ∧
    t.epoch = 2 ∧ t.conn.handed = [(barrierRequest 7).map (Tagged.mk 1)] ∧ ¬ OwnMessages t := by
  have hother : ¬ ∀ o ∈ (barrierRequest 7).map (Tagged.mk 1), o.conn = 2 := by decide
  obtain ⟨s, hs, hpc, t, ht, hepoch, hhanded⟩ :
      ∃ s ∈ Runs.run (step Receiver.headerOnly) (new fun _ => 128) (cutRun ++ (connects nextOctets).take 7),
        s.pc = .handle ((hello.take 4).map (Tagged.mk 1) ++ (hello.drop 4).map (Tagged.mk 2))
            ⟨Openflow13.OFP_VERSION, Openflow13.OFPT_HELLO, 0, []⟩ ∧
          ∃ t ∈ Runs.run (step Receiver.headerOnly) s
            ((connects nextOctets).drop 7 ++ establishes ++ [.conn (.handler .returns)]),
            t.epoch = 2 ∧ t.conn.handed = [(barrierRequest 7).map (Tagged.mk 1)] := by
    decide +kernel
  refine ⟨s, t, hs, hpc, ht, hepoch, hhanded, fun hown => hother ?_⟩
  rw [← hepoch]
  exact hown _ (by rw [hhanded]; exact List.mem_cons_self)

end RxSession
end RoflCommon
