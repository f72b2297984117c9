/-
From `send_message` on one peer to the application on the other: the sending
half of a `crofsock`, the octets under way, the receiving half of the peer's
`crofsock` and the receiving half of its `crofconn`, taken together.

A message is stored in one of four queues, packed, written piece by piece,
read piece by piece, parsed, stored in one of four queues again and handed
over. The two classifications are not the same, so what is kept is the order
within the pairs of queues (`delivery`): no message is lost, doubled, changed
or overtaken by one that shares both its queues.

Both peers stay connected, and the receiver stays in `STATE_ESTABLISHED`;
every thread, callback and write may otherwise fall as it likes.
-/
import RoflCommon.Crofsock.Stream
import RoflCommon.Crofconn.Isolation

namespace RoflCommon

/-- One direction of a connection. `incoming` has been written by the sender
and is still to be read; `conn` has the state of the receiving socket too. -/
structure Link where
  tx : Tx
  incoming : List UInt8
  rxbuffer : Cbuffer UInt8
  nbytes : Nat
  pc : RxPc UInt8
  conn : RxConn UInt8

namespace Link

/-- What `recv_message` works on. -/
def rx (l : Link) : Rx UInt8 := ⟨l.rxbuffer, l.conn.rxDisabled, l.conn.sockState, l.nbytes, l.pc⟩

/-- What `recv_message` makes of it; `close()` returns at once if another call
is under way. -/
def withRx (l : Link) (rx : Rx UInt8) : Link :=
  let readFd := l.conn.readFd && rx.state == l.conn.sockState
  { l with
    rxbuffer := rx.rxbuffer
    nbytes := rx.nbytes
    pc := rx.pc
    conn := if l.conn.closing = .idle then
        { l.conn with sockState := rx.state, rxDisabled := rx.rxDisabled, readFd := readFd }
      else l.conn }

inductive Act
  | tx (a : Tx.Act)
  | conn (a : RxConn.Act UInt8)
  | call
  | round (r : Recv)
  | parse
  | handled (escapes : Bool)
deriving DecidableEq, Repr

/-- The connection after `parse_message` has called `handle_recv`, if it has. -/
def called (conn : RxConn UInt8) : RxPc UInt8 → Option (RxConn UInt8)
  | .handle frame msg => conn.step (.handleRecv ⟨frame, msg⟩)
  | _ => some conn

def step (unpack : Unpack) (l : Link) : Act → Option Link
  | .tx a => (l.tx.step a).map fun tx => { l with
      tx := tx, incoming := l.incoming ++ tx.written.drop l.tx.written.length }
  | .conn a => (l.conn.step a).map fun conn => { l with conn := conn }
  | .call =>
    if l.pc = .idle ∧ l.conn.closing = .idle ∧ l.conn.sockState.established then
      some { l with nbytes := 0, pc := .loop }
    else none
  | .round r =>
    if l.pc = .loop then
      (l.rx.round l.incoming r).map fun (rx, incoming) => { l.withRx rx with incoming := incoming }
    else none
  | .parse =>
    if l.pc = .parse then
      let rx := l.rx.parse unpack
      (called l.conn rx.pc).map fun conn => { l with conn := conn, rxbuffer := rx.rxbuffer, pc := rx.pc }
    else none
  | .handled escapes =>
    match l.pc, l.conn.recv with
    | .handle _ _, .idle => some { l with pc := if escapes then .idle else .loop }
    | _, _ => none

/-! ## What is sent, and what may happen -/

/-- The message is parsed as what it is, whatever the memory of the buffer
holds after it. -/
structure Readable (unpack : Unpack) (m : Cofmsg) : Prop where
  short : m.length < 65536
  parses : ∀ b : Cbuffer UInt8, b.content = m.pack → b.rbytes = 0 → b.size = 65536 → parseBuffer unpack b = .ok m

/-- The message is not a part of a multipart message with more to come. -/
def Whole (v : UInt8) (m : Cofmsg) : Prop := RxConn.multipart v m = true → RxConn.more m = false

/-- The connection of the receiver is not closed, nor is a message dropped on
the way to the application. -/
def Steady : RxConn.Act UInt8 → Prop
  | .recv | .handleWakeup | .rxDisable | .rxEnable => True
  | .handler outcome => ∀ e, outcome ≠ .fails e
  | _ => False

/-- Both peers stay connected, and what is sent can be read, and is not one of several
segments. -/
def Undisturbed (unpack : Unpack) (v : UInt8) : Act → Prop
  | .tx (.sendMessage m _) => Readable unpack m ∧ Whole v m
  | .tx a => a ≠ .establish
  | .conn a => Steady a
  | .round r => r ≠ .failed
  | _ => True

/-- Nothing is under way. -/
structure Drained (l : Link) : Prop where
  txqueues : ∀ q, (l.tx.txqueues q).queue = []
  txbuffer : l.tx.txbuffer.content = []
  incoming : l.incoming = []
  pc : l.pc = .idle
  recv : l.conn.recv = .idle
  rxqueues : ∀ q, (l.conn.rxqueues q).queue = []
  handler : l.conn.handler = .idle

/-- The versions that may be negotiated. -/
def Known (v : UInt8) : Prop := v = Openflow10.OFP_VERSION ∨ v = Openflow12.OFP_VERSION ∨ v = Openflow13.OFP_VERSION

/-- A connection established a moment ago, with the version `v` negotiated;
the flags, the counters and the memory of the buffers may be anything. -/
structure Start (v : UInt8) (l : Link) : Prop where
  tx : l.tx.Start
  incoming : l.incoming = []
  empty : l.rxbuffer.content = []
  rbytes : l.rxbuffer.rbytes = 0
  size : l.rxbuffer.size = 65536
  pc : l.pc = .idle
  version : Known v
  state : l.conn.state = .established ∧ l.conn.ofpVersion = v
  socket : l.conn.sockState.established = true ∧ l.conn.closing = .idle
  threads : l.conn.recv = .idle ∧ l.conn.handler = .idle
  rxqueues : ∀ q, (l.conn.rxqueues q).queue = []
  fresh : l.conn.pendingSegments = ∅ ∧ l.conn.handed = []

/-- The queues a message passes through, on one side and on the other. -/
def queues (v : UInt8) (m : Cofmsg) : QueueId × Option QueueId := (Tx.queueOf m, rxqueueOf v m.type)

/-- `handle_recv` passes the message on to the application. -/
def passes (v : UInt8) (m : Cofmsg) : Bool := RxConn.stores .established v m

/-- The application has been handed `ms`, so far. -/
structure Delivers (v : UInt8) (l : Link) (ms : List Cofmsg) : Prop where
  handed : l.conn.handed = ms.map Cofmsg.pack
  order : Classes.Behind (queues v) ms (l.tx.stored.filter (passes v))
  all : Drained l → ms.Perm (l.tx.stored.filter (passes v))

end Link

namespace RxConn

open Link Classes

/-! ## From handle_recv to the application -/

/-- The queue of a message, where there is one. -/
def rxqueue (v : UInt8) (m : Received UInt8) : QueueId := (rxqueueOf v m.msg.type).getD .oam

theorem rxqueueOf_eq {v : UInt8} (hv : Known v) (type : UInt8) :
    rxqueueOf v type = some ((rxqueueOf v type).getD .oam) := by
  rcases hv with rfl | rfl | rfl <;> unfold rxqueueOf <;> split_ifs <;> first | rfl | contradiction

/-- What `handle_recv` has in hands and will store. -/
def storing (v : UInt8) : RecvPc UInt8 → List (Received UInt8)
  | .dispatch m => if passes v m.msg then [m] else []
  | .store m => [m]
  | _ => []

/-- The messages of the connection, as an outbox. -/
def outbox (c : RxConn UInt8) (stored taken : List (Received UInt8)) :
    Outbox (Received UInt8) (Received UInt8) QueueId where
  queues q := (c.rxqueues q).queue
  current := c.handler.message.toList
  stored := stored
  loaded := taken ++ c.handler.message.toList
  written := taken

/-- The connection has got the messages `ms` for the application, one after
the other, and has handed over `taken`. -/
structure Passing (v : UInt8) (c : RxConn UInt8) (ms taken : List (Received UInt8)) : Prop where
  state : c.state = .established
  version : c.ofpVersion = v
  socket : c.sockState.established = true ∧ c.closing = .idle
  stream : ∃ stored, ms = stored ++ storing v c.recv ∧
    Outbox.Inv (rxqueue v) (fun m => [m]) (c.outbox stored taken)
  segments : c.pendingSegments = ∅
  handed : c.handed = taken.map Received.frame
  whole : ∀ m ∈ ms, passes v m.msg = true ∧ Whole v m.msg

variable {v : UInt8} {c c' : RxConn UInt8} {ms taken : List (Received UInt8)}

theorem Passing.of_same (h : Passing v c ms taken) (hstate : c'.state = c.state)
    (hversion : c'.ofpVersion = c.ofpVersion) (hrecv : storing v c'.recv = storing v c.recv)
    (hqueues : c'.rxqueues = c.rxqueues) (hmessage : c'.handler.message = c.handler.message)
    (hsegments : c'.pendingSegments = c.pendingSegments) (hhanded : c'.handed = c.handed)
    (hsocket : c'.sockState.established = true ∧ c'.closing = .idle) :
    Passing v c' ms taken where
  state := hstate.trans h.state
  version := hversion.trans h.version
  socket := hsocket
  stream := by
    obtain ⟨stored, hms, hinv⟩ := h.stream
    refine ⟨stored, by rw [hrecv]; exact hms, ?_⟩
    have hsame : c'.outbox stored taken = c.outbox stored taken := by
      unfold outbox
      rw [hqueues, hmessage]
    rw [hsame]
    exact hinv
  segments := hsegments.trans h.segments
  handed := hhanded.trans h.handed
  whole := h.whole

theorem Passing.handleRecv {m : Received UInt8} (h : Passing v c ms taken) (hm : Whole v m.msg)
    (hs : c.step (.handleRecv m) = some c') :
    Passing v c' (ms ++ if passes v m.msg then [m] else []) taken := by
  simp only [RxConn.step] at hs
  split at hs
  next hidle =>
    obtain rfl := Option.some.inj hs
    obtain ⟨stored, hms, hinv⟩ := h.stream
    have hstored : ms = stored := by
      rw [hms, hidle]
      exact List.append_nil _
    refine ⟨h.state, h.version, h.socket, ⟨stored, by rw [hstored]; rfl, hinv⟩, h.segments, h.handed, fun m' hm' => ?_⟩
    rcases List.mem_append.mp hm' with hold | hnew
    · exact h.whole m' hold
    · split at hnew
      next hpasses =>
        obtain rfl := List.mem_singleton.mp hnew
        exact ⟨hpasses, hm⟩
      next => cases hnew
  · cases hs

/-- The message is stored in its queue. -/
theorem Passing.store {m : Received UInt8} {queue : Crofqueue (Received UInt8)} (h : Passing v c ms taken)
    (hrecv : c.recv = .store m) (hqueue : (c.rxqueues (rxqueue v m)).store m true = some queue) (pc : RecvPc UInt8)
    (hpc : storing v pc = []) :
    Passing v { c with rxqueues := Function.update c.rxqueues (rxqueue v m) queue, recv := pc } ms taken := by
  obtain ⟨stored, hms, hinv⟩ := h.stream
  rw [hrecv] at hms
  refine ⟨h.state, h.version, h.socket, ⟨stored ++ [m], ?_, ?_⟩, h.segments, h.handed, h.whole⟩
  · rw [hpc, List.append_nil]
    exact hms
  · have hop : ∀ k, (.store m : Outbox.Op (Received UInt8) QueueId) ≠ .discard k := by simp
    refine hinv.step hop ?_
    show some _ = some _
    congr 1
    unfold outbox
    congr 1
    funext q
    by_cases hq : q = rxqueue v m
    · subst hq
      simp only [Function.update_self, Crofqueue.store_queue hqueue]
    · simp only [Function.update_of_ne hq]

theorem Passing.runRecv (hv : Known v) (h : Passing v c ms taken) (hs : c.runRecv = some c') :
    Passing v c' ms taken := by
  have goes : ∀ pc, storing v pc = storing v c.recv → Passing v { c with recv := pc } ms taken :=
    fun pc hpc => h.of_same rfl rfl hpc rfl rfl rfl rfl h.socket
  unfold RxConn.runRecv at hs
  split at hs
  next => cases hs
  next m hpc =>
    obtain rfl := Option.some.inj hs
    refine goes _ ?_
    rw [hpc, h.state, h.version]
    by_cases hstores : stores .established v m.msg = true
    · simp [storing, passes, hstores]
    · simp [storing, passes, hstores]
  next m hpc =>
    have hq : rxqueueOf c.ofpVersion m.msg.type = some (rxqueue v m) := by
      rw [h.version]
      exact rxqueueOf_eq hv _
    rw [hq] at hs
    obtain ⟨queue, hqueue, rfl⟩ := Option.map_eq_some_iff.mp hs
    exact h.store hpc hqueue (.capacity _) rfl
  next q hpc =>
    obtain rfl := Option.some.inj hs
    refine goes _ ?_
    rw [hpc]
    split <;> rfl
  next hpc =>
    obtain rfl := Option.some.inj hs
    exact h.of_same rfl rfl (by rw [hpc]; rfl) rfl rfl rfl rfl h.socket
  next hpc =>
    obtain rfl := Option.some.inj hs
    exact h.of_same rfl rfl (by rw [hpc]; rfl) rfl rfl rfl rfl h.socket
  next hpc =>
    obtain rfl := Option.some.inj hs
    refine goes _ ?_
    rw [hpc]
    split <;> rfl
  next hpc =>
    obtain rfl := Option.some.inj hs
    refine goes _ ?_
    rw [hpc]
    split <;> rfl
  next hpc =>
    obtain rfl := Option.some.inj hs
    exact h.of_same rfl rfl (by rw [hpc]; rfl) rfl rfl rfl rfl h.socket

/-- A whole message is handed over alone. -/
theorem deliver_whole {m : Received UInt8} (hversion : c.ofpVersion = v) (hsegments : c.pendingSegments = ∅)
    (hpasses : passes v m.msg = true) (hwhole : Whole v m.msg) :
    c.deliver m = { c with handed := c.handed ++ [m.frame] } := by
  unfold deliver
  rw [hversion]
  split
  next hmulti =>
    have hmore := hwhole hmulti
    have hsame : m.msg.version = v := by
      simp only [passes, stores, Bool.and_eq_true, beq_iff_eq] at hpasses
      exact hpasses.1.1
    have hne : ¬ m.msg.version = Openflow10.OFP_VERSION := by
      rw [hsame]
      simp only [multipart, Bool.and_eq_true, bne_iff_ne, ne_eq] at hmulti
      exact hmulti.1.1
    rw [if_neg hne, if_neg (by rw [hmore]; decide), hsegments]
    rfl
  next => rfl

/-- The next message of the queue is taken out. -/
theorem Passing.retrieve {again : Bool} {q : QueueId} {n : Nat} {m : Received UInt8}
    {rest : Crofqueue (Received UInt8)} (h : Passing v c ms taken) (hhandler : c.handler.message = none)
    (hqueue : (c.rxqueues q).retrieve = some (m, rest)) :
    Passing v { c with rxqueues := Function.update c.rxqueues q rest, handler := .deliver again q n m } ms taken := by
  obtain ⟨stored, hms, hinv⟩ := h.stream
  refine ⟨h.state, h.version, h.socket, ⟨stored, hms, ?_⟩, h.segments, h.handed, h.whole⟩
  have hop : ∀ k, (.load q : Outbox.Op (Received UInt8) QueueId) ≠ .discard k := by simp
  refine hinv.step hop ?_
  have hq : (c.outbox stored taken).queues q = m :: rest.queue := Crofqueue.retrieve_eq_some hqueue
  have hcurrent : (c.outbox stored taken).current = [] := by
    unfold outbox
    rw [hhandler]
    rfl
  simp only [Outbox.step, hq, hcurrent]
  congr 1
  unfold outbox
  congr 1
  · funext k
    by_cases hk : k = q
    · subst hk
      simp only [Function.update_self]
    · simp only [Function.update_of_ne hk]
  · rw [hhandler]
    simp [HandlerPc.message]

/-- The message taken out is handed over. -/
theorem Passing.deliver {again : Bool} {q : QueueId} {n : Nat} {m : Received UInt8} {outcome : Outcome}
    (h : Passing v c ms taken) (hhandler : c.handler.message = some m) (hkeeps : ∀ e, outcome ≠ .fails e) :
    Passing v (c.runDeliver again q n m outcome) ms (taken ++ [m]) := by
  obtain ⟨stored, hms, hinv⟩ := h.stream
  have hmem : m ∈ ms := by
    rw [hms]
    refine List.mem_append_left _ (hinv.mem_stored ?_)
    unfold outbox
    rw [hhandler]
    exact List.mem_append_right _ (List.mem_singleton.mpr rfl)
  have hrun : c.runDeliver again q n m outcome =
      { c with handed := c.handed ++ [m.frame], handler := afterMessage again q n outcome } := by
    have hdeliver := deliver_whole h.version h.segments (h.whole m hmem).1 (h.whole m hmem).2
    cases outcome with
    | returns => rw [runDeliver, hdeliver]; rfl
    | throws e => rw [runDeliver, hdeliver]; rfl
    | fails e => exact absurd rfl (hkeeps e)
  rw [hrun]
  refine ⟨h.state, h.version, h.socket, ⟨stored, hms, ?_⟩, h.segments, ?_, h.whole⟩
  · have hop : ∀ k, (.write 1 : Outbox.Op (Received UInt8) QueueId) ≠ .discard k := by simp
    refine hinv.step hop ?_
    show some _ = some _
    congr 1
    unfold outbox
    dsimp only
    rw [hhandler, message_afterMessage]
    simp
  · dsimp only
    rw [h.handed, List.map_append]
    rfl

theorem Passing.runHandler {outcome : Outcome} (h : Passing v c ms taken) (hkeeps : ∀ e, outcome ≠ .fails e)
    (hs : c.runHandler outcome = some c') : ∃ taken', Passing v c' ms taken' := by
  have goes : ∀ pc : HandlerPc UInt8, pc.message = c.handler.message → Passing v { c with handler := pc } ms taken :=
    fun pc hpc => h.of_same rfl rfl rfl rfl hpc rfl rfl h.socket
  unfold RxConn.runHandler at hs
  split at hs
  next => cases hs
  next hpc =>
    obtain rfl := Option.some.inj hs
    exact ⟨taken, h.of_same rfl rfl rfl rfl (by rw [hpc]; rfl) rfl rfl h.socket⟩
  next hpc =>
    obtain rfl := Option.some.inj hs
    refine ⟨taken, goes _ ?_⟩
    rw [hpc]
    split <;> rfl
  next hpc =>
    obtain rfl := Option.some.inj hs
    refine ⟨taken, goes _ ?_⟩
    rw [hpc]
    split
    · exact message_nextQueue _ _
    · rfl
  next hpc =>
    obtain rfl := Option.some.inj hs
    refine ⟨taken, goes _ ?_⟩
    rw [hpc]
    split <;> rfl
  next hpc =>
    split at hs
    · obtain rfl := Option.some.inj hs
      exact ⟨taken, goes _ (by rw [hpc]; rfl)⟩
    next hqueue =>
      obtain rfl := Option.some.inj hs
      exact ⟨taken, h.retrieve (by rw [hpc]; rfl) hqueue⟩
  next hpc =>
    obtain rfl := Option.some.inj hs
    exact ⟨_, h.deliver (by rw [hpc]; rfl) hkeeps⟩
  next hpc =>
    obtain rfl := Option.some.inj hs
    exact ⟨taken, h.of_same rfl rfl rfl rfl (by rw [hpc]; exact message_nextQueue _ _) rfl rfl h.socket⟩
  next hpc =>
    obtain rfl := Option.some.inj hs
    refine ⟨taken, goes _ ?_⟩
    rw [hpc]
    split
    · exact message_nextRound _
    · rfl
  next hpc =>
    obtain rfl := Option.some.inj hs
    exact ⟨taken, h.of_same rfl rfl rfl rfl (by rw [hpc]; rfl) rfl rfl h.socket⟩
  next hpc =>
    obtain rfl := Option.some.inj hs
    exact ⟨taken, h.of_same rfl rfl rfl rfl (by rw [hpc]; rfl) rfl rfl h.socket⟩
  next hpc =>
    obtain rfl := Option.some.inj hs
    refine ⟨taken, goes _ ?_⟩
    rw [hpc]
    split <;> rfl
  next hpc =>
    obtain rfl := Option.some.inj hs
    exact ⟨taken, h.of_same rfl rfl rfl rfl (by rw [hpc]; rfl) rfl rfl h.socket⟩
  next hpc =>
    obtain rfl := Option.some.inj hs
    exact ⟨taken, h.of_same rfl rfl rfl rfl (by rw [hpc]; rfl) rfl rfl h.socket⟩

theorem Passing.step {a : RxConn.Act UInt8} (hv : Known v) (h : Passing v c ms taken) (ha : Steady a)
    (hs : c.step a = some c') : ∃ taken', Passing v c' ms taken' := by
  cases a with
  | recv => exact ⟨taken, h.runRecv hv hs⟩
  | handler outcome => exact h.runHandler ha hs
  | handleWakeup =>
    simp only [RxConn.step] at hs
    split at hs
    next hpc =>
      split at hs
      · obtain rfl := Option.some.inj hs
        exact ⟨taken, h.of_same rfl rfl rfl rfl (by rw [hpc]; rfl) rfl rfl h.socket⟩
      · cases hs
    · cases hs
  | rxDisable | rxEnable =>
    obtain rfl := Option.some.inj hs
    exact ⟨taken, h.of_same rfl rfl rfl rfl rfl rfl rfl h.socket⟩
  | _ => exact ha.elim

end RxConn

namespace Tx

variable {s s' : Tx}

/-- What a step does to what has been packed and written. -/
inductive Moves (s s' : Tx) : Prop
  | none (packed : s'.packed = s.packed) (written : s'.written = s.written)
      (content : s'.txbuffer.content = s.txbuffer.content)
  | load (m : Cofmsg) (empty : s.txbuffer.content = []) (packed : s'.packed = s.packed ++ [m])
      (written : s'.written = s.written) (content : s'.txbuffer.content = m.pack)
  | write (n : Nat) (packed : s'.packed = s.packed) (written : s'.written = s.written ++ s.txbuffer.content.take n)
      (content : s'.txbuffer.content = s.txbuffer.content.drop n)

theorem Moved.moves (h : Moved s s') : Moves s s' := by
  cases h with
  | none buffer outbox =>
    exact .none (congrArg Outbox.loaded outbox) (congrArg Outbox.written outbox) (congrArg Outbox.current outbox)
  | load q m empty room buffer outbox =>
    simp only [Outbox.step] at outbox
    split at outbox
    next a rest hcurrent hq =>
      have heq := Option.some.inj outbox
      have hpacked : s.packed ++ [a] = s'.packed := congrArg Outbox.loaded heq
      have hwritten : s.written = s'.written := congrArg Outbox.written heq
      have hcontent : a.pack = s'.txbuffer.content := congrArg Outbox.current heq
      exact .load a empty hpacked.symm hwritten.symm hcontent.symm
    · cases outbox
  | discard q m empty mem tooLong buffer outbox =>
    simp only [Outbox.step] at outbox
    split at outbox
    · have heq := Option.some.inj outbox
      have hpacked : s.packed = s'.packed := congrArg Outbox.loaded heq
      have hwritten : s.written = s'.written := congrArg Outbox.written heq
      exact .none hpacked.symm hwritten.symm (by rw [buffer])
    · cases outbox
  | write n up buffer outbox =>
    have heq := Option.some.inj outbox
    have hpacked : s.packed = s'.packed := congrArg Outbox.loaded heq
    have hwritten : s.written ++ s.txbuffer.content.take n = s'.written := congrArg Outbox.written heq
    exact .write n hpacked.symm hwritten.symm (by rw [buffer, Cbuffer.content_rseek])

/-- Every message that is or was in a queue, or is about to be stored, has `P`. -/
structure Asks (P : Cofmsg → Prop) (s : Tx) : Prop where
  inStore : ∀ c ∈ s.inStore, P c.1
  stored : ∀ m ∈ s.stored, P m

theorem Asks.step {P : Cofmsg → Prop} {a : Act} (h : Asks P s) (hm : ∀ m e, a = .sendMessage m e → P m)
    (ha : a ≠ .establish) (hs : s.step a = some s') : Asks P s' ∧ Moves s s' := by
  unfold Tx.step at hs
  cases a with
  | sendMessage m enforce =>
    obtain rfl := Option.some.inj hs
    unfold Tx.sendMessage
    dsimp only
    split
    · exact ⟨⟨h.inStore, h.stored⟩, .none rfl rfl rfl⟩
    split
    · exact ⟨⟨h.inStore, h.stored⟩, .none rfl rfl rfl⟩
    · refine ⟨⟨fun c hc => ?_, h.stored⟩, .none rfl rfl rfl⟩
      rcases List.mem_append.mp hc with hold | hnew
      · exact h.inStore c hold
      · obtain rfl := List.mem_singleton.mp hnew
        exact hm m enforce rfl
  | store i =>
    obtain ⟨c, hi, rfl⟩ := Option.map_eq_some_iff.mp hs
    have hc : P c.1 := h.inStore c (List.mem_of_getElem? hi)
    have hrest : ∀ c' ∈ s.inStore.eraseIdx i, P c'.1 := fun c' hc' => h.inStore c' (List.mem_of_mem_eraseIdx hc')
    dsimp only
    split
    · exact ⟨⟨hrest, h.stored⟩, .none rfl rfl rfl⟩
    · refine ⟨⟨hrest, fun m hm => ?_⟩, .none rfl rfl rfl⟩
      rcases List.mem_append.mp hm with hold | hnew
      · exact h.stored m hold
      · obtain rfl := List.mem_singleton.mp hnew
        exact hc
  | count i | test i | «return» i =>
    obtain ⟨c, -, rfl⟩ := Option.map_eq_some_iff.mp hs
    exact ⟨⟨h.inStore, h.stored⟩, .none rfl rfl rfl⟩
  | tx result throws =>
    obtain ⟨hmoved, hkept⟩ := runTx_moved hs
    have hinStore : s'.inStore = s.inStore := congrArg Calls.inStore hkept.calls
    have hstored : s'.stored = s.stored := congrArg Calls.stored hkept.calls
    exact ⟨⟨hinStore ▸ h.inStore, hstored ▸ h.stored⟩, hmoved.moves⟩
  | establish => exact absurd rfl ha
  | txDisable | txEnable =>
    obtain rfl := Option.some.inj hs
    exact ⟨⟨h.inStore, h.stored⟩, .none rfl rfl rfl⟩
  | handleWakeup | rxWantWrite | openWith | tls | closeBegin | closeEnd =>
    dsimp only at hs
    split at hs
    all_goals cases hs
    all_goals exact ⟨⟨h.inStore, h.stored⟩, .none rfl rfl rfl⟩
  | handleWriteEvent =>
    dsimp only at hs
    split at hs
    · split at hs
      all_goals
        obtain rfl := Option.some.inj hs
        exact ⟨⟨h.inStore, h.stored⟩, .none rfl rfl rfl⟩
    · cases hs

end Tx

/-- With more to come behind, a round of `recv` may fall as it does without. -/
theorem Rx.round_append {rx rx' : Rx UInt8} {incoming incoming' : List UInt8} {r : Recv} (more : List UInt8)
    (h : rx.round incoming r = some (rx', incoming')) :
    ∃ r', rx.round (incoming ++ more) r' = some (rx', incoming' ++ more) := by
  unfold Rx.round at h
  split at h
  next hoff =>
    obtain ⟨rfl, rfl⟩ := Prod.mk.inj (Option.some.inj h)
    exact ⟨r, by unfold Rx.round; rw [if_pos hoff]⟩
  next hon =>
    split at h
    next hsync =>
      obtain ⟨rfl, rfl⟩ := Prod.mk.inj (Option.some.inj h)
      exact ⟨r, by unfold Rx.round; rw [if_neg hon, if_pos hsync]⟩
    next hsync =>
      split at h
      next hup =>
        have hround : ∀ r', rx.round (incoming ++ more) r' = _ := fun r' => by
          unfold Rx.round
          rw [if_neg hon, if_neg hsync, if_pos hup]
        cases r with
        | bytes k =>
          dsimp only at h
          split at h
          · cases h
          next hsome =>
            obtain ⟨rfl, rfl⟩ := Prod.mk.inj (Option.some.inj h)
            simp only [not_or] at hsome
            obtain ⟨hpos, hne⟩ := hsome
            have hlen : 0 < incoming.length := List.length_pos_iff.mpr hne
            -- no more than was there without
            refine ⟨.bytes (min (min (k + 1) (Rx.request rx.rxbuffer)) incoming.length - 1), ?_⟩
            rw [hround]
            dsimp only
            generalize hn : min (k + 1) (Rx.request rx.rxbuffer) = n at hpos ⊢
            have hreq : n ≤ Rx.request rx.rxbuffer := hn ▸ Nat.min_le_right _ _
            have hmin : min (min n incoming.length - 1 + 1) (Rx.request rx.rxbuffer) = min n incoming.length := by
              omega
            rw [hmin, if_neg (by simp only [List.append_eq_nil_iff, hne, false_and, or_false]; omega)]
            have htake : (incoming ++ more).take (min n incoming.length) = incoming.take n := by
              rw [List.take_append_of_le_length (Nat.min_le_right _ _)]
              exact List.take_eq_take_min.symm
            have hdrop : (incoming ++ more).drop (min n incoming.length) = incoming.drop n ++ more := by
              rw [List.drop_append_of_le_length (Nat.min_le_right _ _)]
              congr 1
              exact List.drop_eq_drop_min.symm
            rw [htake, hdrop]
        | again =>
          obtain ⟨rfl, rfl⟩ := Prod.mk.inj (Option.some.inj h)
          exact ⟨.again, hround _⟩
        | zero =>
          dsimp only at h
          split at h
          next hzero =>
            obtain ⟨rfl, rfl⟩ := Prod.mk.inj (Option.some.inj h)
            refine ⟨.zero, ?_⟩
            rw [hround]
            dsimp only
            rw [if_pos hzero]
          · cases h
        | failed =>
          obtain ⟨rfl, rfl⟩ := Prod.mk.inj (Option.some.inj h)
          exact ⟨.failed, hround _⟩
      next hup =>
        obtain ⟨rfl, rfl⟩ := Prod.mk.inj (Option.some.inj h)
        exact ⟨r, by unfold Rx.round; rw [if_neg hon, if_neg hsync, if_neg hup]⟩

namespace Receiver

variable {fs : List (List UInt8)} {s s' : Receiver}

/-- What the framing depends on. -/
theorem Framed.congr (h : Framed fs s) (hrx : s'.rx = s.rx) (hincoming : s'.incoming = s.incoming)
    (hparsed : s'.parsed.map Prod.fst = s.parsed.map Prod.fst) : Framed fs s' where
  frames := h.frames
  rbytes := by rw [hrx]; exact h.rbytes
  size := by rw [hrx]; exact h.size
  state := by rw [hrx]; exact h.state
  stream := by rw [hrx, hincoming, hparsed]; exact h.stream

/-- One more frame is on the way. -/
theorem Framed.append {f : List UInt8} (h : Framed fs s) (hf : Frame f) :
    Framed (fs ++ [f]) { s with incoming := s.incoming ++ f } where
  frames g hg := by
    rcases List.mem_append.mp hg with hold | hnew
    · exact h.frames g hold
    · rw [List.mem_singleton.mp hnew]
      exact hf
  rbytes := h.rbytes
  size := h.size
  state := h.state
  stream := by
    obtain ⟨rest, hfs, hstream, hholds⟩ := h.stream
    refine ⟨rest ++ [f], by rw [hfs, List.append_assoc], ?_, ?_⟩
    · rw [← List.append_assoc, hstream]
      simp
    · cases rest with
      | nil =>
        obtain ⟨hpc, hnil⟩ := hholds
        refine .inr ⟨hpc, by rw [hnil]; exact List.nil_prefix, ?_⟩
        have hlen := hf.1
        rw [framing_header] at hlen
        simp only [hnil, List.length_nil, sizeofHeader] at hlen ⊢
        omega
      | cons g rest => exact hholds

end Receiver

namespace Link

open Classes

/-! ## The two halves together -/

/-- The receiver, with what the sender has packed but not written yet taken
for octets under way. -/
def view (l : Link) (parsed : List Cofmsg) : Receiver :=
  ⟨l.rx, l.incoming ++ l.tx.txbuffer.content, parsed.map fun m => (m.pack, .ok m), [], []⟩

@[simp] theorem view_pc (l : Link) (parsed : List Cofmsg) : (l.view parsed).rx.pc = l.pc := rfl

/-- The message as the receiver has it. -/
def received (m : Cofmsg) : Received UInt8 := ⟨m.pack, m⟩

theorem map_msg_received (ms : List Cofmsg) : (ms.map received).map Received.msg = ms := by
  rw [List.map_map]
  exact List.map_id _

/-- `parsed` has come out of the octets, and `taken` out of the queues of the
receiver. -/
structure Flows (v : UInt8) (l : Link) (parsed : List Cofmsg) (taken : List (Received UInt8)) : Prop where
  start : parsed <+: l.tx.packed
  framed : Receiver.Framed (l.tx.packed.map Cofmsg.pack) (l.view parsed)
  passing : l.conn.Passing v ((parsed.filter (passes v)).map received) taken

structure Sound (unpack : Unpack) (v : UInt8) (l : Link) : Prop where
  tx : l.tx.Sound
  asks : l.tx.Asks fun m => Readable unpack m ∧ Whole v m
  flows : ∃ parsed taken, Flows v l parsed taken

variable {unpack : Unpack} {v : UInt8} {l l' : Link} {parsed : List Cofmsg} {taken : List (Received UInt8)}

theorem be16toh_htobe16 {n : ℕ} (h : n < 65536) : be16toh (UInt8.ofNat (n / 256)) (UInt8.ofNat n) = n := by
  have hhigh : (UInt8.ofNat (n / 256)).toNat = n / 256 := UInt8.toNat_ofNat_of_lt' (Nat.div_lt_of_lt_mul h)
  have hlow : (UInt8.ofNat n).toNat = n % 256 := UInt8.toNat_ofNat
  rw [be16toh, hhigh, hlow]
  omega

theorem frame_pack {m : Cofmsg} (h : m.length < 65536) : Receiver.Frame m.pack := by
  refine ⟨?_, ?_⟩
  · simp [Cofmsg.length]
  · show headerLength (fun i => m.pack.getD i 0) = _
    rw [Cofmsg.length_pack, ← be16toh_htobe16 h, ← Nat.mod_eq_of_lt h]
    rfl

theorem Sound.readable (h : Sound unpack v l) {m : Cofmsg} (hm : m ∈ l.tx.packed) : Readable unpack m ∧ Whole v m :=
  h.asks.stored m (h.tx.inv.mem_stored hm)

theorem Flows.of_tx {tx : Tx} (h : Flows v l parsed taken) (hmoves : Tx.Moves l.tx tx)
    (hshort : ∀ m ∈ tx.packed, m.length < 65536) :
    Flows v { l with tx := tx, incoming := l.incoming ++ tx.written.drop l.tx.written.length } parsed taken := by
  cases hmoves with
  | none packed written content =>
    refine ⟨packed ▸ h.start, ?_, h.passing⟩
    rw [packed]
    refine h.framed.congr rfl ?_ rfl
    simp [view, written, content]
  | load m empty packed written content =>
    refine ⟨h.start.trans (packed ▸ List.prefix_append _ _), ?_, h.passing⟩
    have hm : m ∈ tx.packed := by
      rw [packed]
      exact List.mem_append_right _ (List.mem_singleton.mpr rfl)
    rw [packed, List.map_append]
    refine (h.framed.append (frame_pack (hshort m hm))).congr rfl ?_ rfl
    simp [view, written, content, empty]
  | write n packed written content =>
    refine ⟨packed ▸ h.start, ?_, h.passing⟩
    rw [packed]
    refine h.framed.congr rfl ?_ rfl
    simp [view, written, content]

theorem Sound.of_tx {a : Tx.Act} {tx : Tx} (h : Sound unpack v l) (hok : Undisturbed unpack v (.tx a))
    (hs : l.tx.step a = some tx) :
    Sound unpack v { l with tx := tx, incoming := l.incoming ++ tx.written.drop l.tx.written.length } := by
  have ha : a ≠ .establish := by
    cases a with
    | establish => exact hok
    | _ => simp
  have hsends : ∀ m e, a = .sendMessage m e → Readable unpack m ∧ Whole v m := by
    intro m e hm
    subst hm
    exact hok
  have hfits : Tx.fitsBuffer a = true := by
    cases a with
    | sendMessage m e => exact decide_eq_true (Nat.le_of_lt (hsends m e rfl).1.short)
    | _ => rfl
  have htx := h.tx.step hfits ha hs
  obtain ⟨hasks, hmoves⟩ := h.asks.step hsends ha hs
  obtain ⟨parsed, taken, hflows⟩ := h.flows
  refine ⟨htx, hasks, parsed, taken, hflows.of_tx hmoves fun m hm => ?_⟩
  exact (hasks.stored m (htx.inv.mem_stored hm)).1.short

theorem withRx_of_idle (rx : Rx UInt8) (h : l.conn.closing = .idle) :
    ∃ readFd, l.withRx rx = { l with
      rxbuffer := rx.rxbuffer
      nbytes := rx.nbytes
      pc := rx.pc
      conn := { l.conn with sockState := rx.state, rxDisabled := rx.rxDisabled, readFd := readFd } } := by
  refine ⟨l.conn.readFd && rx.state == l.conn.sockState, ?_⟩
  unfold withRx
  simp only [h, if_pos]

/-- A round of `recv` that does not fail keeps the socket. -/
theorem Flows.state_round {r : Recv} {rx : Rx UInt8} {incoming : List UInt8} (h : Flows v l parsed taken)
    (hpc : l.pc = .loop) (hr : r ≠ .failed) (hs : l.rx.round l.incoming r = some (rx, incoming)) :
    rx.state = l.conn.sockState := by
  have hparse : (l.view parsed).rx.pc ≠ .parse := by simp [hpc]
  rcases Rx.round_cases hs with ⟨rfl, -, -⟩ | ⟨rfl, -, hsync | hfailed | ⟨-, hzero⟩⟩ | ⟨n, rfl, -, -⟩ | ⟨rfl, -, -⟩
  · rfl
  · exact absurd hsync (Nat.not_lt.mpr (h.framed.msgLen_ge hparse))
  · exact absurd hfailed hr
  · exact absurd hzero (Nat.ne_of_gt (h.framed.request_pos hparse))
  · rfl
  · rfl

theorem Flows.round {r : Recv} {rx : Rx UInt8} {incoming : List UInt8} (h : Flows v l parsed taken)
    (hpc : l.pc = .loop) (hr : r ≠ .failed) (hs : l.rx.round l.incoming r = some (rx, incoming)) :
    Flows v { l.withRx rx with incoming := incoming } parsed taken := by
  have hstate := h.state_round hpc hr hs
  obtain ⟨r', hround⟩ := Rx.round_append l.tx.txbuffer.content hs
  have hstep : Receiver.step (fun _ _ _ => .error .other) (l.view parsed) (.round r') =
      some { l.view parsed with rx := rx, incoming := incoming ++ l.tx.txbuffer.content } := by
    have hloop : (l.view parsed).rx.pc = .loop := hpc
    simp only [Receiver.step, if_pos hloop]
    show (l.rx.round (l.incoming ++ l.tx.txbuffer.content) r').map _ = _
    rw [hround]
    rfl
  obtain ⟨readFd, hwith⟩ := withRx_of_idle (l := l) rx h.passing.socket.2
  rw [hwith]
  refine ⟨h.start, (h.framed.round hstep).congr rfl rfl rfl, ?_⟩
  refine h.passing.of_same rfl rfl rfl rfl rfl rfl rfl ⟨?_, h.passing.socket.2⟩
  rw [hstate]
  exact h.passing.socket.1

theorem Flows.parse {conn : RxConn UInt8} (h : Flows v l parsed taken)
    (hread : ∀ m ∈ l.tx.packed, Readable unpack m ∧ Whole v m) (hpc : l.pc = .parse)
    (hs : called l.conn (l.rx.parse unpack).pc = some conn) :
    ∃ parsed', Flows v { l with
      conn := conn, rxbuffer := (l.rx.parse unpack).rxbuffer, pc := (l.rx.parse unpack).pc } parsed' taken := by
  -- the buffer holds the first frame that has not been parsed
  obtain ⟨rest, hfs, -, hholds⟩ := h.framed.stream
  cases rest with
  | nil => exact absurd hpc hholds.1
  | cons f rest =>
    rcases hholds with ⟨-, hwhole⟩ | ⟨hne, -⟩
    case inr => exact absurd hpc hne
    obtain ⟨more, hmore⟩ := h.start
    have hmap : more.map Cofmsg.pack = f :: rest := by
      rw [← hmore, List.map_append] at hfs
      refine List.append_cancel_left (hfs.trans ?_)
      simp [view]
    cases more with
    | nil => cases hmap
    | cons m more =>
      have hf : m.pack = f := (List.cons.inj hmap).1
      have hm : m ∈ l.tx.packed := by
        rw [← hmore]
        exact List.mem_append_right _ List.mem_cons_self
      have hcontent : l.rxbuffer.content = m.pack := hwhole.trans hf.symm
      have hparse : parseBuffer unpack (Rx.octets l.rx.rxbuffer) = .ok m :=
        (hread m hm).1.parses _ hcontent h.framed.rbytes h.framed.size
      have hstate : l.rx.state ≠ .idle := by
        intro hidle
        have hup : l.rx.state.established = true := h.passing.socket.1
        rw [hidle] at hup
        cases hup
      have hrx : l.rx.parse unpack = { l.rx with
          rxbuffer := l.rxbuffer.reset, pc := .handle m.pack m } := by
        unfold Rx.parse
        rw [hparse]
        dsimp only
        rw [if_neg hstate, ← hcontent]
        rfl
      rw [hrx] at hs ⊢
      have hpassing := h.passing.handleRecv (hread m hm).2 hs
      have hconn : conn = { l.conn with recv := .dispatch ⟨m.pack, m⟩ } := by
        simp only [called, RxConn.step] at hs
        split at hs
        · exact (Option.some.inj hs).symm
        · cases hs
      have hview : (l.view parsed).rx.pc = .parse := hpc
      obtain ⟨s, hstep, hsrx, hsincoming, hsparsed⟩ : ∃ s, Receiver.step unpack (l.view parsed) .parse = some s ∧
          s.rx = l.rx.parse unpack ∧ s.incoming = l.incoming ++ l.tx.txbuffer.content ∧
          s.parsed.map Prod.fst = (l.view parsed).parsed.map Prod.fst ++ [l.rxbuffer.content] := by
        refine ⟨_, if_pos hview, rfl, rfl, ?_⟩
        exact List.map_append
      rw [hrx] at hsrx
      have hnever : ∀ e, ¬ Receiver.Raises unpack (l.view parsed) e := by
        intro e he
        cases hparse.symm.trans he
      refine ⟨parsed ++ [m], ⟨more, by rw [List.append_assoc]; exact hmore⟩,
        (h.framed.parse hnever hstep).congr ?_ hsincoming.symm ?_, ?_⟩
      · rw [hsrx, hconn]
        rfl
      · rw [hsparsed, hcontent]
        simp [view]
      · by_cases hpasses : passes v m = true
        · simpa [received, hpasses] using hpassing
        · simpa [received, hpasses] using hpassing

theorem Flows.of_conn {a : RxConn.Act UInt8} {conn : RxConn UInt8} (hv : Known v) (h : Flows v l parsed taken)
    (ha : Steady a) (hs : l.conn.step a = some conn) : ∃ taken', Flows v { l with conn := conn } parsed taken' := by
  obtain ⟨taken', hpassing⟩ := h.passing.step hv ha hs
  exact ⟨taken', h.start, h.framed.of_rx (.inl rfl) rfl (.inl hpassing.socket.1), hpassing⟩

theorem Sound.step {a : Act} (hv : Known v) (h : Sound unpack v l) (hok : Undisturbed unpack v a)
    (hs : step unpack l a = some l') : Sound unpack v l' := by
  obtain ⟨parsed, taken, hflows⟩ := h.flows
  cases a with
  | tx a =>
    obtain ⟨tx, hstep, rfl⟩ := Option.map_eq_some_iff.mp hs
    exact h.of_tx hok hstep
  | conn a =>
    obtain ⟨conn, hstep, rfl⟩ := Option.map_eq_some_iff.mp hs
    obtain ⟨taken', hflows'⟩ := hflows.of_conn hv hok hstep
    exact ⟨h.tx, h.asks, parsed, taken', hflows'⟩
  | call =>
    simp only [Link.step] at hs
    split at hs
    next hidle =>
      obtain rfl := Option.some.inj hs
      have hne : (l.view parsed).rx.pc ≠ .parse := by simp [hidle.1]
      exact ⟨h.tx, h.asks, parsed, taken, hflows.start,
        @Receiver.Framed.of_rx _ _ hflows.framed { l.rx with nbytes := 0, pc := .loop } (.inr ⟨hne, by simp⟩) rfl
          hflows.framed.state,
        hflows.passing⟩
    · cases hs
  | round r =>
    simp only [Link.step] at hs
    split at hs
    next hpc =>
      obtain ⟨⟨rx, incoming⟩, hround, rfl⟩ := Option.map_eq_some_iff.mp hs
      exact ⟨h.tx, h.asks, parsed, taken, hflows.round hpc hok hround⟩
    · cases hs
  | parse =>
    simp only [Link.step] at hs
    split at hs
    next hpc =>
      obtain ⟨conn, hcalled, rfl⟩ := Option.map_eq_some_iff.mp hs
      obtain ⟨parsed', hflows'⟩ := hflows.parse (fun m hm => h.readable hm) hpc hcalled
      exact ⟨h.tx, h.asks, parsed', taken, hflows'⟩
    · cases hs
  | handled escapes =>
    simp only [Link.step] at hs
    split at hs
    next hpc _ =>
      obtain rfl := Option.some.inj hs
      have hne : (l.view parsed).rx.pc ≠ .parse := by simp [hpc]
      refine ⟨h.tx, h.asks, parsed, taken, hflows.start, ?_, hflows.passing⟩
      refine @Receiver.Framed.of_rx _ _ hflows.framed { l.rx with pc := if escapes then .idle else .loop }
        (.inr ⟨hne, ?_⟩) rfl hflows.framed.state
      cases escapes <;> simp
    · cases hs

theorem Start.sound (h : Start v l) : Sound unpack v l where
  tx := h.tx.sound
  asks := by
    refine ⟨fun c hc => ?_, fun m hm => ?_⟩
    · rw [h.tx.calls.1] at hc
      cases hc
    · rw [h.tx.fresh.1] at hm
      cases hm
  flows := by
    have hpacked : l.tx.packed = [] := h.tx.fresh.2.1
    refine ⟨[], [], List.nil_prefix, ?_, h.state.1, h.state.2, h.socket, ⟨[], ?_, ?_⟩, h.fresh.1, h.fresh.2, by simp⟩
    · have hstart : Receiver.Start [] (l.view []) :=
        { frames := by simp
          established := h.socket.1
          pc := h.pc
          empty := h.empty
          rbytes := h.rbytes
          size := h.size
          incoming := by simp [view, h.incoming, h.tx.buffer]
          fresh := ⟨rfl, rfl, rfl⟩ }
      rw [hpacked]
      exact hstart.framed
    · rw [h.threads.1]
      rfl
    · refine .empty h.rxqueues ?_ ⟨rfl, ?_, rfl⟩
      · simp [RxConn.outbox, h.threads.2, HandlerPc.message]
      · simp [RxConn.outbox, h.threads.2, HandlerPc.message]

/-! ## Delivery -/

theorem Flows.behind (hv : Known v) (htx : l.tx.Sound) (h : Flows v l parsed taken) :
    Behind (queues v) (taken.map Received.msg) (l.tx.stored.filter (passes v)) := by
  obtain ⟨stored, hstored, hinv⟩ := h.passing.stream
  have htaken : Behind (RxConn.rxqueue v) taken ((parsed.filter (passes v)).map received) := by
    refine Behind.trans (Behind.of_prefix (List.prefix_append _ _)) (hinv.behind.trans (Behind.of_prefix ?_))
    rw [hstored]
    exact List.prefix_append _ _
  have hmsgs := htaken.map (c := fun m : Cofmsg => (rxqueueOf v m.type).getD .oam) (g := Received.msg)
  have hnamed : some ∘ (fun m : Cofmsg => (rxqueueOf v m.type).getD .oam) = fun m => rxqueueOf v m.type :=
    funext fun m => (RxConn.rxqueueOf_eq hv m.type).symm
  have hrx := hmsgs.comp fun _ _ hsome => Option.some.inj hsome
  rw [map_msg_received, hnamed] at hrx
  have hsent : Behind Tx.queueOf (parsed.filter (passes v)) (l.tx.stored.filter (passes v)) :=
    ((Behind.of_prefix h.start).trans htx.inv.behind).filter _
  exact hsent.pair hrx

theorem Flows.perm (htx : l.tx.Sound) (h : Flows v l parsed taken) (hd : Drained l) :
    (taken.map Received.msg).Perm (l.tx.stored.filter (passes v)) := by
  obtain ⟨stored, hstored, hinv⟩ := h.passing.stream
  -- everything taken out of the octets has been taken out of the queues
  have htaken : taken.Perm ((parsed.filter (passes v)).map received) := by
    refine Agree.perm (c := RxConn.rxqueue v) fun k => ?_
    have horder := hinv.order k
    simp only [RxConn.outbox, hd.rxqueues, hd.handler, HandlerPc.message, Option.toList_none, List.append_nil] at horder
    rw [hstored, hd.recv, horder]
    simp [RxConn.storing]
  have hmsgs := htaken.map Received.msg
  rw [map_msg_received] at hmsgs
  -- all the octets have been parsed
  have hall : parsed = l.tx.packed := by
    refine h.start.eq_of_length ?_
    have hnothing : (l.view parsed).incoming = [] := by simp [view, hd.incoming, hd.txbuffer]
    have hidle : (l.view parsed).rx.pc ≠ .parse := by simp [hd.pc]
    have hlen := congrArg List.length (h.framed.inStep.all hnothing hidle)
    simpa [view] using hlen
  -- and everything stored has been packed
  have hpacked : l.tx.packed.Perm l.tx.stored := by
    refine Agree.perm (c := Tx.queueOf) fun k => ?_
    have horder := htx.inv.order k
    simp only [Tx.outbox, hd.txqueues, List.append_nil] at horder
    exact horder
  rw [hall] at hmsgs
  exact hmsgs.trans (hpacked.filter _)

theorem Flows.delivers (hv : Known v) (htx : l.tx.Sound) (h : Flows v l parsed taken) :
    Delivers v l (taken.map Received.msg) where
  handed := by
    rw [h.passing.handed, List.map_map]
    obtain ⟨stored, hstored, hinv⟩ := h.passing.stream
    refine List.map_congr_left fun r hr => ?_
    have hmem : r ∈ (parsed.filter (passes v)).map received := by
      rw [hstored]
      exact List.mem_append_left _ (hinv.mem_stored (List.mem_append_left _ hr))
    obtain ⟨m, -, rfl⟩ := List.mem_map.mp hmem
    rfl
  order := h.behind hv htx
  all := h.perm htx

/-- **Delivery**: on a connection that stays up, the application of the one
peer is handed messages that the application of the other has sent, unchanged
and none twice; those that share both queues in the order in which they were
sent, with none left out; and once nothing is under way, all of them. -/
theorem delivery {unpack : Unpack} {v : UInt8} {l t : Link} {as : List Act} (hs : Start v l)
    (hok : ∀ a ∈ as, Undisturbed unpack v a) (h : Runs.run (step unpack) l as = some t) : ∃ ms, Delivers v t ms := by
  have hkeep : ∀ l a l', Sound unpack v l → Undisturbed unpack v a → step unpack l a = some l' → Sound unpack v l' :=
    fun l a l' hsound hok hstep => hsound.step hs.version hok hstep
  have hsound : Sound unpack v t := Runs.invariant_of_meets hkeep hs.sound (Runs.meets_of_forall hok) h
  obtain ⟨parsed, taken, hflows⟩ := hsound.flows
  exact ⟨_, hflows.delivers hs.version hsound.tx⟩

/-! ## A message that overtakes another -/

/-- A message without a body is read by a class that decodes nothing but the
header. -/
theorem readable_headerOnly {version type : UInt8} {c : MsgClass}
    (hclass : ∀ mem : Memory, mem 0 = version → mem 1 = type → messageClass mem 65536 = .ok c) :
    Readable Receiver.headerOnly ⟨version, type, 0, []⟩ where
  short := by simp [Cofmsg.length, sizeofHeader]
  parses b hcontent hr hsize := by
    have hmem : ∀ i, i < 8 → b.mem i = (Cofmsg.pack ⟨version, type, 0, []⟩).getD i 0 := by
      intro i hi
      rw [Receiver.mem_eq_of_content hr (by rw [hcontent]; exact hi), hcontent]
    have hversion : b.mem 0 = version := hmem 0 (by decide)
    have htype : b.mem 1 = type := hmem 1 (by decide)
    have hlen : b.rmemlen = 8 := by
      rw [← Cbuffer.length_content, hcontent]
      rfl
    unfold parseBuffer
    rw [hsize, hclass b.mem hversion htype]
    simp [Receiver.headerOnly, hr, hversion, htype, hlen, octetsFrom]

def packetIn : Cofmsg := ⟨Openflow13.OFP_VERSION, Openflow13.OFPT_PACKET_IN, 0, []⟩

def barrierReply : Cofmsg := ⟨Openflow13.OFP_VERSION, Openflow13.OFPT_BARRIER_REPLY, 0, []⟩

/-- A connection of version 1.3 on sockets never used before. -/
def established : Link where
  tx := Tx.connected
  incoming := []
  rxbuffer := Cbuffer.new 65536
  nbytes := 0
  pc := .idle
  conn := { RxConn.new fun _ => 128 with
    state := .established
    ofpVersion := Openflow13.OFP_VERSION
    sockState := .tcpEstablished
    readFd := true }

theorem start_established : Start Openflow13.OFP_VERSION established where
  tx := Tx.start_connected
  incoming := rfl
  empty := rfl
  rbytes := rfl
  size := rfl
  pc := rfl
  version := .inr (.inr rfl)
  state := ⟨rfl, rfl⟩
  socket := ⟨rfl, rfl⟩
  threads := ⟨rfl, rfl⟩
  rxqueues _ := rfl
  fresh := ⟨rfl, rfl⟩

def sends (m : Cofmsg) : List Act :=
  [.tx (.sendMessage m false), .tx (.store 0), .tx (.count 0), .tx (.test 0), .tx (.return 0)]

def receives : List Act := [.round (.bytes 7), .parse] ++ List.replicate 6 (.conn .recv) ++ [.handled false]

/-- Both messages are stored before the TX thread runs. -/
def overtaking : List Act :=
  sends packetIn ++ sends barrierReply ++ [.tx .handleWakeup] ++ List.replicate 22 (.tx (.tx (.bytes 99) false)) ++
    [.call] ++ receives ++ receives ++ [.round .again, .conn .handleWakeup] ++
      List.replicate 33 (.conn (.handler .returns))

theorem undisturbed_overtaking : ∀ a ∈ overtaking, Undisturbed Receiver.headerOnly Openflow13.OFP_VERSION a := by
  have hpacketIn : Readable Receiver.headerOnly packetIn := readable_headerOnly (c := .packetIn) (by
    intro mem h0 h1
    unfold messageClass
    rw [h0, h1]
    rfl)
  have hbarrierReply : Readable Receiver.headerOnly barrierReply := readable_headerOnly (c := .barrierReply) (by
    intro mem h0 h1
    unfold messageClass
    rw [h0, h1]
    rfl)
  have hwhole : ∀ m, RxConn.multipart Openflow13.OFP_VERSION m = false → Whole Openflow13.OFP_VERSION m := by
    intro m hm hmulti
    rw [hm] at hmulti
    cases hmulti
  have hfirst := hwhole packetIn (by decide)
  have hsecond := hwhole barrierReply (by decide)
  simp [overtaking, sends, receives, Undisturbed, Steady, or_imp, forall_and, hpacketIn, hbarrierReply, hfirst, hsecond]

/-- The BARRIER_REPLY is stored last and handed over first. -/
theorem delivery_overtaken : ∃ t, Runs.run (step Receiver.headerOnly) established overtaking = some t ∧
    t.tx.stored = [packetIn, barrierReply] ∧ t.conn.handed = [barrierReply.pack, packetIn.pack] ∧
    ∃ ms, Delivers Openflow13.OFP_VERSION t ms := by
  obtain ⟨t, hrun, hstored, hhanded⟩ : ∃ t ∈ Runs.run (step Receiver.headerOnly) established overtaking,
      t.tx.stored = [packetIn, barrierReply] ∧ t.conn.handed = [barrierReply.pack, packetIn.pack] := by
    decide +kernel
  exact ⟨t, hrun, hstored, hhanded, delivery start_established undisturbed_overtaking hrun⟩

end Link

end RoflCommon
