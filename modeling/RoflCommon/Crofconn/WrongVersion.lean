/-
Messages of another version than the one negotiated: what `crofconn::handle_recv` answers.

The answer carries the first octets of the message, which is packed once more for that:
into a buffer as long as the message as long as the negotiation goes on, but into one of 64
octets at most once the connection is established. Every class finds out that its message
does not fit, so that a longer one is not answered but ends in an exception
(`wrongVersion_answered_iff`).
-/
import RoflCommon.Crofconn.Events
import RoflCommon.Crofconn.SendMessage
import RoflCommon.Crofsock.Parse

namespace RoflCommon

/-- What comes of packing a message, if not its octets. -/
inductive PackException
  /-- `eInvalid`. -/
  | inval
  /-- `eBadRequestBadLen`. -/
  | badRequestBadLen
  /-- What is thrown by the parts of a message. -/
  | parts
  /-- Octets behind the buffer have been written to. -/
  | overrun
deriving DecidableEq, Repr

namespace MsgClass

/-- How a class finds out that its message does not fit into the buffer. -/
inductive Check
  /-- There is no `pack` but that of `cofmsg`. -/
  | none
  /-- By `length()`. -/
  | length (e : PackException)
  /-- By the length in the header, of 16 bits. -/
  | getLength
deriving DecidableEq, Repr

def check : MsgClass → Check
  | .featuresRequest | .getConfigRequest => .none
  | .hello | .error | .echoRequest | .echoReply | .featuresReply | .getConfigReply | .setConfig | .packetOut | .packetIn
  | .flowMod | .portStatus | .barrierRequest | .barrierReply => .getLength
  | .flowRemoved => .length .badRequestBadLen
  -- statistics are checked twice, first for their common header
  | .statsRequest _ | .statsReply _ => .length .inval
  | .experimenter | .groupMod | .portMod | .tableMod | .queueGetConfigRequest | .queueGetConfigReply | .roleRequest
  | .roleReply | .getAsyncConfigRequest | .getAsyncConfigReply | .setAsyncConfig | .meterMod => .length .inval

end MsgClass

/-- A message object: what `handle_recv` looks at, its class and type, and what the class
packs behind the header where there is room for it. -/
structure MsgObject where
  msg : Msg
  cls : MsgClass
  type : UInt8
  length : ℕ
  body : Except PackException (List UInt8)
  header_le : sizeofHeader ≤ length
  length_body : ∀ b, body = .ok b → sizeofHeader + b.length = length
  bare : cls.check = .none → length = sizeofHeader

namespace MsgObject

/-- The check of a class. -/
def checkLength (m : MsgObject) (buflen : ℕ) : Except PackException Unit :=
  match m.cls.check with
  | .none => .ok ()
  | .length e => if buflen < m.length then .error e else .ok ()
  | .getLength =>
    if buflen < m.length % 65536 then .error .inval else if buflen < m.length then .error .overrun else .ok ()

/-- `pack` into a buffer of so many octets: the header, and what the class adds to it. -/
def pack (m : MsgObject) (buflen : ℕ) : Except PackException (List UInt8) :=
  if buflen = 0 then .ok []
  else if buflen < sizeofHeader then .error .inval
  else do
    m.checkLength buflen
    let body ← m.body
    return Cofmsg.packHeader m.msg.version m.type m.length m.msg.xid ++ body ++ .replicate (buflen - m.length) 0

end MsgObject

/-- `cofmsg_error_bad_request_bad_version`. -/
def badRequestBadVersion (ofpVersion : UInt8) (xid : UInt32) (data : List UInt8) : Cofmsg :=
  ⟨ofpVersion, Openflow10.OFPT_ERROR, xid,
    htobe16 Openflow.OFPET_BAD_REQUEST ++ htobe16 Openflow.OFPBRC_BAD_VERSION ++ data⟩

/-- What `handle_recv` reads and writes. -/
structure RecvConn where
  conn : Conn
  rxqueues : QueueId → List MsgObject
  rofsock : Tx

namespace RecvConn

/-- The end of `handle_recv` is reached. -/
def stores (c : Conn) (m : Msg) : Bool :=
  match c.fsm.state with
  | .negotiating2 =>
    match m with
    | .featuresReply _ _ | .error _ _ _ | .echoRequest _ _ => false
    | _ => true
  | .established =>
    match m with
    | .echoRequest _ _ | .echoReply _ _ => false
    | _ => true
  | _ => false

/-- A message that is not refused for its version; how the queues keep the peer from sending
more is left to the model of the receiving half. -/
def dispatch (s : RecvConn) (m : MsgObject) : RecvConn :=
  { s with
    conn := s.conn.handleRecv m.msg
    rxqueues :=
      match rxqueueOf s.conn.fsm.ofpVersion m.type with
      | none => s.rxqueues
      | some q => if stores s.conn m.msg then Function.update s.rxqueues q (s.rxqueues q ++ [m]) else s.rxqueues }

/-- The message is packed into `memlen` octets, and `len` of them are sent back; the answer
is short enough for `segment_and_send_message` to hand it on as it is. -/
def reject (s : RecvConn) (m : MsgObject) (memlen len : ℕ) : Except PackException RecvConn := do
  let mem ← m.pack memlen
  let error := badRequestBadVersion s.conn.fsm.ofpVersion m.msg.xid (mem.take len)
  return { s with rofsock := (s.rofsock.call error false).1 }

def handleRecv (s : RecvConn) (m : MsgObject) : Except PackException RecvConn :=
  let len := if m.length < 64 then m.length else 64
  match s.conn.fsm.state with
  | .connectPending | .acceptPending | .negotiating =>
    if m.msg.version = Openflow.OFP_VERSION_UNKNOWN then s.reject m m.length len else .ok (s.dispatch m)
  | .negotiating2 => if m.msg.version ≠ s.conn.fsm.ofpVersion then s.reject m m.length len else .ok (s.dispatch m)
  | .established => if m.msg.version ≠ s.conn.fsm.ofpVersion then s.reject m len len else .ok (s.dispatch m)
  | _ => .ok (s.dispatch m)

/-- The message is answered with an error that has the negotiated version, its xid and its
first octets, and nothing else changes. -/
def Answers (s : RecvConn) (m : MsgObject) : Prop :=
  ∃ octets s', m.pack m.length = .ok octets ∧ s.handleRecv m = .ok s' ∧ s'.conn = s.conn ∧ s'.rxqueues = s.rxqueues ∧
    s.rofsock.Stored s'.rofsock
      [badRequestBadVersion s.conn.fsm.ofpVersion m.msg.xid (octets.take (min 64 m.length))]

/-- The transmit queues take messages. -/
def Accepting (s : RecvConn) : Prop :=
  s.rofsock.Up ∧ ∀ q, (s.rofsock.txqueues q).size < (s.rofsock.txqueues q).queueMaxSize

end RecvConn

namespace MsgObject

variable {m : MsgObject}

/-- There is room for the message. -/
theorem pack_length (m : MsgObject) : m.pack m.length =
    m.body.map (Cofmsg.packHeader m.msg.version m.type m.length m.msg.xid ++ ·) := by
  have hle : 8 ≤ m.length := m.header_le
  have hcheck : m.checkLength m.length = .ok () := by
    unfold checkLength
    have hmod := Nat.mod_le m.length 65536
    split
    · rfl
    · exact if_neg (Nat.lt_irrefl _)
    · rw [if_neg (by omega), if_neg (Nat.lt_irrefl _)]
  rw [pack, if_neg (by omega), if_neg (Nat.not_lt.mpr m.header_le), hcheck, Nat.sub_self]
  cases m.body with
  | error e => rfl
  | ok b =>
    show Except.ok (_ ++ b ++ []) = Except.ok _
    rw [List.append_nil]

/-- There is none. -/
theorem pack_short {buflen : ℕ} (hbuf : sizeofHeader ≤ buflen) (h : buflen < m.length) :
    ∃ e, m.pack buflen = .error e := by
  have hle : 8 ≤ buflen := hbuf
  obtain ⟨e, he⟩ : ∃ e, m.checkLength buflen = .error e := by
    unfold checkLength
    split
    · next hnone =>
      have hbare : m.length = 8 := m.bare hnone
      omega
    · next e _ => exact ⟨e, if_pos h⟩
    · by_cases hmod : buflen < m.length % 65536
      · exact ⟨_, if_pos hmod⟩
      · exact ⟨_, (if_neg hmod).trans (if_pos h)⟩
  refine ⟨e, ?_⟩
  rw [pack, if_neg (by omega), if_neg (Nat.not_lt.mpr hbuf), he]
  rfl

end MsgObject

namespace RecvConn

variable {s : RecvConn} {m : MsgObject}

theorem len_eq (m : MsgObject) : (if m.length < 64 then m.length else 64) = min 64 m.length := by
  split <;> omega

/-- A message that can be packed is answered. -/
theorem stored_reject (hs : s.Accepting) {memlen : ℕ} {octets : List UInt8} (hpack : m.pack memlen = .ok octets) (len : ℕ) :
    ∃ s', s.reject m memlen len = .ok s' ∧ s'.conn = s.conn ∧ s'.rxqueues = s.rxqueues ∧
      s.rofsock.Stored s'.rofsock [badRequestBadVersion s.conn.fsm.ofpVersion m.msg.xid (octets.take len)] := by
  rw [reject, hpack]
  exact ⟨_, rfl, rfl, rfl, (Tx.call_accepted false hs.1 (.inr (.inr (hs.2 _)))).2.1⟩

/-- **A message of another version is answered exactly if it can be packed at all and, on an
established connection, has no more than 64 octets.** -/
theorem wrongVersion_answered_iff (hstate : s.conn.fsm.state = .negotiating2 ∨ s.conn.fsm.state = .established)
    (hversion : m.msg.version ≠ s.conn.fsm.ofpVersion) (hs : s.Accepting) :
    s.Answers m ↔ (∃ b, m.body = .ok b) ∧ (s.conn.fsm.state = .established → m.length ≤ 64) := by
  have hlength := m.pack_length
  have hbody : (∃ octets, m.pack m.length = .ok octets) ↔ ∃ b, m.body = .ok b := by
    rw [hlength]
    cases m.body with
    | error e => simp [Except.map]
    | ok b => simp [Except.map]
  rw [← hbody]
  unfold Answers handleRecv
  rcases hstate with hstate | hstate
  · simp only [hstate, hversion, if_true, len_eq, ne_eq, not_false_eq_true]
    constructor
    · rintro ⟨octets, -, hpack, -⟩
      exact ⟨⟨octets, hpack⟩, by simp⟩
    · rintro ⟨⟨octets, hpack⟩, -⟩
      obtain ⟨s', hs'⟩ := stored_reject hs hpack (min 64 m.length)
      exact ⟨octets, s', hpack, hs'⟩
  · simp only [hstate, hversion, if_true, len_eq, ne_eq, not_false_eq_true, true_implies]
    constructor
    · rintro ⟨octets, s', hpack, hs', -⟩
      refine ⟨⟨octets, hpack⟩, ?_⟩
      by_contra hlong
      have hmin : min 64 m.length = 64 := by omega
      have height : sizeofHeader ≤ 64 := by decide
      have hlt : 64 < m.length := by omega
      obtain ⟨e, he⟩ := m.pack_short height hlt
      rw [reject, hmin, he] at hs'
      cases hs'
    · rintro ⟨⟨octets, hpack⟩, hshort⟩
      have hmin : min 64 m.length = m.length := Nat.min_eq_right hshort
      rw [hmin]
      obtain ⟨s', hs'⟩ := stored_reject hs hpack m.length
      exact ⟨octets, s', hpack, hs'⟩

/-- A connection with this version, in a state. -/
def withVersion (ofpVersion : UInt8) (state : ConnState) : RecvConn where
  conn := { Conn.new 1 2 with fsm := { Crofconn.new 1 2 with ofpVersion, state } }
  rxqueues _ := []
  rofsock := { Tx.new with state := .tcpEstablished }

/-- A packet of so many octets, received with version 1.0. -/
def packetIn (n : ℕ) : MsgObject where
  msg := .other Openflow10.OFP_VERSION 5
  cls := .packetIn
  type := Openflow10.OFPT_PACKET_IN
  length := sizeofHeader + (10 + n)
  body := .ok (.replicate (10 + n) 0xee)
  header_le := Nat.le_add_right _ _
  length_body b hb := by
    cases hb
    rw [List.length_replicate]
  bare h := by cases h

theorem accepting_withVersion (ofpVersion : UInt8) (state : ConnState) : (withVersion ofpVersion state).Accepting :=
  ⟨⟨rfl, rfl⟩,
    fun _ => show (Crofqueue.new : Crofqueue Cofmsg).size < (Crofqueue.new : Crofqueue Cofmsg).queueMaxSize by decide⟩

/-- A packet of 46 octets is answered. -/
theorem wrongVersion_answered_packetIn : (withVersion Openflow13.OFP_VERSION .established).Answers (packetIn 46) :=
  (wrongVersion_answered_iff (.inr rfl) (by decide) (accepting_withVersion _ _)).mpr ⟨⟨_, rfl⟩, fun _ => by decide⟩

/-- A packet of 60 octets is answered while the connection is negotiating, and ends in an
exception once it is established. -/
theorem packetIn_throws :
    (withVersion Openflow13.OFP_VERSION .negotiating2).Answers (packetIn 60) ∧
    (withVersion Openflow13.OFP_VERSION .established).Accepting ∧
    ((withVersion Openflow13.OFP_VERSION .established).handleRecv (packetIn 60)).toOption.isNone ∧
    ¬(withVersion Openflow13.OFP_VERSION .established).Answers (packetIn 60) := by
  have hthrows : (withVersion Openflow13.OFP_VERSION .established).handleRecv (packetIn 60) = .error .inval := rfl
  refine ⟨?_, accepting_withVersion _ _, by rw [hthrows]; rfl, fun h => ?_⟩
  · obtain ⟨s', hs'⟩ := stored_reject (m := packetIn 60) (accepting_withVersion Openflow13.OFP_VERSION .negotiating2)
      (MsgObject.pack_length _) 64
    exact ⟨_, s', MsgObject.pack_length _, hs'⟩
  · obtain ⟨-, s', -, hs', -⟩ := h
    rw [hthrows] at hs'
    cases hs'

end RecvConn

end RoflCommon
