/-
OpenFlow messages as the connection code sees them: the protocol versions,
the common header, and the choice of one of four queues by version and
message type (`crofsock::send_message` for transmission,
`crofconn::handle_recv` for reception).

A message body is a list of octets; what the body of each message type means
matters to none of the code modelled here.
-/
import Mathlib.Tactic.Common

theorem Except.bind_eq_ok {ε α β : Type} {x : Except ε α} {f : α → Except ε β} {b : β} :
    x >>= f = .ok b ↔ ∃ a, x = .ok a ∧ f a = .ok b := by
  cases x with
  | error e => simp [bind, Except.bind]
  | ok a => simp [bind, Except.bind]

namespace RoflCommon

/-! ## Octets -/

/-- An unsigned 16-bit number in network byte order. -/
def htobe16 (n : Nat) : List UInt8 := [UInt8.ofNat (n / 256), UInt8.ofNat n]

/-- An unsigned 32-bit number in network byte order. -/
def htobe32 (n : Nat) : List UInt8 := htobe16 (n / 65536) ++ htobe16 (n % 65536)

/-- The number two octets in network byte order stand for. -/
def be16toh (hi lo : UInt8) : Nat := hi.toNat * 256 + lo.toNat

@[simp] theorem length_htobe16 (n : Nat) : (htobe16 n).length = 2 := rfl

@[simp] theorem length_htobe32 (n : Nat) : (htobe32 n).length = 4 := rfl

theorem be16toh_lt (hi lo : UInt8) : be16toh hi lo < 65536 := by
  have := hi.toNat_lt
  have := lo.toNat_lt
  unfold be16toh
  omega

/-- A length with padding, if it is not a multiple of 8. -/
def padded (n : ℕ) : ℕ := if n % 8 ≠ 0 then n + (8 - n % 8) else n

theorem le_padded (n : ℕ) : n ≤ padded n := by
  unfold padded
  split <;> omega

theorem padded_mod (n : ℕ) : padded n % 8 = 0 := by
  unfold padded
  split <;> omega

theorem padded_lt (n : ℕ) : padded n < n + 8 := by
  unfold padded
  split <;> omega

/-! ## Versions, message types and types of statistics -/

namespace Openflow

def OFP_VERSION_UNKNOWN : UInt8 := 0

def OFP_NO_BUFFER : UInt32 := 0xffffffff
def OFPP_ANY : UInt32 := 0xffffffff
def OFPG_ALL : UInt32 := 0xfffffffc
def OFPG_ANY : UInt32 := 0xffffffff

def OFPET_BAD_REQUEST : Nat := 1
def OFPET_ROLE_REQUEST_FAILED : Nat := 11

def OFPBRC_BAD_VERSION : Nat := 0
def OFPBRC_IS_SLAVE : Nat := 10

def OFPRRFC_STALE : Nat := 0
def OFPRRFC_BAD_ROLE : Nat := 2

def OFPIT_GOTO_TABLE : Nat := 1
def OFPIT_WRITE_METADATA : Nat := 2
def OFPIT_WRITE_ACTIONS : Nat := 3
def OFPIT_APPLY_ACTIONS : Nat := 4
def OFPIT_CLEAR_ACTIONS : Nat := 5

def OFPAT_OUTPUT : Nat := 0
def OFPAT_COPY_TTL_OUT : Nat := 11
def OFPAT_COPY_TTL_IN : Nat := 12
def OFPAT_SET_MPLS_TTL : Nat := 15
def OFPAT_DEC_MPLS_TTL : Nat := 16
def OFPAT_PUSH_VLAN : Nat := 17
def OFPAT_POP_VLAN : Nat := 18
def OFPAT_PUSH_MPLS : Nat := 19
def OFPAT_POP_MPLS : Nat := 20
def OFPAT_SET_QUEUE : Nat := 21
def OFPAT_GROUP : Nat := 22
def OFPAT_SET_NW_TTL : Nat := 23
def OFPAT_DEC_NW_TTL : Nat := 24
def OFPAT_SET_FIELD : Nat := 25

end Openflow

namespace Openflow10

def OFP_VERSION : UInt8 := 1

def OFPT_HELLO : UInt8 := 0
def OFPT_ERROR : UInt8 := 1
def OFPT_ECHO_REQUEST : UInt8 := 2
def OFPT_ECHO_REPLY : UInt8 := 3
def OFPT_VENDOR : UInt8 := 4
def OFPT_FEATURES_REQUEST : UInt8 := 5
def OFPT_FEATURES_REPLY : UInt8 := 6
def OFPT_GET_CONFIG_REQUEST : UInt8 := 7
def OFPT_GET_CONFIG_REPLY : UInt8 := 8
def OFPT_SET_CONFIG : UInt8 := 9
def OFPT_PACKET_IN : UInt8 := 10
def OFPT_FLOW_REMOVED : UInt8 := 11
def OFPT_PORT_STATUS : UInt8 := 12
def OFPT_PACKET_OUT : UInt8 := 13
def OFPT_FLOW_MOD : UInt8 := 14
def OFPT_PORT_MOD : UInt8 := 15
def OFPT_STATS_REQUEST : UInt8 := 16
def OFPT_STATS_REPLY : UInt8 := 17
def OFPT_BARRIER_REQUEST : UInt8 := 18
def OFPT_BARRIER_REPLY : UInt8 := 19
def OFPT_QUEUE_GET_CONFIG_REQUEST : UInt8 := 20
def OFPT_QUEUE_GET_CONFIG_REPLY : UInt8 := 21

def OFPST_DESC : Nat := 0
def OFPST_FLOW : Nat := 1
def OFPST_AGGREGATE : Nat := 2
def OFPST_TABLE : Nat := 3
def OFPST_PORT : Nat := 4
def OFPST_QUEUE : Nat := 5
def OFPST_VENDOR : Nat := 65535

end Openflow10

namespace Openflow12

def OFP_VERSION : UInt8 := 3

def OFPT_HELLO : UInt8 := 0
def OFPT_ERROR : UInt8 := 1
def OFPT_ECHO_REQUEST : UInt8 := 2
def OFPT_ECHO_REPLY : UInt8 := 3
def OFPT_EXPERIMENTER : UInt8 := 4
def OFPT_FEATURES_REQUEST : UInt8 := 5
def OFPT_FEATURES_REPLY : UInt8 := 6
def OFPT_GET_CONFIG_REQUEST : UInt8 := 7
def OFPT_GET_CONFIG_REPLY : UInt8 := 8
def OFPT_SET_CONFIG : UInt8 := 9
def OFPT_PACKET_IN : UInt8 := 10
def OFPT_FLOW_REMOVED : UInt8 := 11
def OFPT_PORT_STATUS : UInt8 := 12
def OFPT_PACKET_OUT : UInt8 := 13
def OFPT_FLOW_MOD : UInt8 := 14
def OFPT_GROUP_MOD : UInt8 := 15
def OFPT_PORT_MOD : UInt8 := 16
def OFPT_TABLE_MOD : UInt8 := 17
def OFPT_STATS_REQUEST : UInt8 := 18
def OFPT_STATS_REPLY : UInt8 := 19
def OFPT_BARRIER_REQUEST : UInt8 := 20
def OFPT_BARRIER_REPLY : UInt8 := 21
def OFPT_QUEUE_GET_CONFIG_REQUEST : UInt8 := 22
def OFPT_QUEUE_GET_CONFIG_REPLY : UInt8 := 23
def OFPT_ROLE_REQUEST : UInt8 := 24
def OFPT_ROLE_REPLY : UInt8 := 25
def OFPT_GET_ASYNC_REQUEST : UInt8 := 26
def OFPT_GET_ASYNC_REPLY : UInt8 := 27
def OFPT_SET_ASYNC : UInt8 := 28

def OFPST_DESC : Nat := 0
def OFPST_FLOW : Nat := 1
def OFPST_AGGREGATE : Nat := 2
def OFPST_TABLE : Nat := 3
def OFPST_PORT : Nat := 4
def OFPST_QUEUE : Nat := 5
def OFPST_GROUP : Nat := 6
def OFPST_GROUP_DESC : Nat := 7
def OFPST_GROUP_FEATURES : Nat := 8
def OFPST_EXPERIMENTER : Nat := 65535

end Openflow12

namespace Openflow13

def OFP_VERSION : UInt8 := 4

def OFPT_HELLO : UInt8 := 0
def OFPT_ERROR : UInt8 := 1
def OFPT_ECHO_REQUEST : UInt8 := 2
def OFPT_ECHO_REPLY : UInt8 := 3
def OFPT_EXPERIMENTER : UInt8 := 4
def OFPT_FEATURES_REQUEST : UInt8 := 5
def OFPT_FEATURES_REPLY : UInt8 := 6
def OFPT_GET_CONFIG_REQUEST : UInt8 := 7
def OFPT_GET_CONFIG_REPLY : UInt8 := 8
def OFPT_SET_CONFIG : UInt8 := 9
def OFPT_PACKET_IN : UInt8 := 10
def OFPT_FLOW_REMOVED : UInt8 := 11
def OFPT_PORT_STATUS : UInt8 := 12
def OFPT_PACKET_OUT : UInt8 := 13
def OFPT_FLOW_MOD : UInt8 := 14
def OFPT_GROUP_MOD : UInt8 := 15
def OFPT_PORT_MOD : UInt8 := 16
def OFPT_TABLE_MOD : UInt8 := 17
def OFPT_MULTIPART_REQUEST : UInt8 := 18
def OFPT_MULTIPART_REPLY : UInt8 := 19
def OFPT_BARRIER_REQUEST : UInt8 := 20
def OFPT_BARRIER_REPLY : UInt8 := 21
def OFPT_QUEUE_GET_CONFIG_REQUEST : UInt8 := 22
def OFPT_QUEUE_GET_CONFIG_REPLY : UInt8 := 23
def OFPT_ROLE_REQUEST : UInt8 := 24
def OFPT_ROLE_REPLY : UInt8 := 25
def OFPT_GET_ASYNC_REQUEST : UInt8 := 26
def OFPT_GET_ASYNC_REPLY : UInt8 := 27
def OFPT_SET_ASYNC : UInt8 := 28
def OFPT_METER_MOD : UInt8 := 29

def OFPMP_DESC : Nat := 0
def OFPMP_FLOW : Nat := 1
def OFPMP_AGGREGATE : Nat := 2
def OFPMP_TABLE : Nat := 3
def OFPMP_PORT_STATS : Nat := 4
def OFPMP_QUEUE : Nat := 5
def OFPMP_GROUP : Nat := 6
def OFPMP_GROUP_DESC : Nat := 7
def OFPMP_GROUP_FEATURES : Nat := 8
def OFPMP_METER : Nat := 9
def OFPMP_METER_CONFIG : Nat := 10
def OFPMP_METER_FEATURES : Nat := 11
def OFPMP_TABLE_FEATURES : Nat := 12
def OFPMP_PORT_DESC : Nat := 13
def OFPMP_EXPERIMENTER : Nat := 65535

def OFPR_NO_MATCH : Nat := 0
def OFPR_ACTION : Nat := 1
def OFPR_INVALID_TTL : Nat := 2

def OFPRR_IDLE_TIMEOUT : Nat := 0
def OFPRR_HARD_TIMEOUT : Nat := 1
def OFPRR_DELETE : Nat := 2
def OFPRR_GROUP_DELETE : Nat := 3

def OFPPR_ADD : Nat := 0
def OFPPR_DELETE : Nat := 1
def OFPPR_MODIFY : Nat := 2

end Openflow13

/-! ## Messages -/

/-- The length of the common header, `sizeof(struct ofp_header)`. -/
def sizeofHeader : Nat := 8

/-- `cofmsg`: the header fields, and the octets the message packs after them. -/
structure Cofmsg where
  version : UInt8
  type : UInt8
  xid : UInt32
  body : List UInt8
deriving DecidableEq, Repr

namespace Cofmsg

/-- `cofmsg::pack` of the header of a message of `len` octets: the length
field has 16 bits. -/
def packHeader (version type : UInt8) (len : Nat) (xid : UInt32) : List UInt8 :=
  [version, type] ++ htobe16 (len % 65536) ++ htobe32 xid.toNat

@[simp] theorem length_packHeader (version type : UInt8) (len : Nat) (xid : UInt32) :
    (packHeader version type len xid).length = sizeofHeader := rfl

def length (m : Cofmsg) : Nat := sizeofHeader + m.body.length

def pack (m : Cofmsg) : List UInt8 := packHeader m.version m.type m.length m.xid ++ m.body

@[simp] theorem length_pack (m : Cofmsg) : m.pack.length = m.length := by
  simp [pack, length]

theorem length_pos (m : Cofmsg) : 0 < m.length := by
  unfold length sizeofHeader
  omega

end Cofmsg

/-! ## Queues -/

/-- The four queues of either direction, in the order of their numbers. -/
inductive QueueId
  | oam | mgmt | flow | pkt
deriving DecidableEq, Repr

namespace QueueId

/-- `QUEUE_MAX` queues, numbered as the loops run over them. -/
def toNat : QueueId → Nat
  | oam => 0 | mgmt => 1 | flow => 2 | pkt => 3

/-- The queue the loops turn to next. -/
def next : QueueId → Option QueueId
  | oam => some mgmt | mgmt => some flow | flow => some pkt | pkt => none

/-- The scheduler weights, `txweights` of `crofsock` and `rxweights` of
`crofconn`: how many messages of the queue a round takes at most. -/
def weight : QueueId → Nat
  | oam => 16 | mgmt => 32 | flow => 16 | pkt => 8

def all : List QueueId := [oam, mgmt, flow, pkt]

theorem mem_all (q : QueueId) : q ∈ all := by cases q <;> decide

theorem weight_pos (q : QueueId) : 0 < q.weight := by cases q <;> decide

end QueueId

open QueueId in
/-- The queue `crofsock::send_message` stores a message in. -/
def txqueueOf (version type : UInt8) : QueueId :=
  if version = Openflow10.OFP_VERSION then
    if type ∈ [Openflow10.OFPT_PACKET_IN, Openflow10.OFPT_PACKET_OUT] then pkt
    else if type ∈ [Openflow10.OFPT_FLOW_MOD, Openflow10.OFPT_FLOW_REMOVED,
        Openflow10.OFPT_BARRIER_REPLY, Openflow10.OFPT_BARRIER_REQUEST] then flow
    else if type ∈ [Openflow10.OFPT_ECHO_REQUEST, Openflow10.OFPT_ECHO_REPLY] then oam
    else mgmt
  else if version = Openflow12.OFP_VERSION then
    if type ∈ [Openflow12.OFPT_PACKET_IN, Openflow12.OFPT_PACKET_OUT] then pkt
    else if type ∈ [Openflow12.OFPT_FLOW_MOD, Openflow12.OFPT_FLOW_REMOVED, Openflow12.OFPT_GROUP_MOD,
        Openflow12.OFPT_PORT_MOD, Openflow12.OFPT_TABLE_MOD, Openflow12.OFPT_BARRIER_REPLY,
        Openflow12.OFPT_BARRIER_REQUEST] then flow
    else if type ∈ [Openflow12.OFPT_ECHO_REQUEST, Openflow12.OFPT_ECHO_REPLY] then oam
    else mgmt
  else
    if type ∈ [Openflow13.OFPT_PACKET_IN, Openflow13.OFPT_PACKET_OUT] then pkt
    else if type ∈ [Openflow13.OFPT_FLOW_MOD, Openflow13.OFPT_FLOW_REMOVED, Openflow13.OFPT_GROUP_MOD,
        Openflow13.OFPT_PORT_MOD, Openflow13.OFPT_TABLE_MOD, Openflow13.OFPT_BARRIER_REPLY,
        Openflow13.OFPT_BARRIER_REQUEST] then flow
    else if type ∈ [Openflow13.OFPT_ECHO_REQUEST, Openflow13.OFPT_ECHO_REPLY] then oam
    else mgmt

open QueueId in
/-- The queue `crofconn::handle_recv` stores a message in; with any other
negotiated version the message is deleted. -/
def rxqueueOf (ofpVersion type : UInt8) : Option QueueId :=
  if ofpVersion = Openflow10.OFP_VERSION then
    if type ∈ [Openflow10.OFPT_PACKET_IN, Openflow10.OFPT_PACKET_OUT] then pkt
    else if type ∈ [Openflow10.OFPT_FLOW_MOD, Openflow10.OFPT_FLOW_REMOVED,
        Openflow10.OFPT_STATS_REQUEST, Openflow10.OFPT_STATS_REPLY,
        Openflow10.OFPT_BARRIER_REQUEST, Openflow10.OFPT_BARRIER_REPLY] then flow
    else if type ∈ [Openflow10.OFPT_HELLO, Openflow10.OFPT_ECHO_REQUEST, Openflow10.OFPT_ECHO_REPLY] then oam
    else mgmt
  else if ofpVersion = Openflow12.OFP_VERSION then
    if type ∈ [Openflow12.OFPT_PACKET_IN, Openflow12.OFPT_PACKET_OUT] then pkt
    else if type ∈ [Openflow12.OFPT_FLOW_MOD, Openflow12.OFPT_FLOW_REMOVED, Openflow12.OFPT_GROUP_MOD,
        Openflow12.OFPT_PORT_MOD, Openflow12.OFPT_TABLE_MOD, Openflow12.OFPT_STATS_REQUEST,
        Openflow12.OFPT_STATS_REPLY, Openflow12.OFPT_BARRIER_REQUEST, Openflow12.OFPT_BARRIER_REPLY] then flow
    else if type ∈ [Openflow12.OFPT_HELLO, Openflow12.OFPT_ECHO_REQUEST, Openflow12.OFPT_ECHO_REPLY] then oam
    else mgmt
  else if ofpVersion = Openflow13.OFP_VERSION then
    if type ∈ [Openflow13.OFPT_PACKET_IN, Openflow13.OFPT_PACKET_OUT] then pkt
    else if type ∈ [Openflow13.OFPT_FLOW_MOD, Openflow13.OFPT_FLOW_REMOVED, Openflow13.OFPT_GROUP_MOD,
        Openflow13.OFPT_PORT_MOD, Openflow13.OFPT_TABLE_MOD, Openflow13.OFPT_MULTIPART_REQUEST,
        Openflow13.OFPT_MULTIPART_REPLY, Openflow13.OFPT_BARRIER_REQUEST, Openflow13.OFPT_BARRIER_REPLY] then flow
    else if type ∈ [Openflow13.OFPT_HELLO, Openflow13.OFPT_ECHO_REQUEST, Openflow13.OFPT_ECHO_REPLY] then oam
    else mgmt
  else none

end RoflCommon
