/-
`crofsock::parse_message` and the three parsers it chooses from: which
message class a frame is unpacked with, and the exceptions on the way.

The parsers work on the memory of the receive buffer, not on the frame: they
check the size of the memory, and they read the type of a statistics message
at its place in memory whether or not the frame reaches that far. What the
classes make of their octets is the parameter `unpack`, which is given the
memory from the read position on and the length of the frame, as the code
passes a pointer and a length.
-/
import RoflCommon.Openflow
import RoflCommon.Cbuffer

namespace RoflCommon

/-- The classes of statistics messages, requests and replies alike. -/
inductive StatsKind
  | desc | flow | aggr | table | port | queue | group | groupDesc | groupFeatures
  | meter | meterConfig | meterFeatures | tableFeatures | portDesc | experimenter
deriving DecidableEq, Repr

/-- The subclasses of `cofmsg` a frame is unpacked with. -/
inductive MsgClass
  | hello | error | echoRequest | echoReply | experimenter | featuresRequest | featuresReply
  | getConfigRequest | getConfigReply | setConfig | packetOut | packetIn | flowMod | flowRemoved
  | groupMod | portMod | portStatus | tableMod | statsRequest (kind : StatsKind)
  | statsReply (kind : StatsKind) | barrierRequest | barrierReply | queueGetConfigRequest
  | queueGetConfigReply | roleRequest | roleReply | getAsyncConfigRequest | getAsyncConfigReply
  | setAsyncConfig | meterMod
deriving DecidableEq, Repr

/-- The exceptions `parse_message` tells apart: the four it answers with an
error message, any other `rofl::exception`, any other `std::runtime_error`,
and what it does not catch. -/
inductive ParseError
  | badType | badStat | badVersion | badLen | rofl | runtime | other
deriving DecidableEq, Repr

/-- `parse_message` catches all but the last. -/
def ParseError.caught : ParseError → Bool
  | .other => false
  | _ => true

/-! ## The message classes -/

open Openflow10 in
def types10 : List (UInt8 × MsgClass) :=
  [(OFPT_HELLO, .hello), (OFPT_ERROR, .error), (OFPT_ECHO_REQUEST, .echoRequest),
    (OFPT_ECHO_REPLY, .echoReply), (OFPT_VENDOR, .experimenter),
    (OFPT_FEATURES_REQUEST, .featuresRequest), (OFPT_FEATURES_REPLY, .featuresReply),
    (OFPT_GET_CONFIG_REQUEST, .getConfigRequest), (OFPT_GET_CONFIG_REPLY, .getConfigReply),
    (OFPT_SET_CONFIG, .setConfig), (OFPT_PACKET_OUT, .packetOut), (OFPT_PACKET_IN, .packetIn),
    (OFPT_FLOW_MOD, .flowMod), (OFPT_FLOW_REMOVED, .flowRemoved), (OFPT_PORT_MOD, .portMod),
    (OFPT_PORT_STATUS, .portStatus), (OFPT_BARRIER_REQUEST, .barrierRequest),
    (OFPT_BARRIER_REPLY, .barrierReply), (OFPT_QUEUE_GET_CONFIG_REQUEST, .queueGetConfigRequest),
    (OFPT_QUEUE_GET_CONFIG_REPLY, .queueGetConfigReply)]

open Openflow10 in
def stats10 : List (Nat × StatsKind) :=
  [(OFPST_DESC, .desc), (OFPST_FLOW, .flow), (OFPST_AGGREGATE, .aggr), (OFPST_TABLE, .table),
    (OFPST_PORT, .port), (OFPST_QUEUE, .queue), (OFPST_VENDOR, .experimenter)]

open Openflow12 in
def types12 : List (UInt8 × MsgClass) :=
  [(OFPT_HELLO, .hello), (OFPT_ERROR, .error), (OFPT_ECHO_REQUEST, .echoRequest),
    (OFPT_ECHO_REPLY, .echoReply), (OFPT_EXPERIMENTER, .experimenter),
    (OFPT_FEATURES_REQUEST, .featuresRequest), (OFPT_FEATURES_REPLY, .featuresReply),
    (OFPT_GET_CONFIG_REQUEST, .getConfigRequest), (OFPT_GET_CONFIG_REPLY, .getConfigReply),
    (OFPT_SET_CONFIG, .setConfig), (OFPT_PACKET_OUT, .packetOut), (OFPT_PACKET_IN, .packetIn),
    (OFPT_FLOW_MOD, .flowMod), (OFPT_FLOW_REMOVED, .flowRemoved), (OFPT_GROUP_MOD, .groupMod),
    (OFPT_PORT_MOD, .portMod), (OFPT_PORT_STATUS, .portStatus), (OFPT_TABLE_MOD, .tableMod),
    (OFPT_BARRIER_REQUEST, .barrierRequest), (OFPT_BARRIER_REPLY, .barrierReply),
    (OFPT_QUEUE_GET_CONFIG_REQUEST, .queueGetConfigRequest),
    (OFPT_QUEUE_GET_CONFIG_REPLY, .queueGetConfigReply), (OFPT_ROLE_REQUEST, .roleRequest),
    (OFPT_ROLE_REPLY, .roleReply), (OFPT_GET_ASYNC_REQUEST, .getAsyncConfigRequest),
    (OFPT_GET_ASYNC_REPLY, .getAsyncConfigReply), (OFPT_SET_ASYNC, .setAsyncConfig)]

open Openflow12 in
def stats12 : List (Nat × StatsKind) :=
  [(OFPST_DESC, .desc), (OFPST_FLOW, .flow), (OFPST_AGGREGATE, .aggr), (OFPST_TABLE, .table),
    (OFPST_PORT, .port), (OFPST_QUEUE, .queue), (OFPST_GROUP, .group), (OFPST_GROUP_DESC, .groupDesc),
    (OFPST_GROUP_FEATURES, .groupFeatures), (OFPST_EXPERIMENTER, .experimenter)]

open Openflow13 in
def types13 : List (UInt8 × MsgClass) :=
  [(OFPT_HELLO, .hello), (OFPT_ERROR, .error), (OFPT_ECHO_REQUEST, .echoRequest),
    (OFPT_ECHO_REPLY, .echoReply), (OFPT_EXPERIMENTER, .experimenter),
    (OFPT_FEATURES_REQUEST, .featuresRequest), (OFPT_FEATURES_REPLY, .featuresReply),
    (OFPT_GET_CONFIG_REQUEST, .getConfigRequest), (OFPT_GET_CONFIG_REPLY, .getConfigReply),
    (OFPT_SET_CONFIG, .setConfig), (OFPT_PACKET_OUT, .packetOut), (OFPT_PACKET_IN, .packetIn),
    (OFPT_FLOW_MOD, .flowMod), (OFPT_FLOW_REMOVED, .flowRemoved), (OFPT_GROUP_MOD, .groupMod),
    (OFPT_PORT_MOD, .portMod), (OFPT_PORT_STATUS, .portStatus), (OFPT_TABLE_MOD, .tableMod),
    (OFPT_BARRIER_REQUEST, .barrierRequest), (OFPT_BARRIER_REPLY, .barrierReply),
    (OFPT_QUEUE_GET_CONFIG_REQUEST, .queueGetConfigRequest),
    (OFPT_QUEUE_GET_CONFIG_REPLY, .queueGetConfigReply), (OFPT_ROLE_REQUEST, .roleRequest),
    (OFPT_ROLE_REPLY, .roleReply), (OFPT_GET_ASYNC_REQUEST, .getAsyncConfigRequest),
    (OFPT_GET_ASYNC_REPLY, .getAsyncConfigReply), (OFPT_SET_ASYNC, .setAsyncConfig),
    (OFPT_METER_MOD, .meterMod)]

open Openflow13 in
def stats13 : List (Nat × StatsKind) :=
  [(OFPMP_DESC, .desc), (OFPMP_FLOW, .flow), (OFPMP_AGGREGATE, .aggr), (OFPMP_TABLE, .table),
    (OFPMP_PORT_STATS, .port), (OFPMP_QUEUE, .queue), (OFPMP_GROUP, .group),
    (OFPMP_GROUP_DESC, .groupDesc), (OFPMP_GROUP_FEATURES, .groupFeatures), (OFPMP_METER, .meter),
    (OFPMP_METER_CONFIG, .meterConfig), (OFPMP_METER_FEATURES, .meterFeatures),
    (OFPMP_TABLE_FEATURES, .tableFeatures), (OFPMP_PORT_DESC, .portDesc),
    (OFPMP_EXPERIMENTER, .experimenter)]

/-- What the three parsers have in common: `sizeofStats` is the size of the
header of a statistics message, `size` that of the memory. -/
def parseOf (types : List (UInt8 × MsgClass)) (stats : List (Nat × StatsKind)) (request reply : UInt8)
    (sizeofStats size : Nat) (type : UInt8) (statsType : Nat) : Except ParseError MsgClass :=
  if type = request ∨ type = reply then
    if size < sizeofStats then .error .badLen
    else match stats.lookup statsType with
      | none => .error .badStat
      | some kind => .ok (if type = request then .statsRequest kind else .statsReply kind)
  else match types.lookup type with
    | none => .error .badType
    | some c => .ok c

def parseOf10Message : Nat → UInt8 → Nat → Except ParseError MsgClass :=
  parseOf types10 stats10 Openflow10.OFPT_STATS_REQUEST Openflow10.OFPT_STATS_REPLY 12

def parseOf12Message : Nat → UInt8 → Nat → Except ParseError MsgClass :=
  parseOf types12 stats12 Openflow12.OFPT_STATS_REQUEST Openflow12.OFPT_STATS_REPLY 16

def parseOf13Message : Nat → UInt8 → Nat → Except ParseError MsgClass :=
  parseOf types13 stats13 Openflow13.OFPT_MULTIPART_REQUEST Openflow13.OFPT_MULTIPART_REPLY 16

/-! ## The whole message -/

/-- Memory, by address. -/
abbrev Memory := Nat → UInt8

/-- The length field of the header at the start of memory. -/
def headerLength (mem : Memory) : Nat := be16toh (mem 2) (mem 3)

/-- The octets from address `a` on. -/
def octetsFrom (mem : Memory) (a n : Nat) : List UInt8 := (List.range' a n).map mem

/-- How a message class decodes the octets from a pointer on, given the
length it is told; the exception if there is one. -/
abbrev Unpack := MsgClass → Memory → Nat → Except ParseError Cofmsg

/-- The class a frame at the start of a memory of `size` octets is unpacked
with. -/
def messageClass (mem : Memory) (size : Nat) : Except ParseError MsgClass :=
  let statsType := be16toh (mem 8) (mem 9)
  if size < sizeofHeader then .error .badLen
  else if mem 0 = Openflow10.OFP_VERSION then parseOf10Message size (mem 1) statsType
  else if mem 0 = Openflow12.OFP_VERSION then parseOf12Message size (mem 1) statsType
  else if mem 0 = Openflow13.OFP_VERSION then parseOf13Message size (mem 1) statsType
  else .error .badVersion

/-- The message in the buffer, or the exception on the way to it. -/
def parseBuffer (unpack : Unpack) (b : Cbuffer UInt8) : Except ParseError Cofmsg :=
  match messageClass b.mem b.size with
  | .error e => .error e
  | .ok c => unpack c (fun i => b.mem (b.rbytes + i)) b.rmemlen

/-- The error message a handler of `parse_message` sends: version and xid as
in the header, and up to 64 octets from the start of memory. -/
structure BadRequest where
  error : ParseError
  version : UInt8
  xid : List UInt8
  data : List UInt8
deriving DecidableEq, Repr

/-- The messages sent on account of an exception. -/
def badRequests (e : ParseError) (b : Cbuffer UInt8) : List BadRequest :=
  match e with
  | .badType | .badStat | .badVersion | .badLen =>
    [⟨e, b.mem 0, octetsFrom b.mem 4 4, octetsFrom b.mem 0 (if b.rmemlen > 64 then 64 else b.rmemlen)⟩]
  | .rofl | .runtime | .other => []

end RoflCommon
