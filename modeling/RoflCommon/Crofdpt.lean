/-
A datapath, as its controller sees it: `crofdpt`.

The object keeps a copy of what the datapath has told of itself, its ports before all, and
hands each message on to the application. A message goes to the handler of its type, which
casts the object to the class of its messages; the parser has made it one of these
(`handleRecv_ne_badCast`), or the exception, which no catch clause knows, ends the thread.
-/
import RoflCommon.Crofctl.Recv
import RoflCommon.Openflow.Cofports

namespace RoflCommon

/-- `cofgroup_features_stats_reply`. -/
structure CofgroupFeaturesStatsReply where
  ofVersion : UInt8
  types : UInt32
  capabilities : UInt32
  maxGroups : List UInt32
  actions : List UInt32
deriving DecidableEq

/-- A message, with the fields of those whose handlers read any. -/
structure DptMsg where
  version : UInt8
  type : UInt8
  statsType : ℕ
  dpid : UInt64
  nBuffers : UInt32
  nTables : UInt8
  capabilities : UInt32
  flags : UInt16
  missSendLen : UInt16
  ports : Cofports
  reason : UInt8
  port : Cofport
  tables : Coftables
  groupFeaturesStats : CofgroupFeaturesStatsReply
deriving DecidableEq

namespace Openflow

def OFPPR_ADD : UInt8 := 0
def OFPPR_DELETE : UInt8 := 1
def OFPPR_MODIFY : UInt8 := 2

end Openflow

/-! ## The handler of a message -/

namespace DptMsg

/-- The class the parser has made of the message, which had the 16 octets it
asks for. -/
def msgClass (m : DptMsg) : Except ParseError MsgClass :=
  if m.version = Openflow10.OFP_VERSION then parseOf10Message 16 m.type m.statsType
  else if m.version = Openflow12.OFP_VERSION then parseOf12Message 16 m.type m.statsType
  else if m.version = Openflow13.OFP_VERSION then parseOf13Message 16 m.type m.statsType
  else .error .badVersion

open Openflow10 in
/-- The handlers are named by the class they cast to. -/
def handlers10 : List (UInt8 × MsgClass) :=
  [(OFPT_VENDOR, .experimenter), (OFPT_ERROR, .error), (OFPT_FEATURES_REPLY, .featuresReply),
    (OFPT_GET_CONFIG_REPLY, .getConfigReply), (OFPT_PACKET_IN, .packetIn), (OFPT_FLOW_REMOVED, .flowRemoved),
    (OFPT_PORT_STATUS, .portStatus), (OFPT_BARRIER_REPLY, .barrierReply),
    (OFPT_QUEUE_GET_CONFIG_REPLY, .queueGetConfigReply)]

open Openflow12 in
def handlers12 : List (UInt8 × MsgClass) :=
  [(OFPT_EXPERIMENTER, .experimenter), (OFPT_ERROR, .error), (OFPT_FEATURES_REPLY, .featuresReply),
    (OFPT_GET_CONFIG_REPLY, .getConfigReply), (OFPT_PACKET_IN, .packetIn), (OFPT_FLOW_REMOVED, .flowRemoved),
    (OFPT_PORT_STATUS, .portStatus), (OFPT_BARRIER_REPLY, .barrierReply),
    (OFPT_QUEUE_GET_CONFIG_REPLY, .queueGetConfigReply), (OFPT_ROLE_REPLY, .roleReply)]

open Openflow13 in
def handlers13 : List (UInt8 × MsgClass) :=
  [(OFPT_EXPERIMENTER, .experimenter), (OFPT_ERROR, .error), (OFPT_FEATURES_REPLY, .featuresReply),
    (OFPT_GET_CONFIG_REPLY, .getConfigReply), (OFPT_PACKET_IN, .packetIn), (OFPT_FLOW_REMOVED, .flowRemoved),
    (OFPT_PORT_STATUS, .portStatus), (OFPT_BARRIER_REPLY, .barrierReply),
    (OFPT_QUEUE_GET_CONFIG_REPLY, .queueGetConfigReply), (OFPT_ROLE_REPLY, .roleReply),
    (OFPT_GET_ASYNC_REPLY, .getAsyncConfigReply)]

/-- `multipart_reply_rcvd` has the types of 1.3 for all versions. -/
def handlerOf (handlers : List (UInt8 × MsgClass)) (reply : UInt8) (m : DptMsg) : Option MsgClass :=
  if m.type = reply then (stats13.lookup m.statsType).map .statsReply else handlers.lookup m.type

/-- The two switches of `handle_recv`. -/
def handler (m : DptMsg) : Option MsgClass :=
  if m.version = Openflow10.OFP_VERSION then handlerOf handlers10 Openflow10.OFPT_STATS_REPLY m
  else if m.version = Openflow12.OFP_VERSION then handlerOf handlers12 Openflow12.OFPT_STATS_REPLY m
  else if m.version = Openflow13.OFP_VERSION then handlerOf handlers13 Openflow13.OFPT_MULTIPART_REPLY m
  else none

end DptMsg

/-! ## The copy -/

/-- What `crofdpt` snoops from the messages; `version` is that of the control channel. -/
structure DptSnoop where
  snoop : Bool
  version : UInt8
  dpid : UInt64
  nBuffers : UInt32
  nTables : UInt8
  capabilities : UInt32
  hwaddr : BitVec 48
  missSendLen : UInt16
  flags : UInt16
  ports : Cofports
  tables : Coftables
  groups : CofgroupFeaturesStatsReply
deriving DecidableEq

/-- How a message fares: no handler, the one of the application that is called, or
`std::bad_cast`. -/
inductive DptRcvd
  | ignored
  | handled (handler : MsgClass)
  | badCast
deriving DecidableEq, Repr

namespace DptSnoop

/-- The lower 48 bits of the datapath id, without the two lowest bits of the first octet. -/
def hwaddrOf (dpid : UInt64) : BitVec 48 := dpid.toBitVec.setWidth 48 &&& 0xfcffffffffff#48

def featuresReplyRcvd (s : DptSnoop) (m : DptMsg) : DptSnoop :=
  if s.snoop then
    { s with
      dpid := m.dpid
      nBuffers := m.nBuffers
      nTables := m.nTables
      capabilities := m.capabilities
      ports := if s.version = Openflow10.OFP_VERSION ∨ s.version = Openflow12.OFP_VERSION then m.ports else s.ports
      hwaddr := hwaddrOf m.dpid }
  else s

def getConfigReplyRcvd (s : DptSnoop) (m : DptMsg) : DptSnoop :=
  if s.snoop then { s with flags := m.flags, missSendLen := m.missSendLen } else s

def groupFeaturesStatsReplyRcvd (s : DptSnoop) (m : DptMsg) : DptSnoop :=
  if s.snoop ∧ s.version ≠ Openflow10.OFP_VERSION then { s with groups := m.groupFeaturesStats } else s

def tableFeaturesStatsReplyRcvd (s : DptSnoop) (m : DptMsg) : DptSnoop :=
  if s.snoop ∧ s.version ≠ Openflow10.OFP_VERSION ∧ s.version ≠ Openflow12.OFP_VERSION then
    { s with tables := m.tables }
  else s

def portDescStatsReplyRcvd (s : DptSnoop) (m : DptMsg) : DptSnoop :=
  if s.snoop ∧ s.version ≠ Openflow10.OFP_VERSION ∧ s.version ≠ Openflow12.OFP_VERSION then
    { s with ports := m.ports }
  else s

/-- `add_port` and `set_port` give a port to assign to, which is new unless `set_port` finds
one. -/
def portStatusRcvd (s : DptSnoop) (m : DptMsg) : DptSnoop :=
  if s.snoop then
    let ports : Cofports := { s.ports with ofpVersion := s.version }
    if m.reason = Openflow.OFPPR_ADD then
      { s with ports := { ports with ports := ports.ports.insert m.port.portno.toNat m.port } }
    else if m.reason = Openflow.OFPPR_DELETE then
      { s with ports := { ports with ports := ports.ports.erase m.port.portno.toNat } }
    else if m.reason = Openflow.OFPPR_MODIFY then
      { s with ports := { ports with ports := ports.ports.insert m.port.portno.toNat m.port } }
    else { s with ports := ports }
  else s

/-- What a handler does before it calls the application. -/
def rcvd (s : DptSnoop) (m : DptMsg) : MsgClass → DptSnoop
  | .featuresReply => s.featuresReplyRcvd m
  | .getConfigReply => s.getConfigReplyRcvd m
  | .portStatus => s.portStatusRcvd m
  | .statsReply .groupFeatures => s.groupFeaturesStatsReplyRcvd m
  | .statsReply .tableFeatures => s.tableFeaturesStatsReplyRcvd m
  | .statsReply .portDesc => s.portDescStatsReplyRcvd m
  | _ => s

def handleRecv (s : DptSnoop) (m : DptMsg) : DptSnoop × DptRcvd :=
  match m.handler with
  | none => (s, .ignored)
  | some h => if m.msgClass = .ok h then (s.rcvd m h, .handled h) else (s, .badCast)

/-- What `send_port_mod_message` makes of a port: the mask is not looked at. -/
def modPort (port : Cofport) (hwaddr : BitVec 48) (config advertise : UInt32) : Cofport :=
  let ethernet := { port.ethernet.getD ⟨0, 0, 0, 0, 0, 0⟩ with advertised := advertise }
  { port with hwaddr := hwaddr, config := config, ethernet := some ethernet }

/-- `send_port_mod_message`, as far as the copy goes. -/
def sendPortModMessage (s : DptSnoop) (portNo : ℕ) (hwaddr : BitVec 48) (config advertise : UInt32) : DptSnoop :=
  if s.snoop then
    match s.ports.ports.find? portNo with
    | none => s
    | some port => { s with
        ports := { s.ports with ports := s.ports.ports.insert portNo (modPort port hwaddr config advertise) } }
  else s

/-- `send_set_config_message`. -/
def sendSetConfigMessage (s : DptSnoop) (flags missSendLen : UInt16) : DptSnoop :=
  if s.snoop then { s with flags := flags, missSendLen := missSendLen } else s

end DptSnoop

/-! ## The casts -/

namespace MsgClass

/-- The classes of what a datapath sends to its controller, other than HELLO and ECHO, which
the connection keeps to itself. -/
def ofDatapath : MsgClass → Bool
  | .experimenter | .error | .featuresReply | .getConfigReply | .packetIn | .flowRemoved | .portStatus
  | .statsReply _ | .barrierReply | .queueGetConfigReply | .roleReply | .getAsyncConfigReply => true
  | _ => false

end MsgClass

namespace DptMsg

/-- What the two tables of a version have to agree on. -/
structure Agrees (types handlers : List (UInt8 × MsgClass)) (stats : List (ℕ × StatsKind)) (request reply : UInt8)
    (skipped : MsgClass → Bool) : Prop where
  types : ∀ e ∈ types, handlers.lookup e.1 = if e.2.ofDatapath ∧ ¬ skipped e.2 then some e.2 else none
  stats : ∀ e ∈ stats, stats13.lookup e.1 = some e.2
  distinct : request ≠ reply
  requests : handlers.lookup request = none
  replies : ∀ kind, skipped (.statsReply kind) = false

/-- A message of the parser goes to the handler of its class, if it is one for controllers. -/
theorem handlerOf_eq {types handlers : List (UInt8 × MsgClass)} {stats : List (ℕ × StatsKind)} {request reply : UInt8}
    {skipped : MsgClass → Bool} (h : Agrees types handlers stats request reply skipped) {n size : ℕ} {m : DptMsg}
    {c : MsgClass} (hclass : parseOf types stats request reply n size m.type m.statsType = .ok c) :
    handlerOf handlers reply m = if c.ofDatapath ∧ ¬ skipped c then some c else none := by
  unfold parseOf at hclass
  unfold handlerOf
  split at hclass
  next htype =>
    split at hclass
    · cases hclass
    cases hlookup : stats.lookup m.statsType with
    | none =>
      rw [hlookup] at hclass
      cases hclass
    | some kind =>
      rw [hlookup] at hclass
      obtain rfl := Except.ok.inj hclass
      by_cases hrequest : m.type = request
      · rw [if_pos hrequest, if_neg (hrequest ▸ h.distinct), hrequest, h.requests]
        rfl
      · have hreply := htype.resolve_left hrequest
        rw [if_neg hrequest, if_pos hreply, h.stats _ (RecvStmt.mem_of_lookup_stats hlookup)]
        simp [MsgClass.ofDatapath, h.replies kind]
  next htype =>
    cases hlookup : types.lookup m.type with
    | none =>
      rw [hlookup] at hclass
      cases hclass
    | some c' =>
      rw [hlookup] at hclass
      obtain rfl := Except.ok.inj hclass
      rw [if_neg fun heq => htype (.inr heq)]
      exact h.types _ (RecvStmt.mem_of_lookup hlookup)

theorem agrees10 : Agrees types10 handlers10 stats10 Openflow10.OFPT_STATS_REQUEST Openflow10.OFPT_STATS_REPLY
    fun _ => false := by
  refine ⟨?_, ?_, ?_, ?_, fun _ => rfl⟩ <;> decide

/-- 1.2 has no handler for the asynchronous configuration, which its parser knows. -/
theorem agrees12 : Agrees types12 handlers12 stats12 Openflow12.OFPT_STATS_REQUEST Openflow12.OFPT_STATS_REPLY
    fun c => c = .getAsyncConfigReply := by
  refine ⟨?_, ?_, ?_, ?_, fun _ => rfl⟩ <;> decide

theorem agrees13 : Agrees types13 handlers13 stats13 Openflow13.OFPT_MULTIPART_REQUEST
    Openflow13.OFPT_MULTIPART_REPLY fun _ => false := by
  refine ⟨?_, ?_, ?_, ?_, fun _ => rfl⟩ <;> decide

theorem handler_eq {m : DptMsg} {c : MsgClass} (hclass : m.msgClass = .ok c) :
    m.handler = if c.ofDatapath ∧ ¬ (m.version = Openflow12.OFP_VERSION ∧ c = .getAsyncConfigReply) then some c
      else none := by
  unfold msgClass at hclass
  unfold handler
  split at hclass
  next h10 =>
    rw [if_pos h10, handlerOf_eq agrees10 hclass]
    simp [show m.version ≠ Openflow12.OFP_VERSION by rw [h10]; decide]
  next h10 =>
    rw [if_neg h10]
    split at hclass
    next h12 =>
      rw [if_pos h12, handlerOf_eq agrees12 hclass]
      simp [h12]
    next h12 =>
      rw [if_neg h12]
      split at hclass
      next h13 =>
        rw [if_pos h13, handlerOf_eq agrees13 hclass]
        simp [h12]
      next => cases hclass

/-- The handler of a message. -/
theorem handler_of_ofDatapath {m : DptMsg} {c : MsgClass} (hclass : m.msgClass = .ok c) (hc : c.ofDatapath = true)
    (hasync : c ≠ .getAsyncConfigReply) : m.handler = some c := by
  rw [handler_eq hclass, if_pos ⟨hc, fun h => hasync h.2⟩]

end DptMsg

namespace DptSnoop

/-- **No message of the parser ends in `std::bad_cast`.** -/
theorem handleRecv_ne_badCast (s : DptSnoop) {m : DptMsg} {c : MsgClass} (hclass : m.msgClass = .ok c) :
    (s.handleRecv m).2 ≠ .badCast := by
  unfold handleRecv
  rw [DptMsg.handler_eq hclass]
  split
  next => simp
  next h hh =>
    split at hh
    next =>
      obtain rfl := Option.some.inj hh
      simp [hclass]
    next => cases hh

end DptSnoop

end RoflCommon
