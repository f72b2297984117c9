/-
Multipart messages: requests for statistics and the replies to them
(`cofmsg_stats` and the classes derived from it).
-/
import RoflCommon.Openflow.Arrays

namespace RoflCommon

/-- The types of statistics whose messages have an array. -/
def hasArray : MultipartType → Nat → Bool
  | .request, n => n == Openflow13.OFPMP_TABLE_FEATURES
  | .reply, n => n ∈ [Openflow13.OFPMP_FLOW, Openflow13.OFPMP_TABLE, Openflow13.OFPMP_PORT_STATS,
      Openflow13.OFPMP_QUEUE, Openflow13.OFPMP_GROUP, Openflow13.OFPMP_GROUP_DESC, Openflow13.OFPMP_METER,
      Openflow13.OFPMP_METER_CONFIG, Openflow13.OFPMP_TABLE_FEATURES, Openflow13.OFPMP_PORT_DESC]

/-! ## Messages -/

/-- What is specific to a class of messages. `plain` is for the classes without
an array; the body is what they pack behind the multipart header. -/
inductive Stats (ε : Type)
  | array (kind : ArrayKind) (array : Entries ε)
  | queue (array : Queues ε)
  | plain (type : MultipartType) (statsType : Nat) (noArray : hasArray type statsType = false)
      (body : List UInt8)
deriving DecidableEq

/-- `cofmsg_stats_request` and `cofmsg_stats_reply`. -/
structure Multipart (ε : Type) where
  version : UInt8
  xid : UInt32
  statsFlags : UInt16
  stats : Stats ε
deriving DecidableEq

/-- `OFPMPF_REQ_MORE` and `OFPMPF_REPLY_MORE`. -/
def Openflow13.OFPMPF_MORE : UInt16 := 1

/-! ## Flags -/

theorem or_and_mask (f c : UInt16) : (f ||| c) &&& c = c := by
  refine UInt16.toBitVec_inj.mp (BitVec.eq_of_getLsbD_eq fun i hi => ?_)
  cases h : f.toBitVec.getLsbD i <;> cases h' : c.toBitVec.getLsbD i <;> simp [h, h']

theorem or_and_not_mask (f c : UInt16) : (f ||| c) &&& ~~~c = f &&& ~~~c := by
  refine UInt16.toBitVec_inj.mp (BitVec.eq_of_getLsbD_eq fun i hi => ?_)
  cases h : f.toBitVec.getLsbD i <;> cases h' : c.toBitVec.getLsbD i <;> simp [h, h']

theorem and_not_mask {f c : UInt16} (h : f &&& c = 0) : f &&& ~~~c = f := by
  refine UInt16.toBitVec_inj.mp (BitVec.eq_of_getLsbD_eq fun i hi => ?_)
  have hb : (f.toBitVec.getLsbD i && c.toBitVec.getLsbD i) = false := by
    rw [← BitVec.getLsbD_and, ← UInt16.toBitVec_and, h]
    simp
  rw [UInt16.toBitVec_and, UInt16.toBitVec_not, BitVec.getLsbD_and, BitVec.getLsbD_not]
  revert hb
  cases f.toBitVec.getLsbD i <;> cases c.toBitVec.getLsbD i <;> simp [hi]

namespace Stats

variable {ε : Type}

def type : Stats ε → MultipartType
  | array kind _ => kind.type
  | queue _ => .reply
  | plain type _ _ _ => type

def statsType : Stats ε → Nat
  | array kind _ => kind.statsType
  | queue _ => Openflow13.OFPMP_QUEUE
  | plain _ statsType _ _ => statsType

/-- The array is keyed as its class does it on its own. -/
def Keyed : Stats ε → Prop
  | array kind a => kind.Keyed a
  | queue _ | plain _ _ _ _ => True

/-- The types of statistics whose messages `csegment::clone` copies as what
they are; of the others it copies what all of them have. -/
def cloned : List Nat := [Openflow13.OFPMP_DESC, Openflow13.OFPMP_FLOW, Openflow13.OFPMP_AGGREGATE,
  Openflow13.OFPMP_TABLE, Openflow13.OFPMP_PORT_STATS, Openflow13.OFPMP_QUEUE, Openflow13.OFPMP_GROUP,
  Openflow13.OFPMP_GROUP_DESC, Openflow13.OFPMP_GROUP_FEATURES, Openflow13.OFPMP_METER,
  Openflow13.OFPMP_METER_CONFIG, Openflow13.OFPMP_METER_FEATURES, Openflow13.OFPMP_TABLE_FEATURES,
  Openflow13.OFPMP_PORT_DESC]

/-- `csegment::clone`, but for the flags. -/
def clone [Entry ε] : Stats ε → Stats ε
  | array kind a => array kind a.assign
  | queue a => queue a.assign
  | plain type n h body => plain type n h (if n ∈ cloned then body else [])

/-- The `switch` of `csegment::store_and_merge_msg`. The classes without an
array cannot be fragmented, and nothing is done for them; messages of different
classes do not get here. -/
def merge [Entry ε] : Stats ε → Stats ε → Stats ε
  | array kind a, array _ b => array kind (kind.add a b.assign)
  | queue a, queue b => queue (a.add b.assignEach)
  | s, _ => s

/-- The entries are copied one by one, ports without queues as they are. -/
def assignEach [Entry ε] : Stats ε → Stats ε
  | array kind a => array kind a.assign
  | queue a => queue a.assignEach
  | plain type n h body => plain type n h body

/-- The entries, each with its keys. -/
def entries : Stats ε → List (Nat × Nat × ε)
  | array _ a => a.entries.map fun e => (e.1, 0, e.2)
  | queue a => a.entries.flatMap fun port => port.2.entries.map fun q => (port.1, q.1, q.2)
  | plain _ _ _ _ => []

/-- Copying changes none of the entries. -/
def Settled [Entry ε] (s : Stats ε) : Prop := ∀ e ∈ s.entries, Entry.Settled e.2.2

variable [Entry ε]

theorem entries_assignEach (s : Stats ε) :
    s.assignEach.entries = s.entries.map fun e => (e.1, e.2.1, Entry.assign e.2.2) := by
  cases s with
  | array kind a => simp [entries, assignEach, Entries.assign, Omap.map]
  | queue a =>
    simp only [entries, assignEach, Queues.assignEach, Entries.assign, Omap.map, List.map_flatMap, List.flatMap_map,
      List.map_map]
    rfl
  | plain type n h body => rfl

theorem statsType_assignEach (s : Stats ε) : s.assignEach.statsType = s.statsType := by cases s <;> rfl

theorem Keyed.assignEach {s : Stats ε} (h : s.Keyed) : s.assignEach.Keyed := by
  cases s with
  | array kind a =>
    have hkeys : (Entries.assign a).keys = a.keys := by simp [Omap.keys, Entries.assign, Omap.map]
    have hsize : (Entries.assign a).size = a.size := by simp [Omap.size, Entries.assign, Omap.map]
    cases kind with
    | flow | meter | meterConfig => simpa only [Stats.assignEach, Keyed, ArrayKind.Keyed, hkeys, hsize] using h
    | _ => trivial
  | queue a => trivial
  | plain type n noArray body => trivial

/-- The length of the entries, or of the body. -/
def length : Stats ε → Nat
  | array _ a => Entries.length a
  | queue a => Queues.length a
  | plain _ _ _ body => body.length

def pack : Stats ε → List UInt8
  | array _ a => a.entries.flatMap fun e => Entry.pack e.2
  | queue a => a.entries.flatMap fun port => port.2.entries.flatMap fun q => Entry.pack q.2
  | plain _ _ _ body => body

theorem length_flatMap_pack {α : Type} (f : α → List UInt8) (w : α → Nat) (h : ∀ a, (f a).length = w a)
    (l : List α) : (l.flatMap f).length = Chunks.total w l := by
  induction l with
  | nil => rfl
  | cons a l ih => simp [Chunks.total, h, ih]

@[simp] theorem length_pack (s : Stats ε) : s.pack.length = s.length := by
  cases s with
  | array kind a => exact length_flatMap_pack _ _ (fun e : Nat × ε => Entry.length_pack e.2) _
  | queue a =>
    exact length_flatMap_pack _ _ (fun port : Nat × Omap Nat ε =>
      length_flatMap_pack _ _ (fun q : Nat × ε => Entry.length_pack q.2) port.2.entries) _
  | plain type n h body => rfl

end Stats

namespace Multipart

variable {ε : Type}

/-- `get_type()`. The constructors set it by the version. -/
def type (m : Multipart ε) : UInt8 :=
  match m.stats.type with
  | .request =>
    if m.version = Openflow10.OFP_VERSION then Openflow10.OFPT_STATS_REQUEST else Openflow13.OFPT_MULTIPART_REQUEST
  | .reply =>
    if m.version = Openflow10.OFP_VERSION then Openflow10.OFPT_STATS_REPLY else Openflow13.OFPT_MULTIPART_REPLY

/-- More segments of the message follow. -/
def more (m : Multipart ε) : Bool := m.statsFlags &&& Openflow13.OFPMPF_MORE != 0

def setMore (m : Multipart ε) : Multipart ε := { m with statsFlags := m.statsFlags ||| Openflow13.OFPMPF_MORE }

def clearMore (m : Multipart ε) : Multipart ε := { m with statsFlags := m.statsFlags &&& ~~~Openflow13.OFPMPF_MORE }

@[simp] theorem more_setMore (m : Multipart ε) : m.setMore.more = true := by
  simp [more, setMore, or_and_mask, Openflow13.OFPMPF_MORE]

@[simp] theorem more_clearMore (m : Multipart ε) : m.clearMore.more = false := by
  simp [more, clearMore, UInt16.and_assoc]

/-- Setting and clearing again is clearing. -/
theorem clearMore_setMore (m : Multipart ε) : m.setMore.clearMore = m.clearMore := by
  simp [setMore, clearMore, or_and_not_mask]

theorem clearMore_eq {m : Multipart ε} (h : m.more = false) : m.clearMore = m := by
  have hf : m.statsFlags &&& Openflow13.OFPMPF_MORE = 0 := by simpa [more] using h
  simp [clearMore, and_not_mask hf]

variable [Entry ε]

/-- `sizeof(struct ofp_multipart_reply)`, and the four octets less of OpenFlow 1.0. -/
def headerSize (m : Multipart ε) : Nat := if m.version = Openflow10.OFP_VERSION then 12 else 16

def length (m : Multipart ε) : Nat := m.headerSize + m.stats.length

/-- The message as `crofsock` sees it. -/
def toCofmsg (m : Multipart ε) : Cofmsg where
  version := m.version
  type := m.type
  xid := m.xid
  body := htobe16 m.stats.statsType ++ htobe16 m.statsFlags.toNat ++
    (if m.version = Openflow10.OFP_VERSION then [] else [0, 0, 0, 0]) ++ m.stats.pack

@[simp] theorem length_toCofmsg (m : Multipart ε) : m.toCofmsg.length = m.length := by
  unfold Cofmsg.length toCofmsg length headerSize sizeofHeader
  split <;> simp <;> omega

end Multipart

end RoflCommon
