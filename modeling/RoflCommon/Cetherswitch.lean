/-
The learning switch of the examples: `cetherswitch`, with its forwarding information bases,
`cfibtable`, and its flow tables, `cflowtable`.

A base is made when a datapath attaches and dropped when it detaches; a flow table is made
with the first frame and stays. An entry of either has a timer of its own, which goes off at
its deadline or later. The callbacks and the timers are taken one at a time.

A message that `crofchan::send_message` refuses ends in a plain `rofl::exception`, which the
handlers for `eRofConnNotConnected` let through. So do they in the destructor of a flow, which
no exception may leave: there the program ends, as it does where `handle_packet_in` asserts.

The last three fields of the state are no variables of the program: `told` is the flow table
that the messages taken by the channel make up at the datapath, but for its own timeouts,
`seen` the last frame from an address since the base was made, and `sent` the messages.
-/
import RoflCommon.Openflow
import RoflCommon.Lib.Runs
import Mathlib.Logic.Function.Basic

namespace RoflCommon

/-- `caddress_ll`. -/
abbrev CaddressLl := BitVec 48

namespace CaddressLl

/-- The lowest bit of the first octet. -/
def isMulticast (a : CaddressLl) : Bool := a.getLsbD 40

def isNull (a : CaddressLl) : Bool := a = 0

/-- A host has such an address. -/
def IsHost (a : CaddressLl) : Prop := isMulticast a = false ∧ isNull a = false

instance (a : CaddressLl) : Decidable a.IsHost := inferInstanceAs (Decidable (_ ∧ _))

end CaddressLl

namespace Openflow

def OFPP_CONTROLLER : UInt32 := 0xfffffffd

end Openflow

/-- `OFPP_FLOOD` of the version. -/
def floodPort (version : UInt8) : UInt32 := if version = Openflow10.OFP_VERSION then 0xfffb else 0xfffffffb

/-! ## Messages -/

inductive FlowModCommand
  | add | deleteStrict
deriving DecidableEq, Repr

/-- What is sent to a datapath: `flow_mod_reset`, `group_mod_reset`, the entry for frames
that no flow matches, the flow of two addresses, and a PACKET_OUT, whose action list may be
empty. -/
inductive SwitchMsg
  | flowModReset
  | groupModReset
  | flowModMiss
  | flowMod (command : FlowModCommand) (src dst : CaddressLl) (outPort : UInt32)
  | packetOut (bufferId inPort : UInt32) (outPort : Option UInt32)
deriving DecidableEq, Repr

/-- The two addresses of a flow. -/
abbrev FlowKey := CaddressLl × CaddressLl

/-- What a message makes of the flows of a datapath. -/
def SwitchMsg.on (flows : FlowKey → Option UInt32) : SwitchMsg → FlowKey → Option UInt32
  | .flowModReset => fun _ => none
  | .flowMod .add src dst outPort => Function.update flows (src, dst) (some outPort)
  | .flowMod .deleteStrict src dst _ => Function.update flows (src, dst) none
  | _ => flows

/-- `send_message`: the message is queued, deleted with a result of failure, or refused with an
exception, since there is no established connection for it. -/
inductive Answer
  | queued | dropped | refused
deriving DecidableEq, Repr

/-- A PACKET_IN that can be printed, as one whose OXMs have the lengths of their fields can: the
frame, and the fields of the match that are read. -/
structure PacketIn where
  bufferId : UInt32
  packet : List UInt8
  inPort : Option UInt32
  ethSrc : Option CaddressLl
  ethDst : Option CaddressLl
deriving DecidableEq

/-- What is read of a frame; `missing` is the exception of a match without the field. -/
inductive Frame
  | short
  | missing
  | frame (src dst : CaddressLl) (inPort : UInt32)
deriving DecidableEq

/-- Six octets as an address. -/
def caddressLl (octets : List UInt8) : CaddressLl :=
  BitVec.ofNat 48 (octets.foldl (fun n o => n * 256 + o.toNat) 0)

/-- In 1.0 the frame itself is read, later the match. -/
def PacketIn.frame (version : UInt8) (m : PacketIn) : Frame :=
  if version = Openflow10.OFP_VERSION then
    if m.packet.length < 14 then .short
    else .frame (caddressLl ((m.packet.drop 6).take 6)) (caddressLl (m.packet.take 6)) (m.inPort.getD 0)
  else
    match m.ethSrc, m.ethDst, m.inPort with
    | some src, some dst, some inPort => .frame src dst inPort
    | _, _, _ => .missing

/-! ## The state -/

/-- `cfibentry` and `cflowentry`: the port, and when the timer goes off. -/
structure PortEntry where
  portNo : UInt32
  deadline : ℕ
deriving DecidableEq, Repr

/-- A last frame: where it came in, and when. -/
structure Sighting where
  inPort : UInt32
  time : ℕ
deriving DecidableEq, Repr

/-- `dpts` has the versions of the channels. -/
structure Cetherswitch where
  now : ℕ
  dpts : ℕ → Option UInt8
  fibtables : ℕ → Option (CaddressLl → Option PortEntry)
  flowtables : ℕ → Option (FlowKey → Option PortEntry)
  /-- An assertion has failed, or an exception has left a destructor. -/
  aborted : Bool
  told : ℕ → FlowKey → Option UInt32
  seen : ℕ → CaddressLl → Option Sighting
  sent : List (ℕ × SwitchMsg)

/-- What becomes of a frame. -/
inductive Forwarding
  | drop
  | flood
  | port (portNo : UInt32)
deriving DecidableEq, Repr

namespace Cetherswitch

/-- `CFIBENTRY_DEFAULT_TIMEOUT` and `CFLOWENTRY_DEFAULT_TIMEOUT`, in nanoseconds. -/
def ENTRY_TIMEOUT : ℕ := 60 * 1000000000

/-- 01:80:c2:00:00:00. -/
def bridgeAddress : CaddressLl := 0x0180c2000000#48

variable (s : Cetherswitch) (d : ℕ)

def fibEntry (a : CaddressLl) : Option PortEntry := (s.fibtables d).bind fun fib => fib a

def flowEntry (k : FlowKey) : Option PortEntry := (s.flowtables d).bind fun flows => flows k

/-- The datapath is there. -/
def Attached : Prop := ∃ version, s.dpts d = some version

/-- What becomes of a message; the caller has to do with its exception. -/
def send (msg : SwitchMsg) (answer : SwitchMsg → Answer) : Cetherswitch :=
  if answer msg = .queued then
    { s with told := Function.update s.told d (msg.on (s.told d)), sent := s.sent ++ [(d, msg)] }
  else s

/-- `set_fib`, `set_flowtable`. -/
def setTables : Cetherswitch := { s with
  fibtables := Function.update s.fibtables d (some (s.fibEntry d))
  flowtables := Function.update s.flowtables d (some (s.flowEntry d)) }

def putFib (a : CaddressLl) (e : Option PortEntry) : Cetherswitch := { s with
  fibtables := Function.update s.fibtables d (some (Function.update (s.fibEntry d) a e)) }

def putFlow (k : FlowKey) (e : Option PortEntry) : Cetherswitch := { s with
  flowtables := Function.update s.flowtables d (some (Function.update (s.flowEntry d) k e)) }

/-- `set_fib_entry` and `set_port_no`: the entry is there afterwards, with the port and a new
deadline. -/
def learn (src : CaddressLl) (inPort : UInt32) : Cetherswitch :=
  { s.putFib d src (some ⟨inPort, s.now + ENTRY_TIMEOUT⟩) with
    seen := Function.update s.seen d (Function.update (s.seen d) src (some ⟨inPort, s.now⟩)) }

/-- `set_flow_entry`, which leaves an entry alone that is there; a new one is told to the
datapath. Its constructor puts up with a message that is dropped; the exception of one that is
refused leaves it. -/
def setFlowEntry (src dst : CaddressLl) (portNo : UInt32) (answer : SwitchMsg → Answer) : Option Cetherswitch :=
  match s.flowEntry d (src, dst) with
  | some _ => some s
  | none =>
    if answer (.flowMod .add src dst portNo) = .refused then none
    else some ((s.send d (.flowMod .add src dst portNo) answer).putFlow d (src, dst)
      (some ⟨portNo, s.now + ENTRY_TIMEOUT⟩))

def forwarding (dst : CaddressLl) : Forwarding :=
  if dst = bridgeAddress then .drop
  else if dst.isMulticast then .flood
  else
    match s.fibEntry d dst with
    | none => .flood
    | some e => .port e.portNo

/-- Where `handle_packet_in` catches an exception that is not `eFibInval`, and where a destructor
throws one. -/
def abort : Cetherswitch := { s with aborted := true }

/-- A PACKET_OUT is sent where nothing catches what the channel throws. -/
def sendPacketOut (bufferId inPort : UInt32) (outPort : Option UInt32) (answer : SwitchMsg → Answer) :
    Cetherswitch :=
  if answer (.packetOut bufferId inPort outPort) = .refused then s.abort
  else s.send d (.packetOut bufferId inPort outPort) answer

/-- The rest of `handle_packet_in`, with the source learned. `get_fib_entry` throws `eFibInval`
for what is no address of a host, `set_flow_entry` another exception. -/
def forward (version : UInt8) (bufferId : UInt32) (src dst : CaddressLl) (inPort : UInt32)
    (answer : SwitchMsg → Answer) : Cetherswitch :=
  match s.forwarding d dst with
  | .drop => s.sendPacketOut d bufferId Openflow.OFPP_CONTROLLER none answer
  | .flood => s.sendPacketOut d bufferId inPort (some (floodPort version)) answer
  | .port portNo =>
    if ¬ dst.IsHost then s
    else if ¬ src.IsHost then s.abort
    else
      match s.setFlowEntry d src dst portNo answer with
      | none => s.abort
      | some s =>
        if bufferId = Openflow.OFP_NO_BUFFER then s
        else s.sendPacketOut d bufferId inPort (some portNo) answer

/-- A source that is null ends the handler with `eFibInval`, which is caught. -/
def handlePacketIn (version : UInt8) (m : PacketIn) (answer : SwitchMsg → Answer) : Cetherswitch :=
  match m.frame version with
  | .short => s.setTables d
  | .missing => (s.setTables d).abort
  | .frame src dst inPort =>
    if src.IsHost then
      ((s.setTables d).learn d src inPort).forward d version m.bufferId src dst inPort answer
    else s.setTables d

/-- What `handle_dpt_open` sends. -/
def openMessages (version : UInt8) : List SwitchMsg :=
  if version = Openflow10.OFP_VERSION then [.flowModReset, .flowModMiss]
  else [.flowModReset, .groupModReset, .flowModMiss]

/-- `handle_dpt_open` of a datapath that comes with some flows; the first message that is refused
ends it. -/
def handleDptOpen (version : UInt8) (flows : FlowKey → Option UInt32) (answer : SwitchMsg → Answer) :
    Cetherswitch :=
  ((openMessages version).takeWhile fun msg => answer msg ≠ .refused).foldl (fun s msg => s.send d msg answer) { s with
    dpts := Function.update s.dpts d (some version)
    fibtables := Function.update s.fibtables d (some fun _ => none)
    told := Function.update s.told d flows
    seen := Function.update s.seen d fun _ => none }

/-- `handle_dpt_close`, and `drop_dpt`. -/
def handleDptClose : Cetherswitch := { s with
  dpts := Function.update s.dpts d none
  fibtables := Function.update s.fibtables d none
  seen := Function.update s.seen d fun _ => none }

/-- `drop_flow_entry`: the entry goes, and its destructor tells the datapath. For one that is gone
`set_dpt` makes an object without a channel, which refuses whatever it is given. -/
def dropFlowEntry (k : FlowKey) (portNo : UInt32) (answer : SwitchMsg → Answer) : Cetherswitch :=
  if s.dpts d = none ∨ answer (.flowMod .deleteStrict k.1 k.2 portNo) = .refused then (s.putFlow d k none).abort
  else (s.putFlow d k none).send d (.flowMod .deleteStrict k.1 k.2 portNo) answer

/-- What happens, with the answers of the channel to what is sent then. -/
inductive Act
  | tick (time : ℕ)
  | dptOpen (version : UInt8) (flows : FlowKey → Option UInt32) (answer : SwitchMsg → Answer)
  | dptClose
  | packetIn (m : PacketIn) (answer : SwitchMsg → Answer)
  /-- A timer goes off. -/
  | fibTimer (a : CaddressLl)
  | flowTimer (k : FlowKey) (answer : SwitchMsg → Answer)

/-- Everything but the passing of time is about a datapath. A version is one of those that the
switch offers; the id is a free one, or that of a datapath which is there and whose main
connection has come anew. -/
def stepAt : Act → Option Cetherswitch
  | .tick time => some { s with now := s.now + time }
  | .dptOpen version flows answer =>
    if version ∈ [Openflow10.OFP_VERSION, Openflow12.OFP_VERSION, Openflow13.OFP_VERSION] then
      some (s.handleDptOpen d version flows answer)
    else none
  | .dptClose => (s.dpts d).map fun _ => s.handleDptClose d
  | .packetIn m answer => (s.dpts d).map fun version => s.handlePacketIn d version m answer
  | .fibTimer a =>
    match s.fibEntry d a with
    | none => none
    | some e => if e.deadline ≤ s.now then some (s.putFib d a none) else none
  | .flowTimer k answer =>
    match s.flowEntry d k with
    | none => none
    | some e => if e.deadline ≤ s.now then some (s.dropFlowEntry d k e.portNo answer) else none

/-- A program that has ended takes no step. -/
def step (s : Cetherswitch) (a : ℕ × Act) : Option Cetherswitch := if s.aborted then none else s.stepAt a.1 a.2

def new : Cetherswitch where
  now := 0
  dpts := fun _ => none
  fibtables := fun _ => none
  flowtables := fun _ => none
  aborted := false
  told := fun _ _ => none
  seen := fun _ _ => none
  sent := []

/-! ## What the operations leave alone -/

section Fields

variable {s} {d}

theorem send_eq (msg : SwitchMsg) (answer : SwitchMsg → Answer) :
    ∃ told sent, s.send d msg answer = { s with told := told, sent := sent } := by
  unfold send
  split
  · exact ⟨_, _, rfl⟩
  · exact ⟨s.told, s.sent, rfl⟩

theorem sendPacketOut_eq (bufferId inPort : UInt32) (outPort : Option UInt32) (answer : SwitchMsg → Answer) :
    ∃ told sent aborted, s.sendPacketOut d bufferId inPort outPort answer =
      { s with told := told, sent := sent, aborted := aborted } := by
  unfold sendPacketOut
  split
  · exact ⟨s.told, s.sent, true, rfl⟩
  · obtain ⟨told, sent, heq⟩ := send_eq (s := s) (d := d) (.packetOut bufferId inPort outPort) answer
    exact ⟨told, sent, s.aborted, heq⟩

theorem setFlowEntry_eq {src dst : CaddressLl} {portNo : UInt32} {answer : SwitchMsg → Answer} {t : Cetherswitch}
    (ht : s.setFlowEntry d src dst portNo answer = some t) :
    ∃ flowtables told sent, t = { s with flowtables := flowtables, told := told, sent := sent } := by
  unfold setFlowEntry at ht
  split at ht
  · obtain rfl := Option.some.inj ht
    exact ⟨s.flowtables, s.told, s.sent, rfl⟩
  · split at ht
    · cases ht
    obtain rfl := Option.some.inj ht
    obtain ⟨told, sent, heq⟩ := send_eq (s := s) (d := d) (.flowMod .add src dst portNo) answer
    rw [heq]
    exact ⟨_, told, sent, rfl⟩

/-- After the source has been learned the bases stay as they are. -/
theorem forward_eq (version : UInt8) (bufferId : UInt32) (src dst : CaddressLl) (inPort : UInt32)
    (answer : SwitchMsg → Answer) : ∃ flowtables told sent aborted,
      s.forward d version bufferId src dst inPort answer =
        { s with flowtables := flowtables, told := told, sent := sent, aborted := aborted } := by
  have hout : ∀ outPort inPort, ∃ flowtables told sent aborted,
      s.sendPacketOut d bufferId inPort outPort answer =
        { s with flowtables := flowtables, told := told, sent := sent, aborted := aborted } := by
    intro outPort inPort
    obtain ⟨told, sent, aborted, heq⟩ := sendPacketOut_eq (s := s) (d := d) bufferId inPort outPort answer
    exact ⟨s.flowtables, told, sent, aborted, heq⟩
  unfold forward
  split
  · exact hout _ _
  · exact hout _ _
  · next portNo _ =>
    split
    · exact ⟨s.flowtables, s.told, s.sent, s.aborted, rfl⟩
    split
    · exact ⟨s.flowtables, s.told, s.sent, true, rfl⟩
    split
    · exact ⟨s.flowtables, s.told, s.sent, true, rfl⟩
    next t ht =>
    obtain ⟨flowtables, told, sent, rfl⟩ := setFlowEntry_eq ht
    split
    · exact ⟨flowtables, told, sent, s.aborted, rfl⟩
    · obtain ⟨told', sent', aborted, heq⟩ := sendPacketOut_eq (s := { s with
        flowtables := flowtables, told := told, sent := sent }) (d := d) bufferId inPort (some portNo) answer
      exact ⟨flowtables, told', sent', aborted, heq⟩

@[simp] theorem fibEntry_setTables (d' : ℕ) : (s.setTables d).fibEntry d' = s.fibEntry d' := by
  funext a
  unfold fibEntry setTables
  by_cases h : d' = d
  · subst h
    simp [fibEntry]
  · simp [Function.update_of_ne h]

@[simp] theorem flowEntry_setTables (d' : ℕ) : (s.setTables d).flowEntry d' = s.flowEntry d' := by
  funext k
  unfold flowEntry setTables
  by_cases h : d' = d
  · subst h
    simp [flowEntry]
  · simp [Function.update_of_ne h]

theorem fibEntry_putFib (a : CaddressLl) (e : Option PortEntry) (d' : ℕ) :
    (s.putFib d a e).fibEntry d' = if d' = d then Function.update (s.fibEntry d) a e else s.fibEntry d' := by
  funext a'
  unfold putFib
  by_cases h : d' = d
  · subst h
    simp [fibEntry]
  · simp [fibEntry, h]

/-- One address of one base. -/
theorem fibEntry_putFib_apply (a : CaddressLl) (e : Option PortEntry) (d' : ℕ) (a' : CaddressLl) :
    (s.putFib d a e).fibEntry d' a' = if d' = d ∧ a' = a then e else s.fibEntry d' a' := by
  rw [fibEntry_putFib]
  by_cases hd : d' = d
  · subst hd
    by_cases ha : a' = a
    · simp [ha]
    · simp [ha]
  · simp [hd]

theorem flowEntry_putFlow (k : FlowKey) (e : Option PortEntry) (d' : ℕ) :
    (s.putFlow d k e).flowEntry d' = if d' = d then Function.update (s.flowEntry d) k e else s.flowEntry d' := by
  funext k'
  unfold putFlow
  by_cases h : d' = d
  · subst h
    simp [flowEntry]
  · simp [flowEntry, h]

theorem flowEntry_send (msg : SwitchMsg) (answer : SwitchMsg → Answer) :
    (s.send d msg answer).flowEntry = s.flowEntry := by
  obtain ⟨told, sent, heq⟩ := send_eq (s := s) (d := d) msg answer
  rw [heq]
  rfl

theorem flowEntry_sendPacketOut (bufferId inPort : UInt32) (outPort : Option UInt32) (answer : SwitchMsg → Answer) :
    (s.sendPacketOut d bufferId inPort outPort answer).flowEntry = s.flowEntry := by
  obtain ⟨told, sent, aborted, heq⟩ := sendPacketOut_eq (s := s) (d := d) bufferId inPort outPort answer
  rw [heq]
  rfl

/-- The opening of a datapath, but for the messages. -/
theorem handleDptOpen_eq (version : UInt8) (flows : FlowKey → Option UInt32) (answer : SwitchMsg → Answer) :
    ∃ told sent, s.handleDptOpen d version flows answer = { s with
      dpts := Function.update s.dpts d (some version)
      fibtables := Function.update s.fibtables d (some fun _ => none)
      seen := Function.update s.seen d fun _ => none
      told := told
      sent := sent } := by
  unfold handleDptOpen
  generalize ((openMessages version).takeWhile fun msg => answer msg ≠ .refused) = msgs
  suffices hfold : ∀ (t : Cetherswitch), ∃ told sent,
      msgs.foldl (fun s msg => s.send d msg answer) t = { t with told := told, sent := sent } by
    obtain ⟨told, sent, heq⟩ := hfold { s with
      dpts := Function.update s.dpts d (some version)
      fibtables := Function.update s.fibtables d (some fun _ => none)
      told := Function.update s.told d flows
      seen := Function.update s.seen d fun _ => none }
    exact ⟨told, sent, heq⟩
  induction msgs with
  | nil => exact fun t => ⟨t.told, t.sent, rfl⟩
  | cons msg msgs ih =>
    intro t
    obtain ⟨told', sent', heq'⟩ := send_eq (s := t) (d := d) msg answer
    obtain ⟨told, sent, heq⟩ := ih (t.send d msg answer)
    refine ⟨told, sent, heq.trans ?_⟩
    rw [heq']

/-- What goes when an entry of a flow table does. -/
theorem dropFlowEntry_eq (k : FlowKey) (portNo : UInt32) (answer : SwitchMsg → Answer) :
    ∃ flowtables told sent aborted, s.dropFlowEntry d k portNo answer = { s with
      flowtables := flowtables, told := told, sent := sent, aborted := aborted } := by
  unfold dropFlowEntry
  split
  · exact ⟨_, s.told, s.sent, true, rfl⟩
  · obtain ⟨told, sent, heq⟩ := send_eq (s := s.putFlow d k none) (d := d) (.flowMod .deleteStrict k.1 k.2 portNo) answer
    rw [heq]
    exact ⟨_, told, sent, s.aborted, rfl⟩

theorem flowEntry_dropFlowEntry (k : FlowKey) (portNo : UInt32) (answer : SwitchMsg → Answer) (d' : ℕ) :
    (s.dropFlowEntry d k portNo answer).flowEntry d' =
      if d' = d then Function.update (s.flowEntry d) k none else s.flowEntry d' := by
  unfold dropFlowEntry
  split
  · exact flowEntry_putFlow k none d'
  · rw [flowEntry_send, flowEntry_putFlow]

end Fields

end Cetherswitch

end RoflCommon
