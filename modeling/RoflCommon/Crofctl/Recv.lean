/-
`crofctl::handle_recv`: the branch a message takes, the handlers of the
application it reaches, and the error a controller gets instead.

A branch is a list of statements, and an exception ends it. The guard against
slaves, `check_role`, is one of the statements; each branch has it or has not
(`isolated_iff_meets`).
-/
import RoflCommon.Crofbase
import RoflCommon.Crofsock.Parse
import RoflCommon.Lib.Runs

namespace RoflCommon

/-- An exception, by the error its catch clause sends; the base classes,
`eRofCtlNotFound` and those of other libraries are not answered. -/
inductive CtlException
  | error (type code : ℕ)
  | silent
deriving DecidableEq, Repr

namespace CtlException

open Openflow

def isSlave : CtlException := .error OFPET_BAD_REQUEST OFPBRC_IS_SLAVE

def ofRoleError : RoleError → CtlException
  | .badRole => .error OFPET_ROLE_REQUEST_FAILED OFPRRFC_BAD_ROLE
  | .stale => .error OFPET_ROLE_REQUEST_FAILED OFPRRFC_STALE
  | .notFound => .silent

end CtlException

/-- A message, with the fields of those that have them. `prerequisites` is what
`check_prerequisites` throws, `octets` what the message packs. -/
structure CtlMsg where
  version : UInt8
  type : UInt8
  xid : UInt32
  statsType : ℕ
  role : ℕ
  generationId : BitVec 64
  asyncConfig : CofasyncConfig
  prerequisites : Option CtlException
  octets : List UInt8
deriving DecidableEq

/-- The class the parser has made of the message, which had the 16 octets it
asks for. -/
def CtlMsg.msgClass (m : CtlMsg) : Except ParseError MsgClass :=
  if m.version = Openflow10.OFP_VERSION then parseOf10Message 16 m.type m.statsType
  else if m.version = Openflow12.OFP_VERSION then parseOf12Message 16 m.type m.statsType
  else if m.version = Openflow13.OFP_VERSION then parseOf13Message 16 m.type m.statsType
  else .error .badVersion

/-! ## Branches -/

/-- The statements of the branches; a handler is named by the class of its
messages. -/
inductive RecvStmt
  | checkRole
  | checkPrerequisites
  | call (handler : MsgClass)
  /-- `is_valid_role`, and `role_request_rcvd` of the environment. -/
  | roleRequestRcvd
  | sendRoleReply
  | sendGetAsyncConfigReply
  | setAsyncConfig
deriving DecidableEq, Repr

namespace RecvStmt

open Openflow10 in
def branches10 : List (UInt8 × List RecvStmt) :=
  [(OFPT_VENDOR, [call .experimenter]), (OFPT_ERROR, [call .error]),
    (OFPT_FEATURES_REQUEST, [call .featuresRequest]), (OFPT_GET_CONFIG_REQUEST, [call .getConfigRequest]),
    (OFPT_SET_CONFIG, [call .setConfig]), (OFPT_PACKET_OUT, [call .packetOut]),
    (OFPT_FLOW_MOD, [checkPrerequisites, call .flowMod]), (OFPT_PORT_MOD, [call .portMod]),
    (OFPT_BARRIER_REQUEST, [call .barrierRequest]),
    (OFPT_QUEUE_GET_CONFIG_REQUEST, [call .queueGetConfigRequest])]

open Openflow12 in
def branches12 : List (UInt8 × List RecvStmt) :=
  [(OFPT_EXPERIMENTER, [call .experimenter]), (OFPT_ERROR, [call .error]),
    (OFPT_FEATURES_REQUEST, [call .featuresRequest]),
    (OFPT_GET_CONFIG_REQUEST, [checkRole, call .getConfigRequest]),
    (OFPT_SET_CONFIG, [checkRole, call .setConfig]), (OFPT_PACKET_OUT, [checkRole, call .packetOut]),
    (OFPT_FLOW_MOD, [checkRole, checkPrerequisites, call .flowMod]),
    (OFPT_GROUP_MOD, [checkRole, checkPrerequisites, call .groupMod]),
    (OFPT_PORT_MOD, [checkRole, call .portMod]), (OFPT_TABLE_MOD, [checkRole, call .tableMod]),
    (OFPT_BARRIER_REQUEST, [call .barrierRequest]),
    (OFPT_QUEUE_GET_CONFIG_REQUEST, [call .queueGetConfigRequest]),
    (OFPT_ROLE_REQUEST, [roleRequestRcvd, call .roleRequest, sendRoleReply])]

open Openflow13 in
def branches13 : List (UInt8 × List RecvStmt) :=
  [(OFPT_EXPERIMENTER, [call .experimenter]), (OFPT_ERROR, [call .error]),
    (OFPT_FEATURES_REQUEST, [call .featuresRequest]),
    (OFPT_GET_CONFIG_REQUEST, [checkRole, call .getConfigRequest]),
    (OFPT_SET_CONFIG, [checkRole, call .setConfig]), (OFPT_PACKET_OUT, [checkRole, call .packetOut]),
    (OFPT_FLOW_MOD, [checkRole, checkPrerequisites, call .flowMod]),
    (OFPT_GROUP_MOD, [checkRole, checkPrerequisites, call .groupMod]),
    (OFPT_PORT_MOD, [checkRole, call .portMod]), (OFPT_TABLE_MOD, [checkRole, call .tableMod]),
    (OFPT_BARRIER_REQUEST, [call .barrierRequest]),
    (OFPT_QUEUE_GET_CONFIG_REQUEST, [call .queueGetConfigRequest]),
    (OFPT_ROLE_REQUEST, [roleRequestRcvd, call .roleRequest, sendRoleReply]),
    (OFPT_GET_ASYNC_REQUEST, [sendGetAsyncConfigReply]),
    (OFPT_SET_ASYNC, [setAsyncConfig, call .setAsyncConfig]), (OFPT_METER_MOD, [checkRole, call .meterMod])]

/-- The three switches have in common that a statistics request goes to the
handler of its type; the types are those of the parser. -/
def branchOf (branches : List (UInt8 × List RecvStmt)) (stats : List (ℕ × StatsKind)) (request : UInt8)
    (m : CtlMsg) : List RecvStmt :=
  if m.type = request then
    match stats.lookup m.statsType with
    | some kind => [call (.statsRequest kind)]
    | none => []
  else (branches.lookup m.type).getD []

def branch (m : CtlMsg) : List RecvStmt :=
  if m.version = Openflow10.OFP_VERSION then branchOf branches10 stats10 Openflow10.OFPT_STATS_REQUEST m
  else if m.version = Openflow12.OFP_VERSION then branchOf branches12 stats12 Openflow12.OFPT_STATS_REQUEST m
  else if m.version = Openflow13.OFP_VERSION then branchOf branches13 stats13 Openflow13.OFPT_MULTIPART_REQUEST m
  else []

end RecvStmt

/-! ## The function -/

/-- What others see of a call: the handlers of the application, and what is
passed to the control channel, on the connection with the auxiliary id. -/
inductive RecvEffect
  | call (handler : MsgClass)
  | error (auxid version : UInt8) (xid : UInt32) (type code : ℕ) (data : List UInt8)
  | roleReply (auxid version : UInt8) (xid : UInt32) (role : Cofrole)
  | getAsyncConfigReply (auxid version : UInt8) (xid : UInt32) (asyncConfig : CofasyncConfig)
deriving DecidableEq

namespace Crofbase

section HandleRecv

variable (ctlid : ℕ) (auxid : UInt8) (throws : MsgClass → Option CtlException) (m : CtlMsg)

/-- One statement: the new state, what is seen of it, and the exception. -/
def exec (b : Crofbase) (ctl : Crofctl) : RecvStmt → Crofbase × List RecvEffect × Option CtlException
  | .checkRole => (b, [], if ctl.isSlave then some .isSlave else none)
  | .checkPrerequisites => (b, [], m.prerequisites)
  | .call handler => (b, [.call handler], throws handler)
  | .roleRequestRcvd =>
    let (b', e) := b.handleRoleRequest ctlid m.role m.generationId
    (b', [], e.map .ofRoleError)
  | .sendRoleReply => (b, [.roleReply auxid ctl.version m.xid ctl.role], none)
  | .sendGetAsyncConfigReply => (b, [.getAsyncConfigReply auxid ctl.version m.xid ctl.asyncConfig], none)
  | .setAsyncConfig => (b.modify ctlid ({ · with asyncConfig := m.asyncConfig }), [], none)

/-- The catch clauses: an error has up to 64 octets of the message. -/
def answer (ctl : Crofctl) : CtlException → List RecvEffect
  | .error type code => [.error auxid ctl.version m.xid type code (m.octets.take 64)]
  | .silent => []

/-- The statements up to an exception, and what comes of it. -/
def execAll (b : Crofbase) : List RecvStmt → Crofbase × List RecvEffect
  | [] => (b, [])
  | st :: sts =>
    match b.rofctls.find? ctlid with
    | none => (b, [])
    | some ctl =>
      match exec ctlid auxid throws m b ctl st with
      | (b', es, some e) => (b', es ++ answer auxid m ctl e)
      | (b', es, none) => ((execAll b' sts).1, es ++ (execAll b' sts).2)

/-- Of an attached controller; `throws` says which exception each handler of the
application ends with. -/
def handleRecv (b : Crofbase) : Crofbase × List RecvEffect := execAll ctlid auxid throws m b (RecvStmt.branch m)

end HandleRecv

end Crofbase

/-! ## Slaves -/

/-- The handlers that can change the state of the datapath; that of the table
features does when the request has tables in it. -/
def MsgClass.modifying : List MsgClass :=
  [.setConfig, .packetOut, .flowMod, .groupMod, .portMod, .tableMod, .meterMod, .statsRequest .tableFeatures]

namespace CtlMsg

/-- The message is for one of these handlers. -/
def Modifying (m : CtlMsg) : Prop := ∃ h ∈ MsgClass.modifying, m.msgClass = .ok h

/-- Its branch has no guard: that of the table features, and all of OpenFlow
1.0. -/
def Unguarded (m : CtlMsg) : Prop :=
  m.Modifying ∧ (m.version = Openflow10.OFP_VERSION ∨ m.msgClass = .ok (.statsRequest .tableFeatures))

instance (m : CtlMsg) : Decidable m.Modifying := inferInstanceAs (Decidable (∃ h ∈ _, _))

instance (m : CtlMsg) : Decidable m.Unguarded := instDecidableAnd

end CtlMsg

namespace RecvStmt

theorem mem_of_lookup {α : Type} {es : List (UInt8 × α)} {type : UInt8} {v : α} (h : es.lookup type = some v) :
    (type, v) ∈ es := by
  obtain ⟨as, bs, rfl, -⟩ := List.lookup_eq_some_iff.mp h
  simp

theorem mem_of_lookup_stats {es : List (ℕ × StatsKind)} {statsType : ℕ} {kind : StatsKind}
    (h : es.lookup statsType = some kind) : (statsType, kind) ∈ es := by
  obtain ⟨as, bs, rfl, -⟩ := List.lookup_eq_some_iff.mp h
  simp

theorem modifying_of_parseOf {types : List (UInt8 × MsgClass)} {stats : List (ℕ × StatsKind)} {request reply : UInt8}
    {n size : ℕ} {type : UInt8} {statsType : ℕ} {h : MsgClass}
    (hparse : parseOf types stats request reply n size type statsType = .ok h) (hmod : h ∈ MsgClass.modifying) :
    (type = request ∧ ∃ kind, stats.lookup statsType = some kind ∧ h = .statsRequest kind) ∨
      (type ≠ request ∧ (type, h) ∈ types) := by
  unfold parseOf at hparse
  split at hparse
  next htype =>
    split at hparse
    · cases hparse
    · split at hparse
      next => cases hparse
      next kind hkind =>
        obtain rfl := Except.ok.inj hparse
        split at hmod
        next heq => exact .inl ⟨heq, kind, hkind, if_pos heq⟩
        next => exact absurd hmod (by cases kind <;> decide)
  next htype =>
    split at hparse
    next => cases hparse
    next c hc =>
      obtain rfl := Except.ok.inj hparse
      exact .inr ⟨fun heq => htype (.inl heq), mem_of_lookup hc⟩

/-- The guarded branches. -/
theorem branch_head {m : CtlMsg} (hmod : m.Modifying) (hguard : ¬ m.Unguarded) :
    (branch m).head? = some checkRole := by
  obtain ⟨h, hh, hclass⟩ := hmod
  have hversion : m.version ≠ Openflow10.OFP_VERSION := fun heq => hguard ⟨⟨h, hh, hclass⟩, .inl heq⟩
  have hfeatures : h ≠ .statsRequest .tableFeatures := fun heq => hguard ⟨⟨h, hh, hclass⟩, .inr (heq ▸ hclass)⟩
  have hstats : ∀ kind, h ≠ .statsRequest kind := by
    intro kind heq
    subst heq
    revert hh hfeatures
    cases kind <;> decide
  unfold CtlMsg.msgClass at hclass
  rw [if_neg hversion] at hclass
  unfold branch
  rw [if_neg hversion]
  split at hclass
  next h12 =>
    rw [if_pos h12]
    obtain ⟨-, kind, -, heq⟩ | ⟨hrequest, hmem⟩ := modifying_of_parseOf hclass hh
    · exact absurd heq (hstats kind)
    · have htable : ∀ e ∈ types12, e.2 ∈ MsgClass.modifying →
          ((branches12.lookup e.1).getD []).head? = some checkRole := by decide
      unfold branchOf
      rw [if_neg hrequest]
      exact htable _ hmem hh
  next h12 =>
    split at hclass
    next h13 =>
      rw [if_neg h12, if_pos h13]
      obtain ⟨-, kind, -, heq⟩ | ⟨hrequest, hmem⟩ := modifying_of_parseOf hclass hh
      · exact absurd heq (hstats kind)
      · have htable : ∀ e ∈ types13, e.2 ∈ MsgClass.modifying →
            ((branches13.lookup e.1).getD []).head? = some checkRole := by decide
        unfold branchOf
        rw [if_neg hrequest]
        exact htable _ hmem hh
    next => cases hclass

theorem mem_branchOf {branches : List (UInt8 × List RecvStmt)} {stats : List (ℕ × StatsKind)} {request : UInt8}
    {m : CtlMsg} {st : RecvStmt} (h : st ∈ branchOf branches stats request m) :
    (m.type = request ∧ ∃ kind, stats.lookup m.statsType = some kind ∧ st = .call (.statsRequest kind)) ∨
      (m.type ≠ request ∧ ∃ sts, (m.type, sts) ∈ branches ∧ branchOf branches stats request m = sts ∧ st ∈ sts) := by
  unfold branchOf at h ⊢
  split at h
  next htype =>
    split at h
    next kind hkind => exact .inl ⟨htype, kind, hkind, List.mem_singleton.mp h⟩
    next => cases h
  next htype =>
    rw [if_neg htype]
    cases hlookup : branches.lookup m.type with
    | none =>
      rw [hlookup] at h
      cases h
    | some sts =>
      rw [hlookup] at h
      exact .inr ⟨htype, sts, mem_of_lookup hlookup, rfl, h⟩

/-- A handler that can change the datapath is behind the guard, or the message
is one of those without. -/
theorem unguarded_of_call {m : CtlMsg} {h : MsgClass} (hh : h ∈ MsgClass.modifying) (hcall : call h ∈ branch m)
    (hhead : (branch m).head? ≠ some checkRole) : m.Unguarded := by
  have hstats : ∀ kind, h = .statsRequest kind → kind = .tableFeatures := by
    rintro kind rfl
    revert hh
    cases kind <;> decide
  unfold branch at hcall hhead
  unfold CtlMsg.Unguarded CtlMsg.Modifying CtlMsg.msgClass
  split at hcall
  next h10 =>
    rw [if_pos h10]
    refine ⟨⟨h, hh, ?_⟩, .inl h10⟩
    obtain ⟨-, kind, hkind, heq⟩ | ⟨-, sts, hmem, -, hst⟩ := mem_branchOf hcall
    · obtain rfl := hstats kind (RecvStmt.call.inj heq)
      have htable : ∀ e ∈ stats10, e.2 ≠ .tableFeatures := by decide
      exact absurd rfl (htable _ (mem_of_lookup_stats hkind))
    · have htable : ∀ e ∈ branches10, ∀ h ∈ MsgClass.modifying, call h ∈ e.2 →
          e.1 ≠ Openflow10.OFPT_STATS_REQUEST ∧ e.1 ≠ Openflow10.OFPT_STATS_REPLY ∧
            types10.lookup e.1 = some h := by decide
      obtain ⟨hrequest, hreply, htypes⟩ := htable _ hmem h hh hst
      simp [parseOf10Message, parseOf, hrequest, hreply, htypes]
  next h10 =>
    rw [if_neg h10] at hhead ⊢
    split at hcall
    next h12 =>
      rw [if_pos h12] at hhead
      obtain ⟨-, kind, hkind, heq⟩ | ⟨-, sts, hmem, hsts, hst⟩ := mem_branchOf hcall
      · obtain rfl := hstats kind (RecvStmt.call.inj heq)
        have htable : ∀ e ∈ stats12, e.2 ≠ .tableFeatures := by decide
        exact absurd rfl (htable _ (mem_of_lookup_stats hkind))
      · have htable : ∀ e ∈ branches12, ∀ h ∈ MsgClass.modifying, call h ∈ e.2 → e.2.head? = some checkRole := by
          decide
        rw [hsts] at hhead
        exact absurd (htable _ hmem h hh hst) hhead
    next h12 =>
      rw [if_neg h12] at hhead ⊢
      split at hcall
      next h13 =>
        rw [if_pos h13] at hhead ⊢
        obtain ⟨htype, kind, hkind, heq⟩ | ⟨-, sts, hmem, hsts, hst⟩ := mem_branchOf hcall
        · obtain rfl := hstats kind (RecvStmt.call.inj heq)
          have hclass : parseOf13Message 16 m.type m.statsType = .ok (.statsRequest .tableFeatures) := by
            simp [parseOf13Message, parseOf, htype, hkind]
          exact ⟨⟨_, by decide, hclass⟩, .inr hclass⟩
        · have htable : ∀ e ∈ branches13, ∀ h ∈ MsgClass.modifying, call h ∈ e.2 → e.2.head? = some checkRole := by
            decide
          rw [hsts] at hhead
          exact absurd (htable _ hmem h hh hst) hhead
      next => cases hcall

/-- The guard comes first, or not at all. -/
theorem checkRole_notMem_tail (m : CtlMsg) : checkRole ∉ (branch m).tail := by
  have hof : ∀ {branches : List (UInt8 × List RecvStmt)} {stats : List (ℕ × StatsKind)} {request : UInt8},
      (∀ e ∈ branches, checkRole ∉ e.2.tail) → checkRole ∉ (branchOf branches stats request m).tail := by
    intro branches stats request htable
    unfold branchOf
    split
    · split <;> simp
    · cases hlookup : branches.lookup m.type with
      | none => simp
      | some sts => exact htable _ (mem_of_lookup hlookup)
  unfold branch
  split_ifs
  · exact hof (by decide)
  · exact hof (by decide)
  · exact hof (by decide)
  · simp

theorem checkRole_notMem_of_unguarded {m : CtlMsg} (h : m.Unguarded) : checkRole ∉ branch m := by
  by_cases h10 : m.version = Openflow10.OFP_VERSION
  · unfold branch
    rw [if_pos h10]
    intro hmem
    obtain ⟨-, kind, -, heq⟩ | ⟨-, sts, hsts, -, hst⟩ := mem_branchOf hmem
    · cases heq
    · have htable : ∀ e ∈ branches10, checkRole ∉ e.2 := by decide
      exact htable _ hsts hst
  · have hfeatures := h.2.resolve_left h10
    have hmod : MsgClass.statsRequest .tableFeatures ∈ MsgClass.modifying := by decide
    unfold CtlMsg.msgClass at hfeatures
    unfold branch
    rw [if_neg h10] at hfeatures ⊢
    split at hfeatures
    next h12 =>
      obtain ⟨-, kind, hkind, heq⟩ | ⟨-, hmem⟩ := modifying_of_parseOf hfeatures hmod
      · obtain rfl := MsgClass.statsRequest.inj heq
        have htable : ∀ e ∈ stats12, e.2 ≠ .tableFeatures := by decide
        exact absurd rfl (htable _ (mem_of_lookup_stats hkind))
      · have htable : ∀ e ∈ types12, e.2 ≠ .statsRequest .tableFeatures := by decide
        exact absurd rfl (htable _ hmem)
    next h12 =>
      split at hfeatures
      next h13 =>
        obtain ⟨htype, kind, hkind, heq⟩ | ⟨-, hmem⟩ := modifying_of_parseOf hfeatures hmod
        · rw [if_neg h12, if_pos h13]
          unfold branchOf
          rw [if_pos htype]
          simp [hkind]
        · have htable : ∀ e ∈ types13, e.2 ≠ .statsRequest .tableFeatures := by decide
          exact absurd rfl (htable _ hmem)
      next => cases hfeatures

end RecvStmt

def RecvEffect.isSlaveError : RecvEffect → Bool
  | .error _ _ _ type code _ => type = Openflow.OFPET_BAD_REQUEST ∧ code = Openflow.OFPBRC_IS_SLAVE
  | _ => false

/-- What a controller that is a slave, and one that is not, may see of a
message. -/
structure Isolated (ctl : Crofctl) (auxid : UInt8) (m : CtlMsg) (effects : List RecvEffect) : Prop where
  handlers : ctl.role.role = .slave → ∀ h ∈ MsgClass.modifying, .call h ∉ effects
  answer : ctl.role.role = .slave → m.Modifying → effects.filter (·.isSlaveError) =
    [.error auxid ctl.version m.xid Openflow.OFPET_BAD_REQUEST Openflow.OFPBRC_IS_SLAVE (m.octets.take 64)]
  others : ctl.role.role = .master ∨ ctl.role.role = .equal → effects.filter (·.isSlaveError) = []

namespace Crofbase

section Exec

variable {ctlid : ℕ} {auxid : UInt8} {throws : MsgClass → Option CtlException} {m : CtlMsg} {b : Crofbase}
  {ctl : Crofctl} {sts : List RecvStmt}

theorem answer_of_ne {e : CtlException} (h : e ≠ .isSlave) : (answer auxid m ctl e).filter (·.isSlaveError) = [] := by
  cases e with
  | silent => rfl
  | error type code =>
    have hnot : ¬ (type = Openflow.OFPET_BAD_REQUEST ∧ code = Openflow.OFPBRC_IS_SLAVE) := by
      rintro ⟨rfl, rfl⟩
      exact h rfl
    simp [answer, RecvEffect.isSlaveError, hnot]

theorem exec_effects {st : RecvStmt} : (exec ctlid auxid throws m b ctl st).2.1.filter (·.isSlaveError) = [] := by
  cases st <;> rfl

/-- Only the guard, the application or `check_prerequisites` can throw it. -/
theorem exec_throws {st : RecvStmt} (happ : ∀ h, throws h ≠ some .isSlave) (hpre : m.prerequisites ≠ some .isSlave)
    (hst : st ≠ .checkRole) : (exec ctlid auxid throws m b ctl st).2.2 ≠ some .isSlave := by
  cases st with
  | checkRole => exact absurd rfl hst
  | checkPrerequisites => exact hpre
  | call h => exact happ h
  | roleRequestRcvd =>
    simp only [exec, ne_eq, Option.map_eq_some_iff, not_exists, not_and]
    intro e _
    cases e <;> decide
  | sendRoleReply | sendGetAsyncConfigReply | setAsyncConfig => simp [exec]

theorem filter_execAll (happ : ∀ h, throws h ≠ some .isSlave) (hpre : m.prerequisites ≠ some .isSlave)
    (hsts : .checkRole ∉ sts) : (execAll ctlid auxid throws m b sts).2.filter (·.isSlaveError) = [] := by
  induction sts generalizing b with
  | nil => rfl
  | cons st sts ih =>
    have hst : st ≠ .checkRole := fun heq => hsts (heq ▸ List.mem_cons_self)
    have hrest : .checkRole ∉ sts := fun hmem => hsts (List.mem_cons_of_mem _ hmem)
    unfold execAll
    split
    next => rfl
    next ctl hctl =>
      have heffects : (exec ctlid auxid throws m b ctl st).2.1.filter (·.isSlaveError) = [] := exec_effects
      have hthrows : (exec ctlid auxid throws m b ctl st).2.2 ≠ some .isSlave := exec_throws happ hpre hst
      split
      next b' es e heq =>
        rw [heq] at heffects hthrows
        rw [List.filter_append, heffects, answer_of_ne fun he => hthrows (congrArg some he)]
        rfl
      next b' es heq =>
        rw [heq] at heffects
        rw [List.filter_append, heffects, ih hrest]
        rfl

theorem call_mem_execAll {h : MsgClass} (hcall : .call h ∈ (execAll ctlid auxid throws m b sts).2) :
    .call h ∈ sts := by
  induction sts generalizing b with
  | nil => cases hcall
  | cons st sts ih =>
    unfold execAll at hcall
    split at hcall
    next => cases hcall
    next ctl hctl =>
      have hexec : ∀ es, (exec ctlid auxid throws m b ctl st).2.1 = es → .call h ∈ es → .call h = st := by
        rintro es rfl hmem
        cases st <;> simp_all [exec]
      split at hcall
      next b' es e heq =>
        obtain hmem | hmem := List.mem_append.mp hcall
        · exact List.mem_cons.mpr (.inl (hexec es (by rw [heq]) hmem))
        · cases e <;> simp [answer] at hmem
      next b' es heq =>
        obtain hmem | hmem := List.mem_append.mp hcall
        · exact List.mem_cons.mpr (.inl (hexec es (by rw [heq]) hmem))
        · exact List.mem_cons_of_mem _ (ih hmem)

theorem execAll_checkRole_of_slave (hctl : b.rofctls.find? ctlid = some ctl) (h : ctl.isSlave = true) :
    execAll ctlid auxid throws m b (.checkRole :: sts) = (b, [.error auxid ctl.version m.xid
      Openflow.OFPET_BAD_REQUEST Openflow.OFPBRC_IS_SLAVE (m.octets.take 64)]) := by
  simp [execAll, hctl, exec, h, answer, CtlException.isSlave]

theorem execAll_checkRole_of_not_slave (hctl : b.rofctls.find? ctlid = some ctl) (h : ctl.isSlave = false) :
    execAll ctlid auxid throws m b (.checkRole :: sts) = execAll ctlid auxid throws m b sts := by
  simp [execAll, hctl, exec, h]

end Exec

end Crofbase

/-- An element that receives messages of its controllers, and what others have
seen of the last step. -/
structure CtlReceiver where
  base : Crofbase
  effects : List RecvEffect

namespace CtlReceiver

inductive Act
  | other (a : Crofbase.Act)
  | recv (ctlid : ℕ) (auxid : UInt8) (throws : MsgClass → Option CtlException) (m : CtlMsg)

def step (s : CtlReceiver) : Act → Option CtlReceiver
  | .other a => (s.base.step a).map (⟨·, []⟩)
  | .recv ctlid auxid throws m =>
    some ⟨(s.base.handleRecv ctlid auxid throws m).1, (s.base.handleRecv ctlid auxid throws m).2⟩

def new : CtlReceiver := ⟨.new, []⟩

/-- `eBadRequestIsSlave` is thrown by the guard alone. -/
def Act.Plain : Act → Prop
  | .other _ => True
  | .recv _ _ throws m => (∀ h, throws h ≠ some .isSlave) ∧ m.prerequisites ≠ some .isSlave

/-- A controller with a channel that has roles sees what it may. -/
def Exact (s : CtlReceiver) (a : Act) (s' : CtlReceiver) : Prop :=
  match a with
  | .other _ => True
  | .recv ctlid auxid _ m =>
    ∀ ctl, s.base.rofctls.find? ctlid = some ctl → HasRoles ctl.version → Isolated ctl auxid m s'.effects

/-- A slave sends no message whose branch has no guard. -/
def Ok (s : CtlReceiver) : Act → Prop
  | .other _ => True
  | .recv ctlid _ _ m =>
    ∀ ctl, s.base.rofctls.find? ctlid = some ctl → HasRoles ctl.version → ctl.role.role = .slave → ¬ m.Unguarded

theorem isolated_of_guarded {b : Crofbase} {ctlid : ℕ} {ctl : Crofctl} {auxid : UInt8}
    {throws : MsgClass → Option CtlException} {m : CtlMsg} (happ : ∀ h, throws h ≠ some .isSlave)
    (hpre : m.prerequisites ≠ some .isSlave) (hctl : b.rofctls.find? ctlid = some ctl)
    (hversion : HasRoles ctl.version) (hguard : ctl.role.role = .slave → ¬ m.Unguarded) :
    Isolated ctl auxid m (b.handleRecv ctlid auxid throws m).2 := by
  have htail := RecvStmt.checkRole_notMem_tail m
  unfold Crofbase.handleRecv
  by_cases hhead : (RecvStmt.branch m).head? = some .checkRole
  · obtain ⟨sts, hsts⟩ := List.head?_eq_some_iff.mp hhead
    rw [hsts] at htail ⊢
    by_cases hslave : ctl.role.role = .slave
    · rw [Crofbase.execAll_checkRole_of_slave hctl (Crofctl.isSlave_eq_true.mpr ⟨hversion, hslave⟩)]
      exact ⟨fun _ h _ => by simp, fun _ _ => by simp [RecvEffect.isSlaveError], fun hother => by simp [hslave] at hother⟩
    · have hnot : ctl.isSlave = false :=
        Bool.eq_false_iff.mpr fun h => hslave (Crofctl.isSlave_eq_true.mp h).2
      rw [Crofbase.execAll_checkRole_of_not_slave hctl hnot]
      exact ⟨fun h => absurd h hslave, fun h => absurd h hslave, fun _ => Crofbase.filter_execAll happ hpre htail⟩
  · have hnone : .checkRole ∉ RecvStmt.branch m := by
      cases hbranch : RecvStmt.branch m with
      | nil => simp
      | cons st sts =>
        rw [hbranch] at htail hhead
        intro hmem
        cases List.mem_cons.mp hmem with
        | inl heq => exact hhead (congrArg some heq.symm)
        | inr hmem => exact htail hmem
    refine ⟨fun hslave h hh hcall => ?_, fun hslave hmod => ?_, fun _ => Crofbase.filter_execAll happ hpre hnone⟩
    · exact hguard hslave (RecvStmt.unguarded_of_call hh (Crofbase.call_mem_execAll hcall) hhead)
    · exact absurd (RecvStmt.branch_head hmod (hguard hslave)) hhead

/-- A slave that sends a message without guard is not told that it is one. -/
theorem not_unguarded_of_isolated {b : Crofbase} {ctlid : ℕ} {ctl : Crofctl} {auxid : UInt8}
    {throws : MsgClass → Option CtlException} {m : CtlMsg} (happ : ∀ h, throws h ≠ some .isSlave)
    (hpre : m.prerequisites ≠ some .isSlave) (hslave : ctl.role.role = .slave)
    (h : Isolated ctl auxid m (b.handleRecv ctlid auxid throws m).2) : ¬ m.Unguarded := by
  intro hunguarded
  have hanswer := h.answer hslave hunguarded.1
  unfold Crofbase.handleRecv at hanswer
  rw [Crofbase.filter_execAll happ hpre (RecvStmt.checkRole_notMem_of_unguarded hunguarded)] at hanswer
  cases hanswer

/-- **A slave changes nothing and is told so, and no one else is, along a run,
exactly when no slave asks for table features and none speaks OpenFlow 1.0 to
change anything.** -/
theorem isolated_iff_meets {s : CtlReceiver} {as : List Act} (h : Runs.run step new as = some s)
    (happ : ∀ a ∈ as, a.Plain) : Runs.Along step Exact new as ↔ Runs.Meets step Ok new as := by
  refine Runs.along_iff_meets_of_forall (fun s a s' hplain hstep => ?_) happ h
  cases a with
  | other a => exact Iff.rfl
  | recv ctlid auxid throws m =>
    obtain ⟨hthrows, hpre⟩ := hplain
    obtain rfl := Option.some.inj hstep
    constructor
    · intro hx ctl hctl hversion hslave
      exact not_unguarded_of_isolated hthrows hpre hslave (hx ctl hctl hversion)
    · intro hok ctl hctl hversion
      exact isolated_of_guarded hthrows hpre hctl hversion (hok ctl hctl hversion)

/-- The table features request with a table in it, of a slave. -/
def tableFeaturesRequest : CtlMsg where
  version := Openflow13.OFP_VERSION
  type := Openflow13.OFPT_MULTIPART_REQUEST
  xid := 7
  statsType := Openflow13.OFPMP_TABLE_FEATURES
  role := 0
  generationId := 0
  asyncConfig := .roleDefaultTemplate
  prerequisites := none
  octets := Cofmsg.packHeader Openflow13.OFP_VERSION Openflow13.OFPT_MULTIPART_REQUEST 80 7 ++
    [0, 12, 0, 0, 0, 0, 0, 0, 0, 64] ++ List.replicate 62 0

theorem isolated_iff_meets_slave : ∃ s,
    Runs.run step new [.other .addCtl, .other (.established 0 Openflow13.OFP_VERSION), .other (.roleRequest 0 3 1),
      .recv 0 0 (fun _ => none) { tableFeaturesRequest with type := Openflow13.OFPT_METER_MOD }] = some s ∧
      s.effects.map (·.isSlaveError) = [true] ∧ Runs.Along step Exact new
        [.other .addCtl, .other (.established 0 Openflow13.OFP_VERSION), .other (.roleRequest 0 3 1),
          .recv 0 0 (fun _ => none) { tableFeaturesRequest with type := Openflow13.OFPT_METER_MOD }] := by
  refine ⟨_, rfl, by decide +kernel, (isolated_iff_meets rfl ?_).mpr ?_⟩
  · simp [Act.Plain, tableFeaturesRequest]
  · refine ⟨trivial, trivial, trivial, fun ctl _ _ _ => by decide +kernel, ?_⟩
    trivial

/-- The request reaches the handler, and the slave is told nothing. -/
theorem table_features_of_slave : ∃ s t,
    Runs.run step new [.other .addCtl, .other (.established 0 Openflow13.OFP_VERSION), .other (.roleRequest 0 3 1)] =
      some s ∧ s.base.role 0 = some .slave ∧ s.step (.recv 0 0 (fun _ => none) tableFeaturesRequest) = some t ∧
    t.effects = [.call (.statsRequest .tableFeatures)] ∧
    ¬ Exact s (.recv 0 0 (fun _ => none) tableFeaturesRequest) t := by
  refine ⟨_, _, rfl, by decide +kernel, rfl, by decide +kernel, fun hx => ?_⟩
  have hisolated := hx _ rfl (.inr (by decide +kernel))
  exact hisolated.handlers (by decide +kernel) (.statsRequest .tableFeatures) (by decide) (by decide +kernel)

end CtlReceiver

end RoflCommon
