/-
The errors `crofctl::handle_recv` answers with: its catch clauses, in their order, and what becomes
of an exception.

The first clause for the class of the exception, or for a class it derives from, is the one that
is run (`OfException.handler`). The clauses for the base classes come behind those of their
families and send nothing, and a clause that makes an error message fails if the channel speaks
a version without it, if the message cannot be packed again, or if the channel does not take it.
Else the answer is the one that is due (`rejected_answered_iff`).

The constructors of the error messages throw `eBadVersion("eBadVersion").set_func(..)`, and
`set_func` returns a reference to the base class: what leaves the clause is a `rofl::exception`.
-/
import RoflCommon.Crofctl.Recv
import RoflCommon.Openflow.Errors

namespace RoflCommon

namespace OfException

open Openflow CofmsgError in
/-- The clauses, each with the error message it makes. -/
def catchClauses : List (OfException × Option CofmsgError) :=
  [(eRofCtlNotFound, none),
    (eBadVersion, some (always OFPET_BAD_REQUEST OFPBRC_BAD_VERSION)),
    (eBadRequestBadVersion, some (always OFPET_BAD_REQUEST OFPBRC_BAD_VERSION)),
    (eBadRequestBadType, some (always OFPET_BAD_REQUEST OFPBRC_BAD_TYPE)),
    (eBadRequestBadStat, some (always OFPET_BAD_REQUEST OFPBRC_BAD_STAT)),
    (eBadRequestBadExperimenter, some (always OFPET_BAD_REQUEST OFPBRC_BAD_EXPERIMENTER)),
    (eBadRequestBadExpType, some (always OFPET_BAD_REQUEST OFPBRC_BAD_EXP_TYPE)),
    (eBadRequestEperm, some (always OFPET_BAD_REQUEST OFPBRC_EPERM)),
    (eBadRequestBadLen, some (always OFPET_BAD_REQUEST OFPBRC_BAD_LEN)),
    (eBadRequestBufferEmpty, some (always OFPET_BAD_REQUEST OFPBRC_BUFFER_EMPTY)),
    (eBadRequestBufferUnknown, some (always OFPET_BAD_REQUEST OFPBRC_BUFFER_UNKNOWN)),
    (eBadRequestBadTableId, some (always OFPET_BAD_REQUEST OFPBRC_BAD_TABLE_ID)),
    (eBadRequestIsSlave, some (always OFPET_BAD_REQUEST OFPBRC_IS_SLAVE)),
    (eBadRequestBadPort, some (always OFPET_BAD_REQUEST OFPBRC_BAD_PORT)),
    (eBadRequestBadPacket, some (always OFPET_BAD_REQUEST OFPBRC_BAD_PACKET)),
    (eBadRequestMultipartBufferOverflow, some (always OFPET_BAD_REQUEST OFPBRC_MULTIPART_BUFFER_OVERFLOW)),
    (eBadRequestBase, none),
    (eSwitchConfigBadFlags, some (since12 OFPET_SWITCH_CONFIG_FAILED OFPSCFC_BAD_FLAGS)),
    (eSwitchConfigBadLen, some (since12 OFPET_SWITCH_CONFIG_FAILED OFPSCFC_BAD_LEN)),
    (eSwitchConfigEPerm, some (since12 OFPET_SWITCH_CONFIG_FAILED OFPSCFC_EPERM)),
    (eSwitchConfigBase, none),
    (eFlowModUnknown, some (since12 OFPET_FLOW_MOD_FAILED OFPFMFC_UNKNOWN)),
    (eFlowModTableFull, some (flowModFailed Openflow10.OFPFMFC_ALL_TABLES_FULL OFPFMFC_TABLE_FULL)),
    (eFlowModBadTableId, some (since12 OFPET_FLOW_MOD_FAILED OFPFMFC_BAD_TABLE_ID)),
    (eFlowModOverlap, some (flowModFailed Openflow10.OFPFMFC_OVERLAP OFPFMFC_OVERLAP)),
    (eFlowModEperm, some (flowModFailed Openflow10.OFPFMFC_EPERM OFPFMFC_EPERM)),
    (eFlowModBadTimeout, some (flowModFailed Openflow10.OFPFMFC_BAD_EMERG_TIMEOUT OFPFMFC_BAD_TIMEOUT)),
    (eFlowModBadCommand, some (flowModFailed Openflow10.OFPFMFC_BAD_COMMAND OFPFMFC_BAD_COMMAND)),
    (eFlowModBadFlags, some (since13 OFPET_FLOW_MOD_FAILED OFPFMFC_BAD_FLAGS)),
    (eFlowModBase, none),
    (eGroupModExists, some (since12 OFPET_GROUP_MOD_FAILED OFPGMFC_GROUP_EXISTS)),
    (eGroupModInvalGroup, some (since12 OFPET_GROUP_MOD_FAILED OFPGMFC_INVALID_GROUP)),
    (eGroupModWeightUnsupported, some (since12 OFPET_GROUP_MOD_FAILED OFPGMFC_WEIGHT_UNSUPPORTED)),
    (eGroupModOutOfGroups, some (since12 OFPET_GROUP_MOD_FAILED OFPGMFC_OUT_OF_GROUPS)),
    (eGroupModOutOfBuckets, some (since12 OFPET_GROUP_MOD_FAILED OFPGMFC_OUT_OF_BUCKETS)),
    (eGroupModChainingUnsupported, some (since12 OFPET_GROUP_MOD_FAILED OFPGMFC_CHAINING_UNSUPPORTED)),
    (eGroupModWatchUnsupported, some (since12 OFPET_GROUP_MOD_FAILED OFPGMFC_WATCH_UNSUPPORTED)),
    (eGroupModLoop, some (since12 OFPET_GROUP_MOD_FAILED OFPGMFC_LOOP)),
    (eGroupModUnknownGroup, some (since12 OFPET_GROUP_MOD_FAILED OFPGMFC_UNKNOWN_GROUP)),
    (eGroupModChainedGroup, some (since12 OFPET_GROUP_MOD_FAILED OFPGMFC_CHAINED_GROUP)),
    (eGroupModBadType, some (since12 OFPET_GROUP_MOD_FAILED OFPGMFC_BAD_TYPE)),
    (eGroupModBadCommand, some (since12 OFPET_GROUP_MOD_FAILED OFPGMFC_BAD_COMMAND)),
    (eGroupModBadBucket, some (since12 OFPET_GROUP_MOD_FAILED OFPGMFC_BAD_BUCKET)),
    (eGroupModBadWatch, some (since12 OFPET_GROUP_MOD_FAILED OFPGMFC_BAD_WATCH)),
    (eGroupModEperm, some (since12 OFPET_GROUP_MOD_FAILED OFPGMFC_EPERM)),
    (eGroupModBase, none),
    (ePortModBadPort, some (since12 OFPET_PORT_MOD_FAILED OFPPMFC_BAD_PORT)),
    (ePortModBadHwAddr, some (since12 OFPET_PORT_MOD_FAILED OFPPMFC_BAD_HW_ADDR)),
    (ePortModBadConfig, some (since12 OFPET_PORT_MOD_FAILED OFPPMFC_BAD_CONFIG)),
    (ePortModBadAdvertise, some (since12 OFPET_PORT_MOD_FAILED OFPPMFC_BAD_ADVERTISE)),
    (ePortModEperm, some (since12 OFPET_PORT_MOD_FAILED OFPPMFC_EPERM)),
    (ePortModBase, none),
    (eTableModBadTable, some (since12 OFPET_TABLE_MOD_FAILED OFPTMFC_BAD_TABLE)),
    (eTableModBadConfig, some (since12 OFPET_TABLE_MOD_FAILED OFPTMFC_BAD_CONFIG)),
    (eTableModEperm, some (since12 OFPET_TABLE_MOD_FAILED OFPTMFC_EPERM)),
    (eTableModBase, none),
    (eBadActionBadType, some (always OFPET_BAD_ACTION OFPBAC_BAD_TYPE)),
    (eBadActionBadLen, some (always OFPET_BAD_ACTION OFPBAC_BAD_LEN)),
    (eBadActionBadExperimenter, some (always OFPET_BAD_ACTION OFPBAC_BAD_EXPERIMENTER)),
    (eBadActionBadExperimenterType, some (always OFPET_BAD_ACTION OFPBAC_BAD_EXP_TYPE)),
    (eBadActionBadOutPort, some (always OFPET_BAD_ACTION OFPBAC_BAD_OUT_PORT)),
    (eBadActionBadArgument, some (always OFPET_BAD_ACTION OFPBAC_BAD_ARGUMENT)),
    (eBadActionEperm, some (always OFPET_BAD_ACTION OFPBAC_EPERM)),
    (eBadActionTooMany, some (always OFPET_BAD_ACTION OFPBAC_TOO_MANY)),
    (eBadActionBadQueue, some (always OFPET_BAD_ACTION OFPBAC_BAD_QUEUE)),
    (eBadActionBadOutGroup, some (since12 OFPET_BAD_ACTION OFPBAC_BAD_OUT_GROUP)),
    (eBadActionMatchInconsistent, some (since12 OFPET_BAD_ACTION OFPBAC_MATCH_INCONSISTENT)),
    (eBadActionUnsupportedOrder, some (since12 OFPET_BAD_ACTION OFPBAC_UNSUPPORTED_ORDER)),
    (eBadActionBadTag, some (since12 OFPET_BAD_ACTION OFPBAC_BAD_TAG)),
    (eBadActionBadSetType, some (since13 OFPET_BAD_ACTION OFPBAC_BAD_SET_TYPE)),
    (eBadActionBadSetLen, some (since13 OFPET_BAD_ACTION OFPBAC_BAD_SET_LEN)),
    (eBadActionBadSetArgument, some (since13 OFPET_BAD_ACTION OFPBAC_BAD_SET_ARGUMENT)),
    (eBadActionBase, none),
    (eBadInstUnknownInst, some (since12 OFPET_BAD_INSTRUCTION OFPBIC_UNKNOWN_INST)),
    (eBadInstUnsupInst, some (since12 OFPET_BAD_INSTRUCTION OFPBIC_UNSUP_INST)),
    (eBadInstBadTableId, some (since12 OFPET_BAD_INSTRUCTION OFPBIC_BAD_TABLE_ID)),
    (eBadInstUnsupMetadata, some (since12 OFPET_BAD_INSTRUCTION OFPBIC_UNSUP_METADATA)),
    (eBadInstUnsupMetadataMask, some (since12 OFPET_BAD_INSTRUCTION OFPBIC_UNSUP_METADATA_MASK)),
    (eBadInstBadExperimenter, some (since12 OFPET_BAD_INSTRUCTION OFPBIC_BAD_EXPERIMENTER)),
    (eBadInstBadExpType, some (since13 OFPET_BAD_INSTRUCTION OFPBIC_BAD_EXP_TYPE)),
    (eBadInstBadLen, some (since13 OFPET_BAD_INSTRUCTION OFPBIC_BAD_LEN)),
    (eBadInstEperm, some (since13 OFPET_BAD_INSTRUCTION OFPBIC_EPERM)),
    (eBadInstBase, none),
    (eBadMatchBadType, some (since12 OFPET_BAD_MATCH OFPBMC_BAD_TYPE)),
    (eBadMatchBadLen, some (since12 OFPET_BAD_MATCH OFPBMC_BAD_LEN)),
    (eBadMatchBadTag, some (since12 OFPET_BAD_MATCH OFPBMC_BAD_TAG)),
    (eBadMatchBadDlAddrMask, some (since12 OFPET_BAD_MATCH OFPBMC_BAD_DL_ADDR_MASK)),
    (eBadMatchBadNwAddrMask, some (since12 OFPET_BAD_MATCH OFPBMC_BAD_NW_ADDR_MASK)),
    (eBadMatchBadWildcards, some (since12 OFPET_BAD_MATCH OFPBMC_BAD_WILDCARDS)),
    (eBadMatchBadField, some (since12 OFPET_BAD_MATCH OFPBMC_BAD_FIELD)),
    (eBadMatchBadValue, some (since12 OFPET_BAD_MATCH OFPBMC_BAD_VALUE)),
    (eBadMatchBadMask, some (since12 OFPET_BAD_MATCH OFPBMC_BAD_MASK)),
    (eBadMatchBadPrereq, some (since12 OFPET_BAD_MATCH OFPBMC_BAD_PREREQ)),
    (eBadMatchDupField, some (since12 OFPET_BAD_MATCH OFPBMC_DUP_FIELD)),
    (eBadMatchEperm, some (since12 OFPET_BAD_MATCH OFPBMC_EPERM)),
    (eBadMatchBase, none),
    (eRoleRequestStale, some (since12 OFPET_ROLE_REQUEST_FAILED OFPRRFC_STALE)),
    (eRoleRequestUnsupported, some (since12 OFPET_ROLE_REQUEST_FAILED OFPRRFC_UNSUP)),
    (eRoleRequestBadRole, some (since12 OFPET_ROLE_REQUEST_FAILED OFPRRFC_BAD_ROLE)),
    (eRoleRequestBase, none),
    (eMeterModUnknown, some (since13 OFPET_METER_MOD_FAILED OFPMMFC_UNKNOWN)),
    (eMeterModMeterExists, some (since13 OFPET_METER_MOD_FAILED OFPMMFC_METER_EXISTS)),
    (eMeterModInvalidMeter, some (since13 OFPET_METER_MOD_FAILED OFPMMFC_INVALID_METER)),
    (eMeterModUnknownMeter, some (since13 OFPET_METER_MOD_FAILED OFPMMFC_UNKNOWN_METER)),
    (eMeterModBadCommand, some (since13 OFPET_METER_MOD_FAILED OFPMMFC_BAD_COMMAND)),
    (eMeterModBadFlags, some (since13 OFPET_METER_MOD_FAILED OFPMMFC_BAD_FLAGS)),
    (eMeterModBadRate, some (since13 OFPET_METER_MOD_FAILED OFPMMFC_BAD_RATE)),
    (eMeterModBadBurst, some (since13 OFPET_METER_MOD_FAILED OFPMMFC_BAD_BURST)),
    (eMeterModBadBand, some (since13 OFPET_METER_MOD_FAILED OFPMMFC_BAD_BAND)),
    (eMeterModBadBandValue, some (since13 OFPET_METER_MOD_FAILED OFPMMFC_BAD_BAND_VALUE)),
    (eMeterModOutOfMeters, some (since13 OFPET_METER_MOD_FAILED OFPMMFC_OUT_OF_METERS)),
    (eMeterModOutOfBands, some (since13 OFPET_METER_MOD_FAILED OFPMMFC_OUT_OF_BANDS)),
    (eMeterModBase, none),
    (exception, none),
    (runtimeError, none)]

/-- The clause that is run, `none` where there is none. -/
def handler (e : OfException) : Option (Option CofmsgError) :=
  (catchClauses.find? fun clause => clause.1 ∈ e.bases).map Prod.snd

/-- The error message for the exception, from its type, its code and its version. -/
def message (e : OfException) : Option CofmsgError :=
  if e = eBadVersion then some (.always Openflow.OFPET_BAD_REQUEST Openflow.OFPBRC_BAD_VERSION)
  else
    match e.errCode10, e.errCode, e.base.errType with
    | some code10, some code, _ => some (.flowModFailed code10 code)
    | none, some code, some type =>
      some (if e.since = Openflow.OFP_VERSION_UNKNOWN then .always type code else .since e.since type code)
    | _, _, _ => none

theorem handler_eq {e : OfException} (he : e.IsOpenflow) : e.handler = some e.message := by
  revert he
  cases e <;> decide +kernel

/-- There is an error for the exception: it is none of the base classes. -/
def HasError (e : OfException) : Prop := e = eBadVersion ∨ e.errCode.isSome = true

instance (e : OfException) : Decidable e.HasError := instDecidableOr

theorem message_isSome {e : OfException} (he : e.IsOpenflow) : e.message.isSome = true ↔ e.HasError := by
  revert he
  cases e <;> decide

/-- The message has the type and the code of the exception, in the versions that have the error. -/
theorem new_message {e : OfException} {msg : CofmsgError} (h : e.message = some msg) (v : UInt8) :
    msg.new v = if v < e.since then none else e.error v := by
  have hsince : e.errCode10.isSome = true → e.since = Openflow.OFP_VERSION_UNKNOWN ∧ e.base = eFlowModBase ∧
      e.base.errType = some Openflow.OFPET_FLOW_MOD_FAILED := by
    cases e <;> decide
  have hflow : e.errCode10 = none → e.errCode.isSome = true → e.base = eFlowModBase →
      Openflow10.OFP_VERSION < e.since := by
    cases e <;> decide
  have hbad : eBadVersion.since = Openflow.OFP_VERSION_UNKNOWN := rfl
  have hlowest : ¬ v < Openflow.OFP_VERSION_UNKNOWN := by simp [Openflow.OFP_VERSION_UNKNOWN]
  unfold message at h
  unfold error
  split at h
  next he =>
    obtain rfl := Option.some.inj h
    subst he
    rw [hbad, if_neg hlowest, if_pos rfl]
    rfl
  next he =>
    rw [if_neg he]
    split at h
    next code10 code _ h10 hcode =>
      obtain rfl := Option.some.inj h
      obtain ⟨h0, hbase, htype⟩ := hsince (by rw [h10]; rfl)
      rw [h0, if_neg hlowest, htype, hcode, h10, CofmsgError.new]
      by_cases hv : v = Openflow10.OFP_VERSION
      · rw [if_pos hv, if_pos ⟨hv, hbase⟩]
        rfl
      · rw [if_neg hv, if_neg fun hand => hv hand.1]
        rfl
    next code type h10 hcode htype =>
      obtain rfl := Option.some.inj h
      by_cases hand : v = Openflow10.OFP_VERSION ∧ e.base = eFlowModBase
      · -- a flow-mod error that OpenFlow 1.0 does not have
        have hlt : v < e.since := hand.1 ▸ hflow h10 (by rw [hcode]; rfl) hand.2
        have hne : e.since ≠ Openflow.OFP_VERSION_UNKNOWN := fun h0 => hlowest (h0 ▸ hlt)
        rw [if_neg hne, if_pos hlt, CofmsgError.new, if_pos hlt]
      · rw [if_neg hand, hcode, htype]
        by_cases h0 : e.since = Openflow.OFP_VERSION_UNKNOWN
        · rw [if_pos h0, h0, if_neg hlowest]
          rfl
        · rw [if_neg h0]
          rfl
    next => cases h

theorem error_isSome {e : OfException} (h : e.HasError) {v : UInt8} (hv : e.since ≤ v) :
    (e.error v).isSome = true := by
  have htype : e.errCode.isSome = true → e.base.errType.isSome = true := by cases e <;> decide
  have hcode10 : e.errCode.isSome = true → e.base = eFlowModBase → e.since ≤ Openflow10.OFP_VERSION →
      e.errCode10.isSome = true := by
    cases e <;> decide
  unfold error
  by_cases hbad : e = eBadVersion
  · rw [if_pos hbad]
    rfl
  · have hcode := h.resolve_left hbad
    rw [if_neg hbad]
    split
    next hand => rw [Option.isSome_map, hcode10 hcode hand.2 (hand.1 ▸ hv)]
    next =>
      obtain ⟨type, htype⟩ := Option.isSome_iff_exists.mp (htype hcode)
      obtain ⟨code, hcode⟩ := Option.isSome_iff_exists.mp hcode
      rw [htype, hcode]
      rfl

theorem error_of_base_ne {e : OfException} (hbad : e ≠ eBadVersion) (hbase : e.base ≠ eFlowModBase) (v : UInt8) :
    e.error v = e.base.errType.bind fun type => e.errCode.map (type, ·) := by
  unfold error
  rw [if_neg hbad, if_neg fun hand => hbase hand.2]

def ofRoleError : RoleError → OfException
  | .badRole => .eRoleRequestBadRole
  | .stale => .eRoleRequestStale
  | .notFound => .eRofCtlNotFound

end OfException

/-! ## The function -/

/-- What `send_message` of the channel does with a message: it is queued, deleted with a result of
failure, or there is an exception. -/
inductive Sending
  | queued
  | dropped
  | throws (e : OfException)
deriving DecidableEq, Repr

/-- What a call depends on besides its message: the connection, what the handlers of the
application and `check_prerequisites` throw, what `length()` and `pack()` of the message throw (and
`str()`, where the log is verbose), and what `send_message` of the channel does. -/
structure RecvEnv where
  auxid : UInt8
  throws : MsgClass → Option OfException
  prerequisites : Option OfException
  packing : Option OfException
  sending : Sending

/-- What a call leaves: the controllers, what others see, and what it throws. -/
structure RecvOutcome where
  base : Crofbase
  effects : List RecvEffect
  escapes : Option OfException

namespace RecvEnv

section

variable (env : RecvEnv) (ctlid : ℕ) (m : CtlMsg)

/-- `rofchan.send_message`. -/
def send (effect : RecvEffect) : List RecvEffect × Option OfException :=
  match env.sending with
  | .queued => ([effect], none)
  | .dropped => ([], none)
  | .throws e => ([], some e)

/-- One statement, as `Crofbase.exec` has it, with the classes of the exceptions. -/
def exec (b : Crofbase) (ctl : Crofctl) : RecvStmt → Crofbase × List RecvEffect × Option OfException
  | .checkRole => (b, [], if ctl.isSlave then some .eBadRequestIsSlave else none)
  | .checkPrerequisites => (b, [], env.prerequisites)
  | .call handler => (b, [.call handler], env.throws handler)
  | .roleRequestRcvd =>
    let (b', e) := b.handleRoleRequest ctlid m.role m.generationId
    (b', [], e.map .ofRoleError)
  | .sendRoleReply => (b, env.send (.roleReply env.auxid ctl.version m.xid ctl.role))
  | .sendGetAsyncConfigReply => (b, env.send (.getAsyncConfigReply env.auxid ctl.version m.xid ctl.asyncConfig))
  | .setAsyncConfig => (b.modify ctlid ({ · with asyncConfig := m.asyncConfig }), [], none)

/-- The body of the `try`: what is raised comes with the version of the channel. -/
def process (b : Crofbase) : List RecvStmt → Crofbase × List RecvEffect × Option (UInt8 × OfException)
  | [] => (b, [], none)
  | st :: sts =>
    match b.rofctls.find? ctlid with
    | none => (b, [], none)
    | some ctl =>
      match env.exec ctlid m b ctl st with
      | (b', es, some e) => (b', es, some (ctl.version, e))
      | (b', es, none) => ((process b' sts).1, es ++ (process b' sts).2.1, (process b' sts).2.2)

/-- The clause for an exception: the message is packed before the error message is made, and that
before it is sent. -/
def answer (v : UInt8) (e : OfException) : List RecvEffect × Option OfException :=
  match e.handler with
  | none => ([], some e)
  | some none => ([], none)
  | some (some msg) =>
    match env.packing with
    | some e' => ([], some e')
    | none =>
      match msg.new v with
      | none => ([], some .exception)
      | some (type, code) => env.send (.error env.auxid v m.xid type code (m.octets.take 64))

def handleRecv (b : Crofbase) : RecvOutcome :=
  match env.process ctlid m b (RecvStmt.branch m) with
  | (b', es, none) => ⟨b', es, none⟩
  | (b', es, some (v, e)) => ⟨b', es ++ (env.answer m v e).1, (env.answer m v e).2⟩

end

end RecvEnv

def RecvEffect.isError : RecvEffect → Bool
  | .error .. => true
  | _ => false

/-- The one error that is due: on the connection of the message, with its xid, the version of the
channel, type and code of the exception, and the first 64 octets of what the message packs. -/
structure Answered (env : RecvEnv) (m : CtlMsg) (v : UInt8) (e : OfException) (o : RecvOutcome) : Prop where
  error : ∃ type code, e.error v = some (type, code) ∧
    o.effects.filter (·.isError) = [.error env.auxid v m.xid type code (m.octets.take 64)]
  contained : ∀ e', o.escapes = some e' → ¬ e'.IsOpenflow

/-- The exception is that of an error the version of the channel has, the message can be packed and
the channel takes the answer. -/
structure Answerable (env : RecvEnv) (v : UInt8) (e : OfException) : Prop where
  error : e.HasError
  version : e.since ≤ v
  packs : env.packing = none
  sends : env.sending = .queued

namespace RecvEnv

variable {env : RecvEnv} {ctlid : ℕ} {m : CtlMsg} {b : Crofbase}

theorem exec_effects {ctl : Crofctl} {st : RecvStmt} :
    (env.exec ctlid m b ctl st).2.1.filter (·.isError) = [] := by
  cases st with
  | sendRoleReply | sendGetAsyncConfigReply =>
    unfold exec send
    cases env.sending <;> rfl
  | _ => rfl

/-- No statement sends an error. -/
theorem process_effects {sts : List RecvStmt} : (env.process ctlid m b sts).2.1.filter (·.isError) = [] := by
  induction sts generalizing b with
  | nil => rfl
  | cons st sts ih =>
    unfold process
    split
    next => rfl
    next ctl hctl =>
      have heffects : (env.exec ctlid m b ctl st).2.1.filter (·.isError) = [] := exec_effects
      split
      next b' es e heq =>
        rw [heq] at heffects
        exact heffects
      next b' es heq =>
        rw [heq] at heffects
        rw [List.filter_append, heffects, ih]
        rfl

/-- What the clause sends, for an exception that stands for an error. -/
theorem answer_eq {e : OfException} (he : e.IsOpenflow) {v : UInt8} (h : Answerable env v e) :
    ∃ type code, e.error v = some (type, code) ∧
      env.answer m v e = ([.error env.auxid v m.xid type code (m.octets.take 64)], none) := by
  obtain ⟨msg, hmsg⟩ := Option.isSome_iff_exists.mp ((OfException.message_isSome he).mpr h.error)
  obtain ⟨⟨type, code⟩, herror⟩ := Option.isSome_iff_exists.mp (OfException.error_isSome h.error h.version)
  have hnew := OfException.new_message hmsg v
  rw [if_neg (UInt8.not_lt.mpr h.version), herror] at hnew
  refine ⟨type, code, herror, ?_⟩
  unfold answer send
  simp only [OfException.handler_eq he, hmsg, h.packs, hnew, h.sends]

/-- Else it sends nothing. -/
theorem answer_eq_nil {e : OfException} (he : e.IsOpenflow) {v : UInt8} (h : ¬ Answerable env v e) :
    (env.answer m v e).1 = [] := by
  have hmessage := OfException.message_isSome he
  unfold answer send
  rw [OfException.handler_eq he]
  cases hmsg : e.message with
  | none => rfl
  | some msg =>
    cases hpacks : env.packing with
    | some e' => rfl
    | none =>
      cases hnew : msg.new v with
      | none => simp only [hnew]
      | some error =>
        cases hsends : env.sending with
        | dropped | throws => simp only [hnew]
        | queued =>
          refine absurd ⟨hmessage.mp (by rw [hmsg]; rfl), UInt8.not_lt.mp fun hlt => ?_, hpacks, hsends⟩ h
          rw [OfException.new_message hmsg, if_pos hlt] at hnew
          cases hnew

/-! ## The answers of `Crofbase.handleRecv` -/

/-- The exception, by the error that is sent for it. -/
def seen (env : RecvEnv) (m : CtlMsg) (v : UInt8) (e : OfException) : CtlException :=
  match (env.answer m v e).1 with
  | [.error _ _ _ type code _] => .error type code
  | _ => .silent

/-- The message, with what `check_prerequisites` throws. -/
def seenMsg (env : RecvEnv) (m : CtlMsg) (v : UInt8) : CtlMsg :=
  { m with prerequisites := env.prerequisites.map (env.seen m v) }

variable (env m) in
theorem answer_cases (v : UInt8) (e : OfException) : (env.answer m v e).1 = [] ∨
    ∃ type code, (env.answer m v e).1 = [.error env.auxid v m.xid type code (m.octets.take 64)] := by
  unfold answer send
  split
  · exact .inl rfl
  · exact .inl rfl
  · split
    · exact .inl rfl
    · split
      · exact .inl rfl
      next type code _ =>
        split
        · exact .inr ⟨type, code, rfl⟩
        · exact .inl rfl
        · exact .inl rfl

theorem answer_seen (ctl : Crofctl) (e : OfException) :
    Crofbase.answer env.auxid (env.seenMsg m ctl.version) ctl (env.seen m ctl.version e) =
      (env.answer m ctl.version e).1 := by
  unfold seen
  obtain h | ⟨type, code, h⟩ := answer_cases env m ctl.version e
  · rw [h]
    rfl
  · rw [h]
    rfl

theorem version_modify {f : Crofctl → Crofctl} (hf : ∀ ctl, (f ctl).version = ctl.version) :
    (b.modify ctlid f).version ctlid = b.version ctlid := by
  unfold Crofbase.version
  rw [Crofbase.find?_modify, if_pos rfl, Option.map_map]
  exact congrArg (Option.map · _) (funext hf)

theorem version_grant (r : Ofpcr) : (b.grant ctlid r).version ctlid = b.version ctlid := by
  have hid : (b.modify ctlid (·.setGenerationId b.cachedGenerationId)).version ctlid = b.version ctlid :=
    version_modify fun _ => rfl
  have hassume (b : Crofbase) (r : Ofpcr) : (b.modify ctlid (·.assume r)).version ctlid = b.version ctlid :=
    version_modify fun _ => rfl
  have hothers (b : Crofbase) : (b.demoteOthers ctlid).version ctlid = b.version ctlid := by
    unfold Crofbase.version Crofbase.demoteOthers
    rw [Omap.find?_map]
    simp
  unfold Crofbase.grant
  cases r with
  | master => exact (hassume _ _).trans ((hothers _).trans hid)
  | slave | equal => exact (hassume _ _).trans hid
  | noChange => exact hid

variable (env ctlid m b) in
/-- The channel keeps its version. -/
theorem version_exec (ctl : Crofctl) (st : RecvStmt) :
    (env.exec ctlid m b ctl st).1.version ctlid = b.version ctlid := by
  cases st with
  | roleRequestRcvd =>
    show (b.handleRoleRequest ctlid m.role m.generationId).1.version ctlid = _
    obtain ⟨e, h⟩ | ⟨r, -, -, h | ⟨-, h⟩⟩ := Crofbase.handleRoleRequest_cases b ctlid m.role m.generationId
    · rw [h]
    · rw [h]
      exact version_grant r
    · rw [h]
      exact version_grant r
  | setAsyncConfig => exact version_modify fun _ => rfl
  | _ => rfl

theorem seen_of_answerable {e : OfException} (he : e.IsOpenflow) {v : UInt8} (h : Answerable env v e)
    {type code : ℕ} (herror : e.error v = some (type, code)) : env.seen m v e = .error type code := by
  obtain ⟨type', code', herror', hanswer⟩ := answer_eq (m := m) he h
  rw [herror] at herror'
  cases herror'
  unfold seen
  rw [hanswer]

theorem seen_eRofCtlNotFound (v : UInt8) : env.seen m v .eRofCtlNotFound = .silent := by
  have h : OfException.eRofCtlNotFound.handler = some none := by decide +kernel
  unfold seen answer
  simp only [h]

variable (ctlid m b) in
/-- Where the message can be packed and the channel, one with roles, takes what is sent, a statement does
what it does in `Crofbase.exec`. -/
theorem exec_seen (hpacks : env.packing = none) (hsends : env.sending = .queued) {ctl : Crofctl}
    (hroles : HasRoles ctl.version) (st : RecvStmt) :
    Crofbase.exec ctlid env.auxid (fun h => (env.throws h).map (env.seen m ctl.version))
      (env.seenMsg m ctl.version) b ctl st =
    ((env.exec ctlid m b ctl st).1, (env.exec ctlid m b ctl st).2.1,
      (env.exec ctlid m b ctl st).2.2.map (env.seen m ctl.version)) := by
  have h12 : Openflow12.OFP_VERSION ≤ ctl.version := by
    obtain h | h := hroles <;> rw [h] <;> decide
  have hnot10 : ctl.version ≠ Openflow10.OFP_VERSION := by
    obtain h | h := hroles <;> rw [h] <;> decide
  cases st with
  | checkRole =>
    have hslave : env.seen m ctl.version .eBadRequestIsSlave = .isSlave :=
      seen_of_answerable (by decide)
        ⟨by decide, (UInt8.zero_le : 0 ≤ ctl.version), hpacks, hsends⟩
        (OfException.error_of_base_ne (by decide) (by decide) _)
    simp only [Crofbase.exec, exec]
    split
    · rw [Option.map_some, hslave]
    · rfl
  | roleRequestRcvd =>
    have hbad : env.seen m ctl.version .eRoleRequestBadRole = .ofRoleError .badRole :=
      seen_of_answerable (by decide) ⟨by decide, h12, hpacks, hsends⟩
        (OfException.error_of_base_ne (by decide) (by decide) _)
    have hstale : env.seen m ctl.version .eRoleRequestStale = .ofRoleError .stale :=
      seen_of_answerable (by decide) ⟨by decide, h12, hpacks, hsends⟩
        (OfException.error_of_base_ne (by decide) (by decide) _)
    have hnotFound : env.seen m ctl.version .eRofCtlNotFound = .ofRoleError .notFound := seen_eRofCtlNotFound _
    show (_, _, Option.map _ _) = (_, _, Option.map _ (Option.map _ _))
    rw [Option.map_map]
    refine congrArg (fun e => (_, _, e)) (congrArg (Option.map · _) (funext fun e => ?_))
    cases e with
    | badRole => exact hbad.symm
    | stale => exact hstale.symm
    | notFound => exact hnotFound.symm
  | sendRoleReply | sendGetAsyncConfigReply => simp only [Crofbase.exec, exec, send, hsends, Option.map_none]; rfl
  | checkPrerequisites | call | setAsyncConfig => rfl

/-- The effects of a call are those that `Crofbase.handleRecv` has. -/
theorem effects_handleRecv (hpacks : env.packing = none) (hsends : env.sending = .queued) {v : UInt8}
    (hv : b.version ctlid = some v) (hroles : HasRoles v) : (env.handleRecv ctlid m b).effects =
      (b.handleRecv ctlid env.auxid (fun h => (env.throws h).map (env.seen m v)) (env.seenMsg m v)).2 := by
  have hall : ∀ (sts : List RecvStmt) (b : Crofbase), b.version ctlid = some v →
      (env.process ctlid m b sts).2.1 ++
          ((env.process ctlid m b sts).2.2.elim [] fun raised => (env.answer m raised.1 raised.2).1) =
        (Crofbase.execAll ctlid env.auxid (fun h => (env.throws h).map (env.seen m v)) (env.seenMsg m v) b sts).2 := by
    intro sts
    induction sts with
    | nil =>
      intro b hv
      rfl
    | cons st sts ih =>
      intro b hv
      obtain ⟨ctl, hctl, rfl⟩ := Option.map_eq_some_iff.mp hv
      have hexec := exec_seen ctlid m b hpacks hsends hroles st
      have hversion := version_exec env ctlid m b ctl st
      unfold process Crofbase.execAll
      simp only [hctl, hexec]
      generalize env.exec ctlid m b ctl st = r at hversion ⊢
      obtain ⟨b', es, raised⟩ := r
      cases raised with
      | some e => simp only [Option.map_some, Option.elim_some, answer_seen]
      | none =>
        simp only [Option.map_none, List.append_assoc]
        rw [ih b' (hversion.trans hv)]
  have hbranch : RecvStmt.branch (env.seenMsg m v) = RecvStmt.branch m := rfl
  unfold Crofbase.handleRecv
  rw [hbranch, ← hall _ b hv]
  unfold handleRecv
  split
  next b' es heq => simp [heq]
  next b' es v' e heq => simp [heq]

/-! ## Rejected messages -/

/-- **A message that is rejected gets the one error that is due, for every message, state and
exception, exactly if the exception has an error in the version of the channel, and the message
can be packed and its answer sent.** -/
theorem rejected_answered_iff (env : RecvEnv) (ctlid : ℕ) (m : CtlMsg) (b : Crofbase) :
    (∀ v e, (env.process ctlid m b (RecvStmt.branch m)).2.2 = some (v, e) → e.IsOpenflow →
      Answered env m v e (env.handleRecv ctlid m b)) ↔
    (∀ v e, (env.process ctlid m b (RecvStmt.branch m)).2.2 = some (v, e) → e.IsOpenflow → Answerable env v e) := by
  refine forall_congr' fun v => forall_congr' fun e => forall_congr' fun hraised => forall_congr' fun he => ?_
  have hbefore : (env.process ctlid m b (RecvStmt.branch m)).2.1.filter (·.isError) = [] := process_effects
  have hcall : env.handleRecv ctlid m b = ⟨(env.process ctlid m b (RecvStmt.branch m)).1,
      (env.process ctlid m b (RecvStmt.branch m)).2.1 ++ (env.answer m v e).1, (env.answer m v e).2⟩ := by
    unfold handleRecv
    split
    next b' es heq =>
      rw [heq] at hraised
      cases hraised
    next b' es v' e' heq =>
      rw [heq] at hraised
      cases hraised
      rw [heq]
  constructor
  · intro h
    obtain ⟨type, code, -, hone⟩ := h.error
    by_contra hnot
    rw [hcall, List.filter_append, hbefore, answer_eq_nil he hnot] at hone
    cases hone
  · intro h
    obtain ⟨type, code, herror, hanswer⟩ := answer_eq (m := m) he h
    refine ⟨⟨type, code, herror, ?_⟩, fun e' hescapes => ?_⟩
    · rw [hcall, List.filter_append, hbefore, hanswer]
      rfl
    · rw [hcall, hanswer] at hescapes
      cases hescapes

/-- A flow-mod of OpenFlow 1.2. -/
def flowMod : CtlMsg where
  version := Openflow12.OFP_VERSION
  type := Openflow12.OFPT_FLOW_MOD
  xid := 7
  statsType := 0
  role := 0
  generationId := 0
  asyncConfig := .roleDefaultTemplate
  prerequisites := none
  octets := Cofmsg.packHeader Openflow12.OFP_VERSION Openflow12.OFPT_FLOW_MOD 56 7 ++ List.replicate 48 0

/-- An application that turns every message down with one exception. -/
def rejecting (e : OfException) : RecvEnv := ⟨0, fun _ => some e, none, none, .queued⟩

/-- In OpenFlow 1.2 there is no error for flags that are bad: the clause itself throws, what it throws
leaves the function, and no error is sent. The base class of the errors of flow-mods is not answered
at all. -/
theorem flags_and_base_unanswered : ∃ s : CtlReceiver,
    Runs.run CtlReceiver.step .new [.other .addCtl, .other (.established 0 Openflow12.OFP_VERSION)] = some s ∧
    ((rejecting .eFlowModBadFlags).handleRecv 0 flowMod s.base).effects = [.call .flowMod] ∧
    ((rejecting .eFlowModBadFlags).handleRecv 0 flowMod s.base).escapes = some .exception ∧
    ((rejecting .eFlowModBase).handleRecv 0 flowMod s.base).effects = [.call .flowMod] ∧
    ¬ Answered (rejecting .eFlowModBadFlags) flowMod Openflow12.OFP_VERSION .eFlowModBadFlags
      ((rejecting .eFlowModBadFlags).handleRecv 0 flowMod s.base) ∧
    ¬ Answered (rejecting .eFlowModBase) flowMod Openflow12.OFP_VERSION .eFlowModBase
      ((rejecting .eFlowModBase).handleRecv 0 flowMod s.base) := by
  have hcalled {o : RecvOutcome} {e : OfException} (ho : o.effects = [.call .flowMod]) :
      ¬ Answered (rejecting e) flowMod Openflow12.OFP_VERSION e o := by
    rintro ⟨⟨type, code, -, herror⟩, -⟩
    rw [ho] at herror
    cases herror
  exact ⟨_, rfl, by decide +kernel, by decide +kernel, by decide +kernel, hcalled (by decide +kernel),
    hcalled (by decide +kernel)⟩

end RecvEnv

end RoflCommon
