/-
The errors of OpenFlow, the exceptions that stand for them, and the error messages.

An exception has the constant of its error in a comment beside its class; the classes derive from
one class for each type of error, which has no code. The constructors of the error messages throw
when the version of the message has no such error, except for those of bad requests and the older
ones of bad actions and flow mods (`OfException.since`).
-/
import RoflCommon.Openflow

namespace RoflCommon

/-! ## Types and codes -/

namespace Openflow

def OFPET_BAD_ACTION : ℕ := 2
def OFPET_BAD_INSTRUCTION : ℕ := 3
def OFPET_BAD_MATCH : ℕ := 4
def OFPET_FLOW_MOD_FAILED : ℕ := 5
def OFPET_GROUP_MOD_FAILED : ℕ := 6
def OFPET_PORT_MOD_FAILED : ℕ := 7
def OFPET_TABLE_MOD_FAILED : ℕ := 8
def OFPET_SWITCH_CONFIG_FAILED : ℕ := 10
def OFPET_METER_MOD_FAILED : ℕ := 12

def OFPBRC_BAD_TYPE : ℕ := 1
def OFPBRC_BAD_STAT : ℕ := 2
def OFPBRC_BAD_EXPERIMENTER : ℕ := 3
def OFPBRC_BAD_EXP_TYPE : ℕ := 4
def OFPBRC_EPERM : ℕ := 5
def OFPBRC_BAD_LEN : ℕ := 6
def OFPBRC_BUFFER_EMPTY : ℕ := 7
def OFPBRC_BUFFER_UNKNOWN : ℕ := 8
def OFPBRC_BAD_TABLE_ID : ℕ := 9
def OFPBRC_BAD_PORT : ℕ := 11
def OFPBRC_BAD_PACKET : ℕ := 12
def OFPBRC_MULTIPART_BUFFER_OVERFLOW : ℕ := 13

def OFPSCFC_BAD_FLAGS : ℕ := 0
def OFPSCFC_BAD_LEN : ℕ := 1
def OFPSCFC_EPERM : ℕ := 2

def OFPFMFC_UNKNOWN : ℕ := 0
def OFPFMFC_TABLE_FULL : ℕ := 1
def OFPFMFC_BAD_TABLE_ID : ℕ := 2
def OFPFMFC_OVERLAP : ℕ := 3
def OFPFMFC_EPERM : ℕ := 4
def OFPFMFC_BAD_TIMEOUT : ℕ := 5
def OFPFMFC_BAD_COMMAND : ℕ := 6
def OFPFMFC_BAD_FLAGS : ℕ := 7

def OFPGMFC_GROUP_EXISTS : ℕ := 0
def OFPGMFC_INVALID_GROUP : ℕ := 1
def OFPGMFC_WEIGHT_UNSUPPORTED : ℕ := 2
def OFPGMFC_OUT_OF_GROUPS : ℕ := 3
def OFPGMFC_OUT_OF_BUCKETS : ℕ := 4
def OFPGMFC_CHAINING_UNSUPPORTED : ℕ := 5
def OFPGMFC_WATCH_UNSUPPORTED : ℕ := 6
def OFPGMFC_LOOP : ℕ := 7
def OFPGMFC_UNKNOWN_GROUP : ℕ := 8
def OFPGMFC_CHAINED_GROUP : ℕ := 9
def OFPGMFC_BAD_TYPE : ℕ := 10
def OFPGMFC_BAD_COMMAND : ℕ := 11
def OFPGMFC_BAD_BUCKET : ℕ := 12
def OFPGMFC_BAD_WATCH : ℕ := 13
def OFPGMFC_EPERM : ℕ := 14

def OFPPMFC_BAD_PORT : ℕ := 0
def OFPPMFC_BAD_HW_ADDR : ℕ := 1
def OFPPMFC_BAD_CONFIG : ℕ := 2
def OFPPMFC_BAD_ADVERTISE : ℕ := 3
def OFPPMFC_EPERM : ℕ := 4

def OFPTMFC_BAD_TABLE : ℕ := 0
def OFPTMFC_BAD_CONFIG : ℕ := 1
def OFPTMFC_EPERM : ℕ := 2

def OFPBAC_BAD_TYPE : ℕ := 0
def OFPBAC_BAD_LEN : ℕ := 1
def OFPBAC_BAD_EXPERIMENTER : ℕ := 2
def OFPBAC_BAD_EXP_TYPE : ℕ := 3
def OFPBAC_BAD_OUT_PORT : ℕ := 4
def OFPBAC_BAD_ARGUMENT : ℕ := 5
def OFPBAC_EPERM : ℕ := 6
def OFPBAC_TOO_MANY : ℕ := 7
def OFPBAC_BAD_QUEUE : ℕ := 8
def OFPBAC_BAD_OUT_GROUP : ℕ := 9
def OFPBAC_MATCH_INCONSISTENT : ℕ := 10
def OFPBAC_UNSUPPORTED_ORDER : ℕ := 11
def OFPBAC_BAD_TAG : ℕ := 12
def OFPBAC_BAD_SET_TYPE : ℕ := 13
def OFPBAC_BAD_SET_LEN : ℕ := 14
def OFPBAC_BAD_SET_ARGUMENT : ℕ := 15

def OFPBIC_UNKNOWN_INST : ℕ := 0
def OFPBIC_UNSUP_INST : ℕ := 1
def OFPBIC_BAD_TABLE_ID : ℕ := 2
def OFPBIC_UNSUP_METADATA : ℕ := 3
def OFPBIC_UNSUP_METADATA_MASK : ℕ := 4
def OFPBIC_BAD_EXPERIMENTER : ℕ := 5
def OFPBIC_BAD_EXP_TYPE : ℕ := 6
def OFPBIC_BAD_LEN : ℕ := 7
def OFPBIC_EPERM : ℕ := 8

def OFPBMC_BAD_TYPE : ℕ := 0
def OFPBMC_BAD_LEN : ℕ := 1
def OFPBMC_BAD_TAG : ℕ := 2
def OFPBMC_BAD_DL_ADDR_MASK : ℕ := 3
def OFPBMC_BAD_NW_ADDR_MASK : ℕ := 4
def OFPBMC_BAD_WILDCARDS : ℕ := 5
def OFPBMC_BAD_FIELD : ℕ := 6
def OFPBMC_BAD_VALUE : ℕ := 7
def OFPBMC_BAD_MASK : ℕ := 8
def OFPBMC_BAD_PREREQ : ℕ := 9
def OFPBMC_DUP_FIELD : ℕ := 10
def OFPBMC_EPERM : ℕ := 11

def OFPRRFC_UNSUP : ℕ := 1

def OFPMMFC_UNKNOWN : ℕ := 0
def OFPMMFC_METER_EXISTS : ℕ := 1
def OFPMMFC_INVALID_METER : ℕ := 2
def OFPMMFC_UNKNOWN_METER : ℕ := 3
def OFPMMFC_BAD_COMMAND : ℕ := 4
def OFPMMFC_BAD_FLAGS : ℕ := 5
def OFPMMFC_BAD_RATE : ℕ := 6
def OFPMMFC_BAD_BURST : ℕ := 7
def OFPMMFC_BAD_BAND : ℕ := 8
def OFPMMFC_BAD_BAND_VALUE : ℕ := 9
def OFPMMFC_OUT_OF_METERS : ℕ := 10
def OFPMMFC_OUT_OF_BANDS : ℕ := 11

end Openflow

namespace Openflow10

def OFPET_FLOW_MOD_FAILED : ℕ := 3

def OFPFMFC_ALL_TABLES_FULL : ℕ := 0
def OFPFMFC_OVERLAP : ℕ := 1
def OFPFMFC_EPERM : ℕ := 2
def OFPFMFC_BAD_EMERG_TIMEOUT : ℕ := 3
def OFPFMFC_BAD_COMMAND : ℕ := 4

end Openflow10

/-! ## Exceptions -/

/-- What a handler can throw: the classes with clauses of their own in `crofctl::handle_recv`,
the other exceptions of the library (`exception`), those derived from `std::runtime_error`, and
any other. -/
inductive OfException
  | eRofCtlNotFound
  | eBadVersion
  | eBadRequestBase | eBadRequestBadVersion | eBadRequestBadType | eBadRequestBadStat
  | eBadRequestBadExperimenter | eBadRequestBadExpType | eBadRequestEperm | eBadRequestBadLen
  | eBadRequestBufferEmpty | eBadRequestBufferUnknown | eBadRequestBadTableId | eBadRequestIsSlave
  | eBadRequestBadPort | eBadRequestBadPacket | eBadRequestMultipartBufferOverflow
  | eSwitchConfigBase | eSwitchConfigBadFlags | eSwitchConfigBadLen | eSwitchConfigEPerm
  | eFlowModBase | eFlowModUnknown | eFlowModTableFull | eFlowModBadTableId | eFlowModOverlap | eFlowModEperm
  | eFlowModBadTimeout | eFlowModBadCommand | eFlowModBadFlags
  | eGroupModBase | eGroupModExists | eGroupModInvalGroup | eGroupModWeightUnsupported | eGroupModOutOfGroups
  | eGroupModOutOfBuckets | eGroupModChainingUnsupported | eGroupModWatchUnsupported | eGroupModLoop
  | eGroupModUnknownGroup | eGroupModChainedGroup | eGroupModBadType | eGroupModBadCommand | eGroupModBadBucket
  | eGroupModBadWatch | eGroupModEperm
  | ePortModBase | ePortModBadPort | ePortModBadHwAddr | ePortModBadConfig | ePortModBadAdvertise
  | ePortModEperm
  | eTableModBase | eTableModBadTable | eTableModBadConfig | eTableModEperm
  | eBadActionBase | eBadActionBadType | eBadActionBadLen | eBadActionBadExperimenter
  | eBadActionBadExperimenterType | eBadActionBadOutPort | eBadActionBadArgument | eBadActionEperm
  | eBadActionTooMany | eBadActionBadQueue | eBadActionBadOutGroup | eBadActionMatchInconsistent
  | eBadActionUnsupportedOrder | eBadActionBadTag | eBadActionBadSetType | eBadActionBadSetLen
  | eBadActionBadSetArgument
  | eBadInstBase | eBadInstUnknownInst | eBadInstUnsupInst | eBadInstBadTableId | eBadInstUnsupMetadata
  | eBadInstUnsupMetadataMask | eBadInstBadExperimenter | eBadInstBadExpType | eBadInstBadLen | eBadInstEperm
  | eBadMatchBase | eBadMatchBadType | eBadMatchBadLen | eBadMatchBadTag | eBadMatchBadDlAddrMask
  | eBadMatchBadNwAddrMask | eBadMatchBadWildcards | eBadMatchBadField | eBadMatchBadValue | eBadMatchBadMask
  | eBadMatchBadPrereq | eBadMatchDupField | eBadMatchEperm
  | eRoleRequestBase | eRoleRequestStale | eRoleRequestUnsupported | eRoleRequestBadRole
  | eMeterModBase | eMeterModUnknown | eMeterModMeterExists | eMeterModInvalidMeter | eMeterModUnknownMeter
  | eMeterModBadCommand | eMeterModBadFlags | eMeterModBadRate | eMeterModBadBurst | eMeterModBadBand
  | eMeterModBadBandValue | eMeterModOutOfMeters | eMeterModOutOfBands
  | exception | runtimeError | foreign
deriving DecidableEq, Repr

namespace OfException

/-- The class it derives from. -/
def base : OfException → OfException
  | eBadRequestBadVersion | eBadRequestBadType | eBadRequestBadStat | eBadRequestBadExperimenter
  | eBadRequestBadExpType | eBadRequestEperm | eBadRequestBadLen | eBadRequestBufferEmpty
  | eBadRequestBufferUnknown | eBadRequestBadTableId | eBadRequestIsSlave | eBadRequestBadPort
  | eBadRequestBadPacket | eBadRequestMultipartBufferOverflow => eBadRequestBase
  | eSwitchConfigBadFlags | eSwitchConfigBadLen | eSwitchConfigEPerm => eSwitchConfigBase
  | eFlowModUnknown | eFlowModTableFull | eFlowModBadTableId | eFlowModOverlap | eFlowModEperm
  | eFlowModBadTimeout | eFlowModBadCommand | eFlowModBadFlags => eFlowModBase
  | eGroupModExists | eGroupModInvalGroup | eGroupModWeightUnsupported | eGroupModOutOfGroups
  | eGroupModOutOfBuckets | eGroupModChainingUnsupported | eGroupModWatchUnsupported | eGroupModLoop
  | eGroupModUnknownGroup | eGroupModChainedGroup | eGroupModBadType | eGroupModBadCommand
  | eGroupModBadBucket | eGroupModBadWatch | eGroupModEperm => eGroupModBase
  | ePortModBadPort | ePortModBadHwAddr | ePortModBadConfig | ePortModBadAdvertise | ePortModEperm => ePortModBase
  | eTableModBadTable | eTableModBadConfig | eTableModEperm => eTableModBase
  | eBadActionBadType | eBadActionBadLen | eBadActionBadExperimenter | eBadActionBadExperimenterType
  | eBadActionBadOutPort | eBadActionBadArgument | eBadActionEperm | eBadActionTooMany
  | eBadActionBadQueue | eBadActionBadOutGroup | eBadActionMatchInconsistent
  | eBadActionUnsupportedOrder | eBadActionBadTag | eBadActionBadSetType | eBadActionBadSetLen
  | eBadActionBadSetArgument => eBadActionBase
  | eBadInstUnknownInst | eBadInstUnsupInst | eBadInstBadTableId | eBadInstUnsupMetadata
  | eBadInstUnsupMetadataMask | eBadInstBadExperimenter | eBadInstBadExpType | eBadInstBadLen
  | eBadInstEperm => eBadInstBase
  | eBadMatchBadType | eBadMatchBadLen | eBadMatchBadTag | eBadMatchBadDlAddrMask
  | eBadMatchBadNwAddrMask | eBadMatchBadWildcards | eBadMatchBadField | eBadMatchBadValue
  | eBadMatchBadMask | eBadMatchBadPrereq | eBadMatchDupField | eBadMatchEperm => eBadMatchBase
  | eRoleRequestStale | eRoleRequestUnsupported | eRoleRequestBadRole => eRoleRequestBase
  | eMeterModUnknown | eMeterModMeterExists | eMeterModInvalidMeter | eMeterModUnknownMeter
  | eMeterModBadCommand | eMeterModBadFlags | eMeterModBadRate | eMeterModBadBurst | eMeterModBadBand
  | eMeterModBadBandValue | eMeterModOutOfMeters | eMeterModOutOfBands => eMeterModBase
  | eRofCtlNotFound | eBadVersion | eBadRequestBase | eSwitchConfigBase | eFlowModBase | eGroupModBase
  | ePortModBase | eTableModBase | eBadActionBase | eBadInstBase | eBadMatchBase | eRoleRequestBase
  | eMeterModBase => exception
  | exception | runtimeError => runtimeError
  | foreign => foreign

/-- The class and those it derives from. -/
def bases (e : OfException) : List OfException := [e, e.base, e.base.base, e.base.base.base]

/-- The classes that stand for errors of OpenFlow. -/
def IsOpenflow (e : OfException) : Prop :=
  e ≠ eRofCtlNotFound ∧ e ≠ exception ∧ e ≠ runtimeError ∧ e ≠ foreign

instance (e : OfException) : Decidable e.IsOpenflow := inferInstanceAs (Decidable (_ ∧ _ ∧ _ ∧ _))

open Openflow

/-- The type of the errors of a family. -/
def errType : OfException → Option ℕ
  | eBadRequestBase => some OFPET_BAD_REQUEST
  | eSwitchConfigBase => some OFPET_SWITCH_CONFIG_FAILED
  | eFlowModBase => some OFPET_FLOW_MOD_FAILED
  | eGroupModBase => some OFPET_GROUP_MOD_FAILED
  | ePortModBase => some OFPET_PORT_MOD_FAILED
  | eTableModBase => some OFPET_TABLE_MOD_FAILED
  | eBadActionBase => some OFPET_BAD_ACTION
  | eBadInstBase => some OFPET_BAD_INSTRUCTION
  | eBadMatchBase => some OFPET_BAD_MATCH
  | eRoleRequestBase => some OFPET_ROLE_REQUEST_FAILED
  | eMeterModBase => some OFPET_METER_MOD_FAILED
  | _ => none

/-- The code in the comment beside the class. -/
def errCode : OfException → Option ℕ
  | eBadRequestBadVersion => some OFPBRC_BAD_VERSION
  | eBadRequestBadType => some OFPBRC_BAD_TYPE
  | eBadRequestBadStat => some OFPBRC_BAD_STAT
  | eBadRequestBadExperimenter => some OFPBRC_BAD_EXPERIMENTER
  | eBadRequestBadExpType => some OFPBRC_BAD_EXP_TYPE
  | eBadRequestEperm => some OFPBRC_EPERM
  | eBadRequestBadLen => some OFPBRC_BAD_LEN
  | eBadRequestBufferEmpty => some OFPBRC_BUFFER_EMPTY
  | eBadRequestBufferUnknown => some OFPBRC_BUFFER_UNKNOWN
  | eBadRequestBadTableId => some OFPBRC_BAD_TABLE_ID
  | eBadRequestIsSlave => some OFPBRC_IS_SLAVE
  | eBadRequestBadPort => some OFPBRC_BAD_PORT
  | eBadRequestBadPacket => some OFPBRC_BAD_PACKET
  | eBadRequestMultipartBufferOverflow => some OFPBRC_MULTIPART_BUFFER_OVERFLOW
  | eSwitchConfigBadFlags => some OFPSCFC_BAD_FLAGS
  | eSwitchConfigBadLen => some OFPSCFC_BAD_LEN
  | eSwitchConfigEPerm => some OFPSCFC_EPERM
  | eFlowModUnknown => some OFPFMFC_UNKNOWN
  | eFlowModTableFull => some OFPFMFC_TABLE_FULL
  | eFlowModBadTableId => some OFPFMFC_BAD_TABLE_ID
  | eFlowModOverlap => some OFPFMFC_OVERLAP
  | eFlowModEperm => some OFPFMFC_EPERM
  | eFlowModBadTimeout => some OFPFMFC_BAD_TIMEOUT
  | eFlowModBadCommand => some OFPFMFC_BAD_COMMAND
  | eFlowModBadFlags => some OFPFMFC_BAD_FLAGS
  | eGroupModExists => some OFPGMFC_GROUP_EXISTS
  | eGroupModInvalGroup => some OFPGMFC_INVALID_GROUP
  | eGroupModWeightUnsupported => some OFPGMFC_WEIGHT_UNSUPPORTED
  | eGroupModOutOfGroups => some OFPGMFC_OUT_OF_GROUPS
  | eGroupModOutOfBuckets => some OFPGMFC_OUT_OF_BUCKETS
  | eGroupModChainingUnsupported => some OFPGMFC_CHAINING_UNSUPPORTED
  | eGroupModWatchUnsupported => some OFPGMFC_WATCH_UNSUPPORTED
  | eGroupModLoop => some OFPGMFC_LOOP
  | eGroupModUnknownGroup => some OFPGMFC_UNKNOWN_GROUP
  | eGroupModChainedGroup => some OFPGMFC_CHAINED_GROUP
  | eGroupModBadType => some OFPGMFC_BAD_TYPE
  | eGroupModBadCommand => some OFPGMFC_BAD_COMMAND
  | eGroupModBadBucket => some OFPGMFC_BAD_BUCKET
  | eGroupModBadWatch => some OFPGMFC_BAD_WATCH
  | eGroupModEperm => some OFPGMFC_EPERM
  | ePortModBadPort => some OFPPMFC_BAD_PORT
  | ePortModBadHwAddr => some OFPPMFC_BAD_HW_ADDR
  | ePortModBadConfig => some OFPPMFC_BAD_CONFIG
  | ePortModBadAdvertise => some OFPPMFC_BAD_ADVERTISE
  | ePortModEperm => some OFPPMFC_EPERM
  | eTableModBadTable => some OFPTMFC_BAD_TABLE
  | eTableModBadConfig => some OFPTMFC_BAD_CONFIG
  | eTableModEperm => some OFPTMFC_EPERM
  | eBadActionBadType => some OFPBAC_BAD_TYPE
  | eBadActionBadLen => some OFPBAC_BAD_LEN
  | eBadActionBadExperimenter => some OFPBAC_BAD_EXPERIMENTER
  | eBadActionBadExperimenterType => some OFPBAC_BAD_EXP_TYPE
  | eBadActionBadOutPort => some OFPBAC_BAD_OUT_PORT
  | eBadActionBadArgument => some OFPBAC_BAD_ARGUMENT
  | eBadActionEperm => some OFPBAC_EPERM
  | eBadActionTooMany => some OFPBAC_TOO_MANY
  | eBadActionBadQueue => some OFPBAC_BAD_QUEUE
  | eBadActionBadOutGroup => some OFPBAC_BAD_OUT_GROUP
  | eBadActionMatchInconsistent => some OFPBAC_MATCH_INCONSISTENT
  | eBadActionUnsupportedOrder => some OFPBAC_UNSUPPORTED_ORDER
  | eBadActionBadTag => some OFPBAC_BAD_TAG
  | eBadActionBadSetType => some OFPBAC_BAD_SET_TYPE
  | eBadActionBadSetLen => some OFPBAC_BAD_SET_LEN
  | eBadActionBadSetArgument => some OFPBAC_BAD_SET_ARGUMENT
  | eBadInstUnknownInst => some OFPBIC_UNKNOWN_INST
  | eBadInstUnsupInst => some OFPBIC_UNSUP_INST
  | eBadInstBadTableId => some OFPBIC_BAD_TABLE_ID
  | eBadInstUnsupMetadata => some OFPBIC_UNSUP_METADATA
  | eBadInstUnsupMetadataMask => some OFPBIC_UNSUP_METADATA_MASK
  | eBadInstBadExperimenter => some OFPBIC_BAD_EXPERIMENTER
  | eBadInstBadExpType => some OFPBIC_BAD_EXP_TYPE
  | eBadInstBadLen => some OFPBIC_BAD_LEN
  | eBadInstEperm => some OFPBIC_EPERM
  | eBadMatchBadType => some OFPBMC_BAD_TYPE
  | eBadMatchBadLen => some OFPBMC_BAD_LEN
  | eBadMatchBadTag => some OFPBMC_BAD_TAG
  | eBadMatchBadDlAddrMask => some OFPBMC_BAD_DL_ADDR_MASK
  | eBadMatchBadNwAddrMask => some OFPBMC_BAD_NW_ADDR_MASK
  | eBadMatchBadWildcards => some OFPBMC_BAD_WILDCARDS
  | eBadMatchBadField => some OFPBMC_BAD_FIELD
  | eBadMatchBadValue => some OFPBMC_BAD_VALUE
  | eBadMatchBadMask => some OFPBMC_BAD_MASK
  | eBadMatchBadPrereq => some OFPBMC_BAD_PREREQ
  | eBadMatchDupField => some OFPBMC_DUP_FIELD
  | eBadMatchEperm => some OFPBMC_EPERM
  | eRoleRequestStale => some OFPRRFC_STALE
  | eRoleRequestUnsupported => some OFPRRFC_UNSUP
  | eRoleRequestBadRole => some OFPRRFC_BAD_ROLE
  | eMeterModUnknown => some OFPMMFC_UNKNOWN
  | eMeterModMeterExists => some OFPMMFC_METER_EXISTS
  | eMeterModInvalidMeter => some OFPMMFC_INVALID_METER
  | eMeterModUnknownMeter => some OFPMMFC_UNKNOWN_METER
  | eMeterModBadCommand => some OFPMMFC_BAD_COMMAND
  | eMeterModBadFlags => some OFPMMFC_BAD_FLAGS
  | eMeterModBadRate => some OFPMMFC_BAD_RATE
  | eMeterModBadBurst => some OFPMMFC_BAD_BURST
  | eMeterModBadBand => some OFPMMFC_BAD_BAND
  | eMeterModBadBandValue => some OFPMMFC_BAD_BAND_VALUE
  | eMeterModOutOfMeters => some OFPMMFC_OUT_OF_METERS
  | eMeterModOutOfBands => some OFPMMFC_OUT_OF_BANDS
  | _ => none

/-- OpenFlow 1.0 numbers its flow-mod errors otherwise and has only these. -/
def errCode10 : OfException → Option ℕ
  | eFlowModTableFull => some Openflow10.OFPFMFC_ALL_TABLES_FULL
  | eFlowModOverlap => some Openflow10.OFPFMFC_OVERLAP
  | eFlowModEperm => some Openflow10.OFPFMFC_EPERM
  | eFlowModBadTimeout => some Openflow10.OFPFMFC_BAD_EMERG_TIMEOUT
  | eFlowModBadCommand => some Openflow10.OFPFMFC_BAD_COMMAND
  | _ => none

/-- The type and the code that correspond to the exception. -/
def error (v : UInt8) (e : OfException) : Option (ℕ × ℕ) :=
  if e = eBadVersion then some (OFPET_BAD_REQUEST, OFPBRC_BAD_VERSION)
  else if v = Openflow10.OFP_VERSION ∧ e.base = eFlowModBase then
    e.errCode10.map (Openflow10.OFPET_FLOW_MOD_FAILED, ·)
  else e.base.errType.bind fun type => e.errCode.map (type, ·)

/-- The lowest version the error message can be made in. -/
def since : OfException → UInt8
  | eFlowModBadFlags | eBadActionBadSetType | eBadActionBadSetLen | eBadActionBadSetArgument
  | eBadInstBadExpType | eBadInstBadLen | eBadInstEperm | eMeterModUnknown | eMeterModMeterExists
  | eMeterModInvalidMeter | eMeterModUnknownMeter | eMeterModBadCommand | eMeterModBadFlags
  | eMeterModBadRate | eMeterModBadBurst | eMeterModBadBand | eMeterModBadBandValue
  | eMeterModOutOfMeters | eMeterModOutOfBands => Openflow13.OFP_VERSION
  | eSwitchConfigBadFlags | eSwitchConfigBadLen | eSwitchConfigEPerm | eFlowModUnknown
  | eFlowModBadTableId | eGroupModExists | eGroupModInvalGroup | eGroupModWeightUnsupported
  | eGroupModOutOfGroups | eGroupModOutOfBuckets | eGroupModChainingUnsupported
  | eGroupModWatchUnsupported | eGroupModLoop | eGroupModUnknownGroup | eGroupModChainedGroup
  | eGroupModBadType | eGroupModBadCommand | eGroupModBadBucket | eGroupModBadWatch
  | eGroupModEperm | ePortModBadPort | ePortModBadHwAddr | ePortModBadConfig | ePortModBadAdvertise
  | ePortModEperm | eTableModBadTable | eTableModBadConfig | eTableModEperm | eBadActionBadOutGroup
  | eBadActionMatchInconsistent | eBadActionUnsupportedOrder | eBadActionBadTag
  | eBadInstUnknownInst | eBadInstUnsupInst | eBadInstBadTableId | eBadInstUnsupMetadata
  | eBadInstUnsupMetadataMask | eBadInstBadExperimenter | eBadMatchBadType | eBadMatchBadLen
  | eBadMatchBadTag | eBadMatchBadDlAddrMask | eBadMatchBadNwAddrMask | eBadMatchBadWildcards
  | eBadMatchBadField | eBadMatchBadValue | eBadMatchBadMask | eBadMatchBadPrereq
  | eBadMatchDupField | eBadMatchEperm | eRoleRequestStale | eRoleRequestUnsupported
  | eRoleRequestBadRole => Openflow12.OFP_VERSION
  | _ => Openflow.OFP_VERSION_UNKNOWN

end OfException

/-! ## Error messages -/

/-- The classes derived from `cofmsg_error`, by their constructors: those that set type and code in
any version, those that throw below one, and those of the flow-mod errors that have other numbers
in OpenFlow 1.0. -/
inductive CofmsgError
  | always (type code : ℕ)
  | since (lowest : UInt8) (type code : ℕ)
  | flowModFailed (code10 code : ℕ)
deriving DecidableEq, Repr

namespace CofmsgError

def since12 : ℕ → ℕ → CofmsgError := since Openflow12.OFP_VERSION

def since13 : ℕ → ℕ → CofmsgError := since Openflow13.OFP_VERSION

/-- The constructor: type and code, `none` where it throws. -/
def new (v : UInt8) : CofmsgError → Option (ℕ × ℕ)
  | always type code => some (type, code)
  | since lowest type code => if v < lowest then none else some (type, code)
  | flowModFailed code10 code =>
    if v = Openflow10.OFP_VERSION then some (Openflow10.OFPET_FLOW_MOD_FAILED, code10)
    else some (Openflow.OFPET_FLOW_MOD_FAILED, code)

end CofmsgError

end RoflCommon
