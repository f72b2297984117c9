/-
A controller, as the datapath sees it: the role it has been given, and the
asynchronous events it wants.

The roles have the same numbers in OpenFlow 1.2 and 1.3, and the version of the
control channel decides whether they count (`isSlave`).
-/
import RoflCommon.Openflow

namespace RoflCommon

/-! ## Roles -/

/-- `OFPCR_ROLE_NOCHANGE` and the others, in the order of their numbers. -/
inductive Ofpcr
  | noChange | equal | master | slave
deriving DecidableEq, Repr

/-- `cofrole::is_valid_role`, and which role the number is. -/
def Ofpcr.ofNumber : Nat → Option Ofpcr
  | 0 => some noChange
  | 1 => some equal
  | 2 => some master
  | 3 => some slave
  | _ => none

/-- The versions there are roles in. -/
def HasRoles (ofpVersion : UInt8) : Prop := ofpVersion = Openflow12.OFP_VERSION ∨ ofpVersion = Openflow13.OFP_VERSION

instance (ofpVersion : UInt8) : Decidable (HasRoles ofpVersion) := instDecidableOr

structure Cofrole where
  role : Ofpcr
  generationId : BitVec 64
deriving DecidableEq, Repr

namespace Cofrole

/-- How far the received number is ahead of the cached one, the shorter way
round. -/
def distance (rcvdGenId cachedGenId : BitVec 64) : Int := (rcvdGenId - cachedGenId).toInt

/-- The role of the constructor. -/
def new : Cofrole := ⟨.equal, -1⟩

@[simp] theorem distance_self (g : BitVec 64) : distance g g = 0 := by simp [distance]

/-- The number before is behind. -/
theorem distance_pred (g : BitVec 64) : distance (g - 1) g = -1 := by
  have h : g - 1 - g = -1 := by grind
  unfold distance
  rw [h]
  rfl

end Cofrole

/-! ## Asynchronous events -/

/-- The masks of the events wanted, each in the role of a master (or an equal)
and in that of a slave. -/
structure CofasyncConfig where
  packetInMaskMaster : BitVec 32
  packetInMaskSlave : BitVec 32
  portStatusMaskMaster : BitVec 32
  portStatusMaskSlave : BitVec 32
  flowRemovedMaskMaster : BitVec 32
  flowRemovedMaskSlave : BitVec 32
deriving DecidableEq, Repr

namespace CofasyncConfig

/-- `init_async_config_role_default_template`: all reasons there are, except that
a slave wants port-status events alone. -/
def roleDefaultTemplate : CofasyncConfig where
  packetInMaskMaster := 1 <<< Openflow13.OFPR_NO_MATCH ||| 1 <<< Openflow13.OFPR_ACTION |||
    1 <<< Openflow13.OFPR_INVALID_TTL
  packetInMaskSlave := 0
  portStatusMaskMaster := 1 <<< Openflow13.OFPPR_ADD ||| 1 <<< Openflow13.OFPPR_DELETE |||
    1 <<< Openflow13.OFPPR_MODIFY
  portStatusMaskSlave := 1 <<< Openflow13.OFPPR_ADD ||| 1 <<< Openflow13.OFPPR_DELETE |||
    1 <<< Openflow13.OFPPR_MODIFY
  flowRemovedMaskMaster := 1 <<< Openflow13.OFPRR_IDLE_TIMEOUT ||| 1 <<< Openflow13.OFPRR_HARD_TIMEOUT |||
    1 <<< Openflow13.OFPRR_DELETE ||| 1 <<< Openflow13.OFPRR_GROUP_DELETE
  flowRemovedMaskSlave := 0

end CofasyncConfig

/-! ## The controller -/

/-- `version` is the one of the control channel. -/
structure Crofctl where
  version : UInt8
  asyncConfig : CofasyncConfig
  role : Cofrole
deriving DecidableEq, Repr

namespace Crofctl

def new : Crofctl := ⟨Openflow.OFP_VERSION_UNKNOWN, .roleDefaultTemplate, .new⟩

def isSlave (ctl : Crofctl) : Bool :=
  if ctl.version = Openflow12.OFP_VERSION then ctl.role.role = .slave
  else if ctl.version = Openflow13.OFP_VERSION then ctl.role.role = .slave
  else false

theorem isSlave_eq_true {ctl : Crofctl} : ctl.isSlave = true ↔ HasRoles ctl.version ∧ ctl.role.role = .slave := by
  unfold isSlave HasRoles
  split_ifs with h12 h13 <;> simp [*]

def setRole (ctl : Crofctl) (role : Ofpcr) : Crofctl := { ctl with role := { ctl.role with role } }

def setGenerationId (ctl : Crofctl) (generationId : BitVec 64) : Crofctl :=
  { ctl with role := { ctl.role with generationId } }

/-- What `role_request_rcvd` does to the sender: the role, and the events that go
with it. -/
def assume (ctl : Crofctl) (role : Ofpcr) : Crofctl :=
  { ctl with asyncConfig := .roleDefaultTemplate }.setRole role

/-- What both `handle_established` and `handle_closed` do to the role. -/
def resetRole (ctl : Crofctl) (ofpVersion : UInt8) : Crofctl :=
  if HasRoles ofpVersion then ctl.setRole .equal else ctl

/-- The main connection is established, and the channel with it. -/
def handleEstablished (ctl : Crofctl) (ofpVersion : UInt8) : Crofctl :=
  { ctl.resetRole ofpVersion with version := ofpVersion }

def handleClosed (ctl : Crofctl) : Crofctl := ctl.resetRole ctl.version

end Crofctl

end RoflCommon
