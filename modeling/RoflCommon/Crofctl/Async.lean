/-
The asynchronous events of a controller: packet-in, flow-removed and
port-status.

`1 << reason` has a bit of the mask for each reason below 32. From there on the
shift takes the reason modulo 32, as the machine's instruction does (to the
language it is undefined), and an event is passed for the sake of another reason
(`filtered_iff_meets`).
-/
import RoflCommon.Crofbase
import RoflCommon.Lib.Runs

namespace RoflCommon

inductive AsyncEvent
  | packetIn | flowRemoved | portStatus
deriving DecidableEq, Repr

namespace Crofctl

/-- `1 << reason`. -/
def shiftOne (reason : UInt8) : BitVec 32 := 1#32 <<< (reason.toNat % 32)

/-- The role switch the three functions have in common, up to the masks and
whether a slave is left out in OpenFlow 1.2: whether the event goes to the
channel, or the function returns `MSG_IGNORED`. -/
def passes (ctl : Crofctl) (ignoreSlave : Bool) (maskMaster maskSlave : BitVec 32) (reason : UInt8) : Bool :=
  if ctl.version = Openflow12.OFP_VERSION then !(ignoreSlave && ctl.isSlave)
  else if ctl.version = Openflow13.OFP_VERSION then
    match ctl.role.role with
    | .equal | .master => maskMaster &&& shiftOne reason ≠ 0
    | .slave => maskSlave &&& shiftOne reason ≠ 0
    | .noChange => true
  else true

def sendPacketInMessage (ctl : Crofctl) (reason : UInt8) : Bool :=
  ctl.passes true ctl.asyncConfig.packetInMaskMaster ctl.asyncConfig.packetInMaskSlave reason

def sendFlowRemovedMessage (ctl : Crofctl) (reason : UInt8) : Bool :=
  ctl.passes true ctl.asyncConfig.flowRemovedMaskMaster ctl.asyncConfig.flowRemovedMaskSlave reason

def sendPortStatusMessage (ctl : Crofctl) (reason : UInt8) : Bool :=
  ctl.passes false ctl.asyncConfig.portStatusMaskMaster ctl.asyncConfig.portStatusMaskSlave reason

def sends (ctl : Crofctl) : AsyncEvent → UInt8 → Bool
  | .packetIn => ctl.sendPacketInMessage
  | .flowRemoved => ctl.sendFlowRemovedMessage
  | .portStatus => ctl.sendPortStatusMessage

end Crofctl

/-- The mask that counts for a kind of events in a role. -/
def CofasyncConfig.mask (c : CofasyncConfig) (role : Ofpcr) : AsyncEvent → BitVec 32
  | .packetIn => if role = .slave then c.packetInMaskSlave else c.packetInMaskMaster
  | .flowRemoved => if role = .slave then c.flowRemovedMaskSlave else c.flowRemovedMaskMaster
  | .portStatus => if role = .slave then c.portStatusMaskSlave else c.portStatusMaskMaster

theorem Crofctl.and_shiftOne (mask : BitVec 32) (reason : UInt8) :
    mask &&& shiftOne reason = 0#32 ↔ mask.getLsbD (reason.toNat % 32) = false := by
  have hlt : reason.toNat % 32 < 32 := Nat.mod_lt _ (by decide)
  have hne : BitVec.twoPow 32 (reason.toNat % 32) ≠ 0#32 := by
    intro h
    have hbit := congrArg BitVec.toNat h
    rw [BitVec.toNat_twoPow_of_lt hlt] at hbit
    simp at hbit
  unfold shiftOne
  rw [← BitVec.twoPow_eq, BitVec.and_twoPow]
  cases mask.getLsbD (reason.toNat % 32) <;> simp [hne]

/-- With OpenFlow 1.3, an event goes by the bit of its reason modulo 32. -/
theorem Crofctl.sends_eq {ctl : Crofctl} (hversion : ctl.version = Openflow13.OFP_VERSION)
    (hrole : ctl.role.role ≠ .noChange) (event : AsyncEvent) (reason : UInt8) :
    ctl.sends event reason = (ctl.asyncConfig.mask ctl.role.role event).getLsbD (reason.toNat % 32) := by
  have h12 : ctl.version ≠ Openflow12.OFP_VERSION := by
    rw [hversion]
    decide
  have hpasses : ∀ ignoreSlave maskMaster maskSlave, ctl.passes ignoreSlave maskMaster maskSlave reason =
      (if ctl.role.role = .slave then maskSlave else maskMaster).getLsbD (reason.toNat % 32) := by
    intro ignoreSlave maskMaster maskSlave
    unfold passes
    rw [if_neg h12, if_pos hversion]
    cases hr : ctl.role.role with
    | noChange => exact absurd hr hrole
    | equal | master | slave => simp [and_shiftOne]
  cases event with
  | packetIn | flowRemoved | portStatus => exact hpasses _ _ _

/-! ## Histories -/

/-- An element beside the configuration each of its controllers should have, and
whether the last event has been passed to the channel. -/
structure Subscriptions where
  base : Crofbase
  inForce : ℕ → CofasyncConfig
  passed : Bool

namespace Subscriptions

inductive Act
  | other (a : Crofbase.Act)
  | event (ctlid : ℕ) (event : AsyncEvent) (reason : UInt8)

/-- The request is accepted and names a role. -/
def Accepted (b : Crofbase) (ctlid role : ℕ) (g : BitVec 64) : Prop :=
  (b.handleRoleRequest ctlid role g).2 = none ∧ Ofpcr.ofNumber role ≠ some .noChange

instance (b : Crofbase) (ctlid role : ℕ) (g : BitVec 64) : Decidable (Accepted b ctlid role g) := instDecidableAnd

/-- The last SET_ASYNC, or the template, for a new controller and whenever a role
has been accepted. -/
def configure (s : Subscriptions) : Crofbase.Act → ℕ → CofasyncConfig
  | .setAsync ctlid asyncConfig => Function.update s.inForce ctlid asyncConfig
  | .roleRequest ctlid role g =>
    if Accepted s.base ctlid role g then Function.update s.inForce ctlid .roleDefaultTemplate else s.inForce
  | .addCtl => Function.update s.inForce s.base.rofctls.firstFree .roleDefaultTemplate
  | .addCtlAs ctlid => Function.update s.inForce ctlid .roleDefaultTemplate
  | .setCtl ctlid =>
    if (s.base.rofctls.find? ctlid).isSome then s.inForce else Function.update s.inForce ctlid .roleDefaultTemplate
  | .dropCtl _ | .dropCtls | .established _ _ | .closed _ => s.inForce

def step (s : Subscriptions) : Act → Option Subscriptions
  | .other a => (s.base.step a).map fun base => ⟨base, s.configure a, false⟩
  | .event ctlid event reason =>
    match s.base.rofctls.find? ctlid with
    | none => none
    | some ctl => some { s with passed := ctl.sends event reason }

def new : Subscriptions := ⟨.new, fun _ => .roleDefaultTemplate, false⟩

/-- An event of a controller with OpenFlow 1.3 is passed exactly if its reason
has a bit and the bit is set, in the mask for its role of the configuration that
should be in force. -/
def Exact (s : Subscriptions) (a : Act) (s' : Subscriptions) : Prop :=
  match a with
  | .other _ => True
  | .event ctlid event reason =>
    ∀ ctl, s.base.rofctls.find? ctlid = some ctl → ctl.version = Openflow13.OFP_VERSION →
      (s'.passed = true ↔
        reason.toNat < 32 ∧ ((s.inForce ctlid).mask ctl.role.role event).getLsbD reason.toNat = true)

/-- The reason is below 32, or the bit the shift comes back to is not set. -/
def Ok (s : Subscriptions) : Act → Prop
  | .other _ => True
  | .event ctlid event reason =>
    ∀ ctl, s.base.rofctls.find? ctlid = some ctl → ctl.version = Openflow13.OFP_VERSION →
      reason.toNat < 32 ∨ ((s.inForce ctlid).mask ctl.role.role event).getLsbD (reason.toNat % 32) = false

/-- Each controller has the configuration it should have, and a role. -/
def Agree (s : Subscriptions) : Prop :=
  ∀ id ctl, s.base.rofctls.find? id = some ctl → ctl.asyncConfig = s.inForce id ∧ ctl.role.role ≠ .noChange

theorem agree_new : Agree new := fun id ctl h => by cases h

theorem Agree.insert {s : Subscriptions} (h : s.Agree) (ctlid : ℕ) (passed : Bool) :
    Agree ⟨s.base.addCtlAs ctlid, Function.update s.inForce ctlid .roleDefaultTemplate, passed⟩ := by
  intro id ctl hctl
  simp only [Crofbase.addCtlAs, Omap.find?_insert] at hctl
  split at hctl
  next heq =>
    obtain rfl := Option.some.inj hctl
    simp [heq, Crofctl.new, Cofrole.new]
  next hne =>
    simp only [Function.update_of_ne hne]
    exact h id ctl hctl

/-- What leaves the configuration alone, and a role a role. -/
theorem Agree.modify {s : Subscriptions} (h : s.Agree) (ctlid : ℕ) (passed : Bool) {f : Crofctl → Crofctl}
    (hf : ∀ ctl, (f ctl).asyncConfig = ctl.asyncConfig ∧ (ctl.role.role ≠ .noChange → (f ctl).role.role ≠ .noChange)) :
    Agree ⟨s.base.modify ctlid f, s.inForce, passed⟩ := by
  intro id ctl hctl
  simp only [Crofbase.find?_modify] at hctl
  split at hctl
  next =>
    obtain ⟨before, hbefore, rfl⟩ := Option.map_eq_some_iff.mp hctl
    obtain ⟨hconfig, hrole⟩ := h id before hbefore
    exact ⟨(hf before).1.trans hconfig, (hf before).2 hrole⟩
  next => exact h id ctl hctl

theorem resetRole_spec (ctl : Crofctl) (v : UInt8) : (ctl.resetRole v).asyncConfig = ctl.asyncConfig ∧
    (ctl.role.role ≠ .noChange → (ctl.resetRole v).role.role ≠ .noChange) := by
  unfold Crofctl.resetRole
  split <;> simp [Crofctl.setRole]

theorem Agree.grant {s : Subscriptions} (h : s.Agree) {b : Crofbase} (hb : b.rofctls = s.base.rofctls) {ctlid : ℕ}
    {role : Ofpcr} (passed : Bool) : Agree ⟨b.grant ctlid role,
      if role ≠ .noChange then Function.update s.inForce ctlid .roleDefaultTemplate else s.inForce, passed⟩ := by
  intro id ctl' hctl'
  obtain ⟨ctl, hctl, hconfig, hrole⟩ := Crofbase.of_find?_grant hctl'
  rw [hb] at hctl
  obtain ⟨hbefore, hnot⟩ := h id ctl hctl
  refine ⟨?_, hrole hnot⟩
  rw [hconfig, hbefore]
  by_cases hid : id = ctlid
  · subst hid
    split_ifs <;> simp_all
  · split_ifs <;> simp_all

theorem Agree.step {s s' : Subscriptions} {a : Act} (h : s.Agree) (hstep : s.step a = some s') : s'.Agree := by
  cases a with
  | event ctlid event reason =>
    simp only [Subscriptions.step] at hstep
    split at hstep
    next => cases hstep
    next ctl hctl =>
      obtain rfl := Option.some.inj hstep
      exact h
  | other a =>
    obtain ⟨b, hb, rfl⟩ := Option.map_eq_some_iff.mp hstep
    cases a with
    | addCtl =>
      obtain rfl := Option.some.inj hb
      exact h.insert _ _
    | addCtlAs ctlid =>
      obtain rfl := Option.some.inj hb
      exact h.insert _ _
    | setCtl ctlid =>
      obtain rfl := Option.some.inj hb
      simp only [configure, Crofbase.setCtl]
      cases hctl : s.base.rofctls.find? ctlid with
      | none => exact h.insert ctlid _
      | some ctl => exact h
    | dropCtl ctlid =>
      obtain rfl := Option.some.inj hb
      intro id ctl hctl
      simp only [Crofbase.dropCtl, Omap.find?_erase] at hctl
      split at hctl
      next => cases hctl
      next => exact h id ctl hctl
    | dropCtls =>
      obtain rfl := Option.some.inj hb
      intro id ctl hctl
      cases hctl
    | established ctlid v =>
      simp only [Crofbase.step] at hb
      split_ifs at hb
      obtain rfl := Option.some.inj hb
      exact h.modify ctlid _ fun ctl => resetRole_spec ctl v
    | closed ctlid =>
      simp only [Crofbase.step] at hb
      split_ifs at hb
      obtain rfl := Option.some.inj hb
      exact h.modify ctlid _ fun ctl => resetRole_spec ctl ctl.version
    | setAsync ctlid asyncConfig =>
      obtain rfl := Option.some.inj hb
      intro id ctl hctl
      simp only [Crofbase.find?_modify] at hctl
      split at hctl
      next heq =>
        obtain ⟨before, hbefore, rfl⟩ := Option.map_eq_some_iff.mp hctl
        simp only [configure, heq, Function.update_self, true_and]
        exact (h id before hbefore).2
      next hne =>
        simp only [configure, Function.update_of_ne hne]
        exact h id ctl hctl
    | roleRequest ctlid role g =>
      obtain rfl := Option.some.inj hb
      simp only [configure, Accepted]
      obtain ⟨e, hsame⟩ | ⟨r, hrole, -, hset | ⟨-, hset⟩⟩ := s.base.handleRoleRequest_cases ctlid role g
      · simp only [hsame, reduceCtorEq, false_and, if_false]
        exact h
      · simp only [hset, hrole, true_and, ne_eq, Option.some.injEq]
        exact h.grant rfl _
      · simp only [hset, hrole, true_and, ne_eq, Option.some.injEq]
        exact h.grant (b := { s.base with cachedGenerationId := g, generationIsDefined := true }) rfl _

/-- **Events are filtered as the history of roles and configurations says, along
a run, exactly when no event has a reason from 32 on that the shift brings back
to a bit of the mask.** -/
theorem filtered_iff_meets {s : Subscriptions} {as : List Act} (h : Runs.run step new as = some s) :
    Runs.Along step Exact new as ↔ Runs.Meets step Ok new as := by
  refine Runs.along_iff_meets (fun s a s' hs hstep => hs.step hstep) (fun s a s' hs hstep => ?_) agree_new h
  cases a with
  | other a => exact Iff.rfl
  | event ctlid event reason =>
    simp only [Subscriptions.step] at hstep
    split at hstep
    next => cases hstep
    next ctl hctl =>
      obtain rfl := Option.some.inj hstep
      obtain ⟨hconfig, hrole⟩ := hs ctlid ctl hctl
      simp only [Exact, Ok, hctl, Option.some.injEq, forall_eq']
      refine forall_congr' fun hversion => ?_
      rw [Crofctl.sends_eq hversion hrole, hconfig]
      by_cases hlt : reason.toNat < 32
      · simp [hlt, Nat.mod_eq_of_lt hlt]
      · simp [hlt]

theorem filtered_iff_meets_demoted : ∃ s, Runs.run step new
    [.other .addCtl, .other (.established 0 Openflow13.OFP_VERSION), .other (.roleRequest 0 3 1),
      .event 0 .packetIn 0, .event 0 .portStatus 2] = some s ∧ s.passed = true ∧
    Runs.Along step Exact new
      [.other .addCtl, .other (.established 0 Openflow13.OFP_VERSION), .other (.roleRequest 0 3 1),
        .event 0 .packetIn 0, .event 0 .portStatus 2] := by
  refine ⟨_, rfl, by decide +kernel, (filtered_iff_meets rfl).mpr ?_⟩
  exact ⟨trivial, trivial, trivial, fun _ _ _ => .inl (by decide), fun _ _ _ => .inl (by decide), trivial⟩

/-- A packet-in with reason 32 goes out for the sake of reason 0. -/
theorem reason_wraps : ∃ s t, Runs.run step new
    [.other .addCtl, .other (.established 0 Openflow13.OFP_VERSION)] = some s ∧
    s.step (.event 0 .packetIn 32) = some t ∧ t.passed = true ∧ ¬ Exact s (.event 0 .packetIn 32) t := by
  refine ⟨_, _, rfl, rfl, by decide +kernel, fun hx => ?_⟩
  have hlt := ((hx _ rfl (by decide +kernel)).mp (by decide +kernel)).1
  exact absurd hlt (by decide)

end Subscriptions

end RoflCommon
