/-
The controllers attached to an element, and the requests for roles it settles
among them.

A controller that is dropped keeps its connections until they are closed but
has no environment any more: a request of it ends with `eRofCtlNotFound` and
reaches nothing here.
-/
import RoflCommon.Crofctl
import RoflCommon.Lib.Omap

namespace RoflCommon

structure Crofbase where
  rofctls : Omap ℕ Crofctl
  generationIsDefined : Bool
  cachedGenerationId : BitVec 64
deriving DecidableEq

/-- Why a request for a role is turned down. -/
inductive RoleError
  | badRole | stale | notFound
deriving DecidableEq, Repr

namespace Crofbase

def new : Crofbase := ⟨.empty, false, -1⟩

/-! ## Attaching and detaching -/

def addCtl (b : Crofbase) : Crofbase := { b with rofctls := b.rofctls.insert b.rofctls.firstFree .new }

/-- `add_ctl` with an id: one that is there is destroyed first. -/
def addCtlAs (b : Crofbase) (ctlid : ℕ) : Crofbase := { b with rofctls := b.rofctls.insert ctlid .new }

def setCtl (b : Crofbase) (ctlid : ℕ) : Crofbase :=
  match b.rofctls.find? ctlid with
  | none => { b with rofctls := b.rofctls.insert ctlid .new }
  | some _ => b

def dropCtl (b : Crofbase) (ctlid : ℕ) : Crofbase := { b with rofctls := b.rofctls.erase ctlid }

def dropCtls (b : Crofbase) : Crofbase := { b with rofctls := .empty }

/-- What is done to a controller through a reference to it. -/
def modify (b : Crofbase) (ctlid : ℕ) (f : Crofctl → Crofctl) : Crofbase :=
  { b with rofctls := b.rofctls.map fun id ctl => if id = ctlid then f ctl else ctl }

/-! ## Requests for roles -/

/-- The loop that turns any other master into a slave. -/
def demoteOthers (b : Crofbase) (ctlid : ℕ) : Crofbase :=
  { b with
    rofctls := b.rofctls.map fun id ctl =>
      if id = ctlid then ctl
      else if ctl.role.role = .master then ctl.setRole .slave
      else ctl }

/-- What follows for a request that is not turned down. -/
def grant (b : Crofbase) (ctlid : ℕ) (role : Ofpcr) : Crofbase :=
  let b := b.modify ctlid (·.setGenerationId b.cachedGenerationId)
  match role with
  | .master => (b.demoteOthers ctlid).modify ctlid (·.assume .master)
  | .slave => b.modify ctlid (·.assume .slave)
  | .equal => b.modify ctlid (·.assume .equal)
  | .noChange => b

/-- A number that is not behind is cached whatever role is asked for. -/
def roleRequestRcvd (b : Crofbase) (ctlid : ℕ) (role : Ofpcr) (rcvdGenerationId : BitVec 64) :
    Crofbase × Option RoleError :=
  if b.generationIsDefined ∧ Cofrole.distance rcvdGenerationId b.cachedGenerationId < 0 then
    if role = .master ∨ role = .slave then (b, some .stale)
    else (b.grant ctlid role, none)
  else
    ({ b with cachedGenerationId := rcvdGenerationId, generationIsDefined := true }.grant ctlid role, none)

/-- `crofctl::handle_recv` of a role request. -/
def handleRoleRequest (b : Crofbase) (ctlid : ℕ) (role : ℕ) (rcvdGenerationId : BitVec 64) :
    Crofbase × Option RoleError :=
  match Ofpcr.ofNumber role with
  | none => (b, some .badRole)
  | some role =>
    match b.rofctls.find? ctlid with
    | none => (b, some .notFound)
    | some _ => b.roleRequestRcvd ctlid role rcvdGenerationId

/-- The role of an attached controller. -/
def role (b : Crofbase) (ctlid : ℕ) : Option Ofpcr := (b.rofctls.find? ctlid).map (·.role.role)

/-- The version of the control channel of an attached controller. -/
def version (b : Crofbase) (ctlid : ℕ) : Option UInt8 := (b.rofctls.find? ctlid).map (·.version)

/-! ## Steps -/

inductive Act
  | addCtl
  | addCtlAs (ctlid : ℕ)
  | setCtl (ctlid : ℕ)
  | dropCtl (ctlid : ℕ)
  | dropCtls
  /-- The control channel of an attached controller comes up, and goes down. -/
  | established (ctlid : ℕ) (ofpVersion : UInt8)
  | closed (ctlid : ℕ)
  | setAsync (ctlid : ℕ) (asyncConfig : CofasyncConfig)
  | roleRequest (ctlid role : ℕ) (generationId : BitVec 64)
deriving DecidableEq

/-- All channels have such a version, and one that goes down has been up. -/
def step (b : Crofbase) : Act → Option Crofbase
  | .addCtl => some b.addCtl
  | .addCtlAs ctlid => some (b.addCtlAs ctlid)
  | .setCtl ctlid => some (b.setCtl ctlid)
  | .dropCtl ctlid => some (b.dropCtl ctlid)
  | .dropCtls => some b.dropCtls
  | .established ctlid ofpVersion =>
    if HasRoles ofpVersion then some (b.modify ctlid (·.handleEstablished ofpVersion)) else none
  | .closed ctlid =>
    if (b.version ctlid).any HasRoles then some (b.modify ctlid (·.handleClosed)) else none
  | .setAsync ctlid asyncConfig => some (b.modify ctlid ({ · with asyncConfig }))
  | .roleRequest ctlid role generationId => some (b.handleRoleRequest ctlid role generationId).1

/-! ## What the operations do -/

section Operations

variable (b : Crofbase) (ctlid id : ℕ)

@[simp] theorem role_new : new.role id = none := rfl

@[simp] theorem role_addCtlAs :
    (b.addCtlAs ctlid).role id = if id = ctlid then some .equal else b.role id := by
  unfold role addCtlAs
  rw [Omap.find?_insert]
  split <;> rfl

@[simp] theorem role_dropCtl : (b.dropCtl ctlid).role id = if id = ctlid then none else b.role id := by
  unfold role dropCtl
  rw [Omap.find?_erase]
  split <;> rfl

@[simp] theorem role_dropCtls : b.dropCtls.role id = none := rfl

theorem find?_modify (f : Crofctl → Crofctl) : (b.modify ctlid f).rofctls.find? id =
    if id = ctlid then (b.rofctls.find? id).map f else b.rofctls.find? id := by
  unfold modify
  rw [Omap.find?_map]
  split
  · rfl
  · exact Option.map_id_apply

theorem role_setGenerationId (g : BitVec 64) :
    (b.modify ctlid (·.setGenerationId g)).role id = b.role id := by
  unfold role
  rw [find?_modify]
  split
  · rw [Option.map_map]
    rfl
  · rfl

theorem role_setAsyncConfig (asyncConfig : CofasyncConfig) :
    (b.modify ctlid ({ · with asyncConfig })).role id = b.role id := by
  unfold role
  rw [find?_modify]
  split
  · rw [Option.map_map]
    rfl
  · rfl

theorem role_handleEstablished {ofpVersion : UInt8} (h : HasRoles ofpVersion) :
    (b.modify ctlid (·.handleEstablished ofpVersion)).role id =
      if id = ctlid then (b.role id).map fun _ => .equal else b.role id := by
  unfold role
  rw [find?_modify]
  split
  · rw [Option.map_map, Option.map_map]
    refine congrArg (Option.map · _) (funext fun ctl => ?_)
    simp only [Function.comp_apply, Crofctl.handleEstablished, Crofctl.resetRole, if_pos h, Crofctl.setRole]
  · rfl

variable {b ctlid} in
theorem role_handleClosed (h : (b.version ctlid).any HasRoles = true) :
    (b.modify ctlid (·.handleClosed)).role id = if id = ctlid then (b.role id).map fun _ => .equal else b.role id := by
  unfold role
  rw [find?_modify]
  split
  next heq =>
    subst heq
    obtain ⟨v, hv, hroles⟩ := (Option.any_eq_true _ _).mp h
    obtain ⟨ctl, hctl, rfl⟩ := Option.map_eq_some_iff.mp hv
    have hreset : ctl.handleClosed = ctl.setRole .equal := if_pos (of_decide_eq_true hroles)
    simp [hctl, hreset, Crofctl.setRole]
  next => rfl

theorem role_assume (r : Ofpcr) : (b.modify ctlid (·.assume r)).role id =
    if id = ctlid then (b.role id).map fun _ => r else b.role id := by
  unfold role
  rw [find?_modify]
  split
  · rw [Option.map_map, Option.map_map]
    rfl
  · rfl

theorem role_demoteOthers : (b.demoteOthers ctlid).role id =
    (b.role id).map fun r => if id ≠ ctlid ∧ r = .master then .slave else r := by
  unfold role demoteOthers
  rw [Omap.find?_map, Option.map_map, Option.map_map]
  refine congrArg (Option.map · _) (funext fun ctl => ?_)
  by_cases hid : id = ctlid
  · simp [hid]
  · by_cases hmaster : ctl.role.role = .master
    · simp [hid, hmaster, Crofctl.setRole]
    · simp [hid, hmaster]

end Operations

section Grant

variable (b : Crofbase) (ctlid id : ℕ)

theorem role_grant_master : (b.grant ctlid .master).role id = (b.role id).map fun r =>
    if id = ctlid then .master else if r = .master then .slave else r := by
  simp only [grant, role_assume, role_demoteOthers, role_setGenerationId]
  by_cases hid : id = ctlid
  · simp [hid]
  · simp [hid]

theorem role_grant_slave : (b.grant ctlid .slave).role id =
    if id = ctlid then (b.role id).map fun _ => .slave else b.role id := by
  simp only [grant, role_assume, role_setGenerationId]

theorem role_grant_equal : (b.grant ctlid .equal).role id =
    if id = ctlid then (b.role id).map fun _ => .equal else b.role id := by
  simp only [grant, role_assume, role_setGenerationId]

theorem role_grant_noChange : (b.grant ctlid .noChange).role id = b.role id := by
  simp only [grant, role_setGenerationId]

@[simp] theorem generationIsDefined_grant (r : Ofpcr) :
    (b.grant ctlid r).generationIsDefined = b.generationIsDefined := by
  cases r <;> rfl

@[simp] theorem cachedGenerationId_grant (r : Ofpcr) :
    (b.grant ctlid r).cachedGenerationId = b.cachedGenerationId := by
  cases r <;> rfl

theorem isSome_grant (r : Ofpcr) :
    ((b.grant ctlid r).rofctls.find? id).isSome = (b.rofctls.find? id).isSome := by
  cases r <;> simp [grant, modify, demoteOthers]

end Grant

/-- What becomes of a controller when a role is granted, its own or another's. -/
theorem of_find?_grant {b : Crofbase} {ctlid id : ℕ} {role : Ofpcr} {ctl' : Crofctl}
    (h : (b.grant ctlid role).rofctls.find? id = some ctl') : ∃ ctl, b.rofctls.find? id = some ctl ∧
      ctl'.asyncConfig = (if id = ctlid ∧ role ≠ .noChange then .roleDefaultTemplate else ctl.asyncConfig) ∧
      (ctl.role.role ≠ .noChange → ctl'.role.role ≠ .noChange) := by
  cases role with
  | noChange =>
    simp only [grant, find?_modify] at h
    by_cases hid : id = ctlid
    · rw [if_pos hid] at h
      obtain ⟨ctl, hctl, rfl⟩ := Option.map_eq_some_iff.mp h
      exact ⟨ctl, hctl, by simp [Crofctl.setGenerationId], fun hrole => hrole⟩
    · rw [if_neg hid] at h
      exact ⟨ctl', h, by simp, fun hrole => hrole⟩
  | equal | slave =>
    simp only [grant, find?_modify] at h
    by_cases hid : id = ctlid
    · rw [if_pos hid, if_pos hid, Option.map_map] at h
      obtain ⟨ctl, hctl, rfl⟩ := Option.map_eq_some_iff.mp h
      exact ⟨ctl, hctl, by simp [hid, Crofctl.assume, Crofctl.setRole], fun _ => by simp [Crofctl.assume, Crofctl.setRole]⟩
    · rw [if_neg hid, if_neg hid] at h
      exact ⟨ctl', h, by simp [hid], fun hrole => hrole⟩
  | master =>
    simp only [grant, find?_modify, demoteOthers, Omap.find?_map] at h
    by_cases hid : id = ctlid
    · simp only [if_pos hid, Option.map_map] at h
      obtain ⟨ctl, hctl, rfl⟩ := Option.map_eq_some_iff.mp h
      exact ⟨ctl, hctl, by simp [hid, Crofctl.assume, Crofctl.setRole], fun _ => by simp [Crofctl.assume, Crofctl.setRole]⟩
    · simp only [if_neg hid] at h
      obtain ⟨ctl, hctl, rfl⟩ := Option.map_eq_some_iff.mp h
      refine ⟨ctl, hctl, ?_, fun hrole => ?_⟩
      · split <;> simp [hid, Crofctl.setRole]
      · split <;> simp [hrole, Crofctl.setRole]

theorem handleRoleRequest_cases (b : Crofbase) (ctlid role : ℕ) (g : BitVec 64) :
    (∃ e, b.handleRoleRequest ctlid role g = (b, some e)) ∨
      ∃ r, Ofpcr.ofNumber role = some r ∧ (b.rofctls.find? ctlid).isSome ∧
        (b.handleRoleRequest ctlid role g = (b.grant ctlid r, none) ∨
          ¬ (b.generationIsDefined = true ∧ Cofrole.distance g b.cachedGenerationId < 0) ∧
          b.handleRoleRequest ctlid role g =
            ({ b with cachedGenerationId := g, generationIsDefined := true }.grant ctlid r, none)) := by
  unfold handleRoleRequest
  split
  next => exact .inl ⟨_, rfl⟩
  next r hrole =>
    split
    next => exact .inl ⟨_, rfl⟩
    next ctl hctl =>
      unfold roleRequestRcvd
      split_ifs with hbehind hstale
      · exact .inl ⟨_, rfl⟩
      · exact .inr ⟨r, hrole, by simp [hctl], .inl rfl⟩
      · exact .inr ⟨r, hrole, by simp [hctl], .inr ⟨hbehind, rfl⟩⟩

end Crofbase

end RoflCommon
