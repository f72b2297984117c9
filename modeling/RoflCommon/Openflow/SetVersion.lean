/-
`set_version` of the arrays of statistics, each with its own walk over the entries.

`cofflowstatsarray` and `cofmeterconfigarray` visit their entries by an iterator, the three others
copy each entry into the loop's variable and set the version of the copy
(`Versioned.setVersionOfCopies_eq`). Below the entries the walks end early: an instruction does
not pass the version on to its actions, a `cofmeter_config_reply` not to its bands. What is not
reached keeps the version it had, and `length()` and `pack()` go by that
(`setVersion_reaches_iff`).
-/
import RoflCommon.Lib.Stamped
import RoflCommon.Openflow.Cofbuckets
import RoflCommon.Openflow.Cofgroupstats
import RoflCommon.Openflow.Cofmatch
import RoflCommon.Openflow.InstructionPack

namespace RoflCommon

open Stamped

/-- An object of a class whose `set_version` sets the version of the object alone. -/
structure Versioned (α : Type) where
  ofpVersion : UInt8
  content : α

namespace Versioned

variable {κ α : Type} [LinearOrder κ]

def setVersion (x : Versioned α) (v : UInt8) : Versioned α := { x with ofpVersion := v }

/-- `set_version` with a loop over the iterators of the map. -/
def setVersionEach (f : α → UInt8 → α) (x : Versioned (Omap κ α)) (v : UInt8) : Versioned (Omap κ α) :=
  ⟨v, x.content.map fun _ e => f e v⟩

/-- `set_version` with `for (auto it : array)`: the state of the loop is the array and the copy in `it`. -/
def setVersionOfCopies (f : α → UInt8 → α) (x : Versioned (Omap κ α)) (v : UInt8) : Versioned (Omap κ α) :=
  (x.content.values.foldl (fun s e => (s.1, some (f e v))) ({ x with ofpVersion := v }, none)).1

theorem setVersionOfCopies_eq (f : α → UInt8 → α) (x : Versioned (Omap κ α)) (v : UInt8) :
    x.setVersionOfCopies f v = x.setVersion v := by
  unfold setVersionOfCopies setVersion
  generalize ({ x with ofpVersion := v } : Versioned (Omap κ α)) = y
  generalize (none : Option α) = copy
  induction x.content.values generalizing copy with
  | nil => rfl
  | cons e es ih => exact ih (some (f e v))

variable [Stamped UInt8 α]

instance : Stamped UInt8 (Versioned α) where
  stamps x := x.ofpVersion :: stamps x.content
  reads x := x.ofpVersion :: reads x.content
  stamp v x := ⟨v, stamp v x.content⟩
  reads_subset x := List.cons_subset_cons _ (reads_subset x.content)
  stamp_stamp v w x := by rw [stamp_stamp]
  stamp_eq_self v x := by
    obtain ⟨own, content⟩ := x
    show (⟨v, stamp v content⟩ : Versioned α) = ⟨own, content⟩ ↔ ∀ w ∈ own :: stamps content, w = v
    rw [mk.injEq, List.forall_mem_cons, stamp_eq_self, eq_comm (a := v)]

theorem setVersion_eq_stamp_iff {x : Versioned α} {v : UInt8} :
    x.setVersion v = stamp v x ↔ ∀ w ∈ stamps x.content, w = v := by
  show (⟨v, x.content⟩ : Versioned α) = ⟨v, stamp v x.content⟩ ↔ _
  rw [mk.injEq, eq_comm (a := x.content), stamp_eq_self]
  simp

theorem setVersionEach_eq_stamp_iff {f : α → UInt8 → α} {x : Versioned (Omap κ α)} {v : UInt8} :
    x.setVersionEach f v = stamp v x ↔ ∀ e ∈ x.content.values, f e v = stamp v e := by
  show (⟨v, x.content.map fun _ e => f e v⟩ : Versioned (Omap κ α)) = ⟨v, stamp v x.content⟩ ↔ _
  rw [mk.injEq, map_eq_stamp_iff]
  simp

end Versioned

/-! ## The objects, as they are stored -/

namespace Stored

instance : Stamped UInt8 RoflCommon.Cofaction := plain

instance : Stamped UInt8 CofbucketCounter := plain

instance : Stamped UInt8 MeterBand := plain

instance : Stamped UInt8 Cofmatch where
  stamps m := [m.ofVersion]
  reads m := [m.ofVersion]
  stamp v m := { m with ofVersion := v }
  reads_subset _ := List.Subset.refl _
  stamp_stamp _ _ _ := rfl
  stamp_eq_self v m := by
    cases m
    simp [eq_comm]

/-- `cofactions`: `length()` and `pack()` go by the versions of the actions. -/
structure Cofactions where
  ofpVersion : UInt8
  actions : Omap ℕ (Versioned RoflCommon.Cofaction)

namespace Cofactions

instance : Stamped UInt8 Cofactions where
  stamps x := x.ofpVersion :: stamps x.actions
  reads x := reads x.actions
  stamp v x := ⟨v, stamp v x.actions⟩
  reads_subset x := List.subset_cons_of_subset _ (reads_subset x.actions)
  stamp_stamp v w x := by rw [stamp_stamp]
  stamp_eq_self v x := by
    obtain ⟨own, actions⟩ := x
    show (⟨v, stamp v actions⟩ : Cofactions) = ⟨own, actions⟩ ↔ ∀ w ∈ own :: stamps actions, w = v
    rw [mk.injEq, List.forall_mem_cons, stamp_eq_self, eq_comm (a := v)]

def setVersion (x : Cofactions) (v : UInt8) : Cofactions := ⟨v, x.actions.map fun _ a => a.setVersion v⟩

/-- The walk over the actions reaches all there is. -/
theorem setVersion_eq_stamp (x : Cofactions) (v : UInt8) : x.setVersion v = stamp v x := rfl

end Cofactions

/-- The instructions with a list of actions contain its versions. -/
instance : Stamped UInt8 (Cofinstruction Cofactions) where
  stamps i := i.actions?.toList.flatMap stamps
  reads i := i.actions?.toList.flatMap reads
  stamp v i := i.map (stamp v)
  reads_subset i := by
    cases i <;> simp [Cofinstruction.actions?, reads_subset]
  stamp_stamp v w i := by
    cases i <;> simp [Cofinstruction.map, stamp_stamp]
  stamp_eq_self v i := by
    cases i <;> simp [Cofinstruction.map, Cofinstruction.actions?, stamp_eq_self]

/-- `cofinstructions`: `length()` and `pack()` go by the versions of the instructions. The
`set_version` of an instruction is that of its base class. -/
structure Cofinstructions where
  ofpVersion : UInt8
  instmap : Omap ℕ (Versioned (Cofinstruction Cofactions))

namespace Cofinstructions

instance : Stamped UInt8 Cofinstructions where
  stamps x := x.ofpVersion :: stamps x.instmap
  reads x := reads x.instmap
  stamp v x := ⟨v, stamp v x.instmap⟩
  reads_subset x := List.subset_cons_of_subset _ (reads_subset x.instmap)
  stamp_stamp v w x := by rw [stamp_stamp]
  stamp_eq_self v x := by
    obtain ⟨own, instmap⟩ := x
    show (⟨v, stamp v instmap⟩ : Cofinstructions) = ⟨own, instmap⟩ ↔ ∀ w ∈ own :: stamps instmap, w = v
    rw [mk.injEq, List.forall_mem_cons, stamp_eq_self, eq_comm (a := v)]

def setVersion (x : Cofinstructions) (v : UInt8) : Cofinstructions :=
  ⟨v, x.instmap.map fun _ i => i.setVersion v⟩

/-- The versions in the lists of actions of the instructions. -/
def unreached (x : Cofinstructions) : List UInt8 := x.instmap.values.flatMap fun i => stamps i.content

theorem setVersion_eq_stamp_iff {x : Cofinstructions} {v : UInt8} :
    x.setVersion v = stamp v x ↔ ∀ w ∈ x.unreached, w = v := by
  show (⟨v, x.instmap.map fun _ i => i.setVersion v⟩ : Cofinstructions) = ⟨v, stamp v x.instmap⟩ ↔ _
  rw [mk.injEq, map_eq_stamp_iff]
  simp only [true_and, Versioned.setVersion_eq_stamp_iff, unreached, List.mem_flatMap]
  constructor
  · intro h w hw
    obtain ⟨i, hi, hwi⟩ := hw
    exact h i hi w hwi
  · intro h i hi w hw
    exact h w ⟨i, hi, hw⟩

end Cofinstructions

/-! ## Flow statistics -/

structure CofflowStatsReply where
  ofVersion : UInt8
  tableId : UInt8
  durationSec : UInt32
  durationNsec : UInt32
  priority : UInt16
  idleTimeout : UInt16
  hardTimeout : UInt16
  flags : UInt16
  cookie : UInt64
  packetCount : UInt64
  byteCount : UInt64
  cofmatch : Cofmatch
  actions : Cofactions
  instructions : Cofinstructions

namespace CofflowStatsReply

/-- Version 1.0 packs the actions, the others the instructions. -/
instance : Stamped UInt8 CofflowStatsReply where
  stamps r := r.ofVersion :: stamps r.cofmatch ++ stamps r.actions ++ stamps r.instructions
  reads r := r.ofVersion :: reads r.cofmatch ++
    if r.ofVersion = Openflow10.OFP_VERSION then reads r.actions else reads r.instructions
  stamp v r :=
    { r with
      ofVersion := v
      cofmatch := stamp v r.cofmatch
      actions := stamp v r.actions
      instructions := stamp v r.instructions }
  reads_subset r := by
    intro w hw
    split at hw
    · have hactions := @reads_subset UInt8 Cofactions _ r.actions w
      have hmatch := @reads_subset UInt8 Cofmatch _ r.cofmatch w
      simp only [List.cons_append, List.mem_cons, List.mem_append] at hw ⊢
      tauto
    · have hinstructions := @reads_subset UInt8 Cofinstructions _ r.instructions w
      have hmatch := @reads_subset UInt8 Cofmatch _ r.cofmatch w
      simp only [List.cons_append, List.mem_cons, List.mem_append] at hw ⊢
      tauto
  stamp_stamp v w r := by simp only [stamp_stamp]
  stamp_eq_self v r := by
    cases r
    simp only [mk.injEq, true_and, List.cons_append, List.forall_mem_cons, List.forall_mem_append, stamp_eq_self,
      eq_comm (a := v), and_assoc]

def setVersion (r : CofflowStatsReply) (v : UInt8) : CofflowStatsReply :=
  { r with
    actions := r.actions.setVersion v
    instructions := r.instructions.setVersion v
    cofmatch := { r.cofmatch with ofVersion := v }
    ofVersion := v }

theorem setVersion_eq_stamp_iff {r : CofflowStatsReply} {v : UInt8} :
    r.setVersion v = stamp v r ↔ ∀ w ∈ r.instructions.unreached, w = v := by
  rw [← Cofinstructions.setVersion_eq_stamp_iff]
  cases r
  show mk .. = mk .. ↔ _
  simp only [mk.injEq, true_and]
  constructor
  · intro h
    exact h.2.2
  · intro h
    exact ⟨rfl, rfl, h⟩

end CofflowStatsReply

/-! ## Group statistics -/

structure Cofbucket where
  ofpVersion : UInt8
  packetCount : UInt64
  byteCount : UInt64
  weight : UInt16
  watchPort : UInt32
  watchGroup : UInt32
  actions : Cofactions

instance : Stamped UInt8 Cofbucket where
  stamps b := b.ofpVersion :: stamps b.actions
  reads b := b.ofpVersion :: reads b.actions
  stamp v b := { b with ofpVersion := v, actions := stamp v b.actions }
  reads_subset b := List.cons_subset_cons _ (reads_subset b.actions)
  stamp_stamp v w b := by simp only [stamp_stamp]
  stamp_eq_self v b := by
    cases b
    simp only [Cofbucket.mk.injEq, true_and, List.forall_mem_cons, stamp_eq_self, eq_comm (a := v)]

structure CofgroupDescStatsReply where
  ofVersion : UInt8
  type : UInt8
  groupId : UInt32
  buckets : Versioned (Omap ℕ Cofbucket)

namespace CofgroupDescStatsReply

instance : Stamped UInt8 CofgroupDescStatsReply where
  stamps r := r.ofVersion :: stamps r.buckets
  reads r := r.ofVersion :: reads r.buckets
  stamp v r := { r with ofVersion := v, buckets := stamp v r.buckets }
  reads_subset r := List.cons_subset_cons _ (reads_subset r.buckets)
  stamp_stamp v w r := by simp only [stamp_stamp]
  stamp_eq_self v r := by
    cases r
    simp only [mk.injEq, true_and, List.forall_mem_cons, stamp_eq_self, eq_comm (a := v)]

def setVersion (r : CofgroupDescStatsReply) (v : UInt8) : CofgroupDescStatsReply :=
  { r with ofVersion := v, buckets := r.buckets.setVersion v }

end CofgroupDescStatsReply

structure CofgroupStatsReply where
  ofVersion : UInt8
  groupId : UInt32
  refCount : UInt32
  packetCount : UInt64
  byteCount : UInt64
  durationSec : UInt32
  durationNsec : UInt32
  bucketCounters : Versioned (Omap ℕ (Versioned CofbucketCounter))

namespace CofgroupStatsReply

instance : Stamped UInt8 CofgroupStatsReply where
  stamps r := r.ofVersion :: stamps r.bucketCounters
  reads r := r.ofVersion :: reads r.bucketCounters
  stamp v r := { r with ofVersion := v, bucketCounters := stamp v r.bucketCounters }
  reads_subset r := List.cons_subset_cons _ (reads_subset r.bucketCounters)
  stamp_stamp v w r := by simp only [stamp_stamp]
  stamp_eq_self v r := by
    cases r
    simp only [mk.injEq, true_and, List.forall_mem_cons, stamp_eq_self, eq_comm (a := v)]

/-- The constructor, as `add_group_stats` calls it. -/
def new (v : UInt8) : CofgroupStatsReply := ⟨v, Openflow.OFPG_ALL, 0, 0, 0, 0, 0, ⟨v, .empty⟩⟩

def setVersion (r : CofgroupStatsReply) (v : UInt8) : CofgroupStatsReply :=
  { r with ofVersion := v, bucketCounters := r.bucketCounters.setVersion v }

end CofgroupStatsReply

/-! ## Meters -/

structure CofmeterBandStats where
  packetBandCount : UInt64
  byteBandCount : UInt64

instance : Stamped UInt8 CofmeterBandStats := plain

structure CofmeterStatsReply where
  ofVersion : UInt8
  meterId : UInt32
  flowCount : UInt32
  packetInCount : UInt64
  byteInCount : UInt64
  durationSec : UInt32
  durationNsec : UInt32
  mbstats : Versioned (Omap ℕ (Versioned CofmeterBandStats))

namespace CofmeterStatsReply

instance : Stamped UInt8 CofmeterStatsReply where
  stamps r := r.ofVersion :: stamps r.mbstats
  reads r := r.ofVersion :: reads r.mbstats
  stamp v r := { r with ofVersion := v, mbstats := stamp v r.mbstats }
  reads_subset r := List.cons_subset_cons _ (reads_subset r.mbstats)
  stamp_stamp v w r := by simp only [stamp_stamp]
  stamp_eq_self v r := by
    cases r
    simp only [mk.injEq, true_and, List.forall_mem_cons, stamp_eq_self, eq_comm (a := v)]

/-- The entries for the bands are not visited. -/
def setVersion (r : CofmeterStatsReply) (v : UInt8) : CofmeterStatsReply := { r with ofVersion := v }

end CofmeterStatsReply

structure CofmeterBands where
  ofVersion : UInt8
  mbsDrop : Omap ℕ (Versioned MeterBand)
  mbsDscpRemark : Omap ℕ (Versioned MeterBand)
  mbsExperimenter : Omap ℕ (Versioned MeterBand)

instance : Stamped UInt8 CofmeterBands where
  stamps x := x.ofVersion :: stamps x.mbsDrop ++ stamps x.mbsDscpRemark ++ stamps x.mbsExperimenter
  reads x := x.ofVersion :: stamps x.mbsDrop ++ stamps x.mbsDscpRemark ++ stamps x.mbsExperimenter
  stamp v x := ⟨v, stamp v x.mbsDrop, stamp v x.mbsDscpRemark, stamp v x.mbsExperimenter⟩
  reads_subset _ := List.Subset.refl _
  stamp_stamp v w x := by simp only [stamp_stamp]
  stamp_eq_self v x := by
    cases x
    simp only [CofmeterBands.mk.injEq, List.cons_append, List.forall_mem_cons, List.forall_mem_append, stamp_eq_self,
      eq_comm (a := v), and_assoc]

structure CofmeterConfigReply where
  ofVersion : UInt8
  flags : UInt16
  meterId : UInt32
  mbands : CofmeterBands

namespace CofmeterConfigReply

instance : Stamped UInt8 CofmeterConfigReply where
  stamps r := r.ofVersion :: stamps r.mbands
  reads r := r.ofVersion :: reads r.mbands
  stamp v r := { r with ofVersion := v, mbands := stamp v r.mbands }
  reads_subset r := List.cons_subset_cons _ (reads_subset r.mbands)
  stamp_stamp v w r := by simp only [stamp_stamp]
  stamp_eq_self v r := by
    cases r
    simp only [mk.injEq, true_and, List.forall_mem_cons, stamp_eq_self, eq_comm (a := v)]

/-- The bands are not visited. -/
def setVersion (r : CofmeterConfigReply) (v : UInt8) : CofmeterConfigReply := { r with ofVersion := v }

theorem setVersion_eq_stamp_iff {r : CofmeterConfigReply} {v : UInt8} :
    r.setVersion v = stamp v r ↔ ∀ w ∈ stamps r.mbands, w = v := by
  rw [← stamp_eq_self]
  cases r
  show mk .. = mk .. ↔ _
  simp only [mk.injEq, true_and, eq_comm]

end CofmeterConfigReply

/-! ## Arrays -/

abbrev Cofflowstatsarray := Versioned (Omap ℕ CofflowStatsReply)

namespace Cofflowstatsarray

def setVersion (x : Cofflowstatsarray) (v : UInt8) : Cofflowstatsarray :=
  x.setVersionEach CofflowStatsReply.setVersion v

/-- The versions of the actions in the instructions of the entries. -/
def unreached (x : Cofflowstatsarray) : List UInt8 := x.content.values.flatMap fun r => r.instructions.unreached

theorem setVersion_eq_stamp_iff {x : Cofflowstatsarray} {v : UInt8} :
    setVersion x v = stamp v x ↔ ∀ w ∈ unreached x, w = v := by
  unfold setVersion unreached
  rw [Versioned.setVersionEach_eq_stamp_iff, List.forall_mem_flatMap]
  simp only [CofflowStatsReply.setVersion_eq_stamp_iff]

end Cofflowstatsarray

abbrev Cofmeterconfigarray := Versioned (Omap ℕ CofmeterConfigReply)

namespace Cofmeterconfigarray

def setVersion (x : Cofmeterconfigarray) (v : UInt8) : Cofmeterconfigarray :=
  x.setVersionEach CofmeterConfigReply.setVersion v

/-- The versions in the bands of the entries. -/
def unreached (x : Cofmeterconfigarray) : List UInt8 := x.content.values.flatMap fun r => stamps r.mbands

theorem setVersion_eq_stamp_iff {x : Cofmeterconfigarray} {v : UInt8} :
    setVersion x v = stamp v x ↔ ∀ w ∈ unreached x, w = v := by
  unfold setVersion unreached
  rw [Versioned.setVersionEach_eq_stamp_iff, List.forall_mem_flatMap]
  simp only [CofmeterConfigReply.setVersion_eq_stamp_iff]

end Cofmeterconfigarray

abbrev Cofgroupdescstatsarray := Versioned (Omap ℕ CofgroupDescStatsReply)

def Cofgroupdescstatsarray.setVersion (x : Cofgroupdescstatsarray) (v : UInt8) : Cofgroupdescstatsarray :=
  x.setVersionOfCopies CofgroupDescStatsReply.setVersion v

abbrev Cofgroupstatsarray := Versioned (Omap ℕ CofgroupStatsReply)

namespace Cofgroupstatsarray

def setVersion (x : Cofgroupstatsarray) (v : UInt8) : Cofgroupstatsarray :=
  x.setVersionOfCopies CofgroupStatsReply.setVersion v

def addGroupStats (x : Cofgroupstatsarray) (groupId : ℕ) : Cofgroupstatsarray :=
  { x with content := x.content.insert groupId (.new x.ofpVersion) }

end Cofgroupstatsarray

abbrev Cofmeterstatsarray := Versioned (Omap ℕ CofmeterStatsReply)

def Cofmeterstatsarray.setVersion (x : Cofmeterstatsarray) (v : UInt8) : Cofmeterstatsarray :=
  x.setVersionOfCopies CofmeterStatsReply.setVersion v

theorem setVersionOfCopies_eq_stamp_iff {α : Type} [Stamped UInt8 α] {f : α → UInt8 → α}
    {x : Versioned (Omap ℕ α)} {v : UInt8} :
    x.setVersionOfCopies f v = stamp v x ↔ ∀ w ∈ stamps x.content, w = v := by
  rw [Versioned.setVersionOfCopies_eq, Versioned.setVersion_eq_stamp_iff]

/-- `y` is `x` after its version was set to `v`: the array, its entries and all they contain
report `v`, nothing else has changed, and `length()` and `pack()` go by `v` alone. -/
structure Reaches {α : Type} [Stamped UInt8 α] (v : UInt8) (x y : α) : Prop where
  reports : ∀ w ∈ stamps y, w = v
  unchanged : SameBut (V := UInt8) x y
  oneVersion : ∀ w ∈ reads y, w = v

theorem reaches_iff_eq_stamp {α : Type} [Stamped UInt8 α] {v : UInt8} {x y : α} : Reaches v x y ↔ y = stamp v x := by
  rw [eq_stamp_iff]
  constructor
  · intro h
    exact ⟨h.reports, h.unchanged⟩
  · intro h
    obtain ⟨hall, hsame⟩ := h
    exact ⟨hall, hsame, fun w hw => hall w (reads_subset y hw)⟩

/-- The version reaches all there is exactly if what is not visited had it before: the actions in
the instructions of flow entries, the bands of meters, and the whole entries of the other three. -/
theorem setVersion_reaches_iff (v : UInt8) (flows : Cofflowstatsarray) (groupDescs : Cofgroupdescstatsarray)
    (groups : Cofgroupstatsarray) (meters : Cofmeterstatsarray) (configs : Cofmeterconfigarray) :
    (Reaches v flows (Cofflowstatsarray.setVersion flows v) ↔ ∀ w ∈ Cofflowstatsarray.unreached flows, w = v) ∧
    (Reaches v groupDescs (Cofgroupdescstatsarray.setVersion groupDescs v) ↔
      ∀ w ∈ stamps groupDescs.content, w = v) ∧
    (Reaches v groups (Cofgroupstatsarray.setVersion groups v) ↔ ∀ w ∈ stamps groups.content, w = v) ∧
    (Reaches v meters (Cofmeterstatsarray.setVersion meters v) ↔ ∀ w ∈ stamps meters.content, w = v) ∧
    (Reaches v configs (Cofmeterconfigarray.setVersion configs v) ↔
      ∀ w ∈ Cofmeterconfigarray.unreached configs, w = v) := by
  simp only [reaches_iff_eq_stamp]
  exact ⟨Cofflowstatsarray.setVersion_eq_stamp_iff, setVersionOfCopies_eq_stamp_iff, setVersionOfCopies_eq_stamp_iff,
    setVersionOfCopies_eq_stamp_iff, Cofmeterconfigarray.setVersion_eq_stamp_iff⟩

/-- One group of version 1.2. -/
def Cofgroupstatsarray.single : Cofgroupstatsarray :=
  Cofgroupstatsarray.addGroupStats ⟨Openflow12.OFP_VERSION, .empty⟩ 1

/-- Set to 1.3, the array packs its entry as one of 1.2. -/
theorem single_keeps_version :
    Openflow12.OFP_VERSION ∈ reads (Cofgroupstatsarray.setVersion .single Openflow13.OFP_VERSION) ∧
    ¬ Reaches Openflow13.OFP_VERSION Cofgroupstatsarray.single
      (Cofgroupstatsarray.setVersion .single Openflow13.OFP_VERSION) := by
  have hmem : Openflow12.OFP_VERSION ∈ reads (Cofgroupstatsarray.setVersion .single Openflow13.OFP_VERSION) := by
    decide
  exact ⟨hmem, fun h => absurd (h.oneVersion _ hmem) (by decide)⟩

end Stored

end RoflCommon
