/-
`coxmatches`: OXMs by class and field, in ascending order of their keys.

Every field has an `add_` function, which makes a new object under the key of
the field, and a `set_` function, which makes one only where there is none and
hands out the object for its setters. `unpack` walks a list of TLVs and has the
object that the matching `add_` function makes read the TLV; what it does not
know it skips.
-/
import RoflCommon.Openflow.Coxmatch
import RoflCommon.Lib.Omap
import RoflCommon.Lib.Tlv

namespace RoflCommon

open Octets

/-! ## The fields -/

/-- The fields of `OFPXMC_OPENFLOW_BASIC`. -/
inductive OfbField
  | inPort | inPhyPort | metadata | ethDst | ethSrc | ethType | vlanVid | vlanPcp | ipDscp | ipEcn
  | ipProto | ipv4Src | ipv4Dst | tcpSrc | tcpDst | udpSrc | udpDst | sctpSrc | sctpDst
  | icmpv4Type | icmpv4Code | arpOp | arpSpa | arpTpa | arpSha | arpTha | ipv6Src | ipv6Dst
  | ipv6Flabel | icmpv6Type | icmpv6Code | ipv6NdTarget | ipv6NdSll | ipv6NdTll | mplsLabel
  | mplsTc | mplsBos | pbbIsid | tunnelId | ipv6Exthdr
deriving DecidableEq, Repr

namespace OfbField

def all : List OfbField :=
  [inPort, inPhyPort, metadata, ethDst, ethSrc, ethType, vlanVid, vlanPcp, ipDscp, ipEcn, ipProto,
   ipv4Src, ipv4Dst, tcpSrc, tcpDst, udpSrc, udpDst, sctpSrc, sctpDst, icmpv4Type, icmpv4Code,
   arpOp, arpSpa, arpTpa, arpSha, arpTha, ipv6Src, ipv6Dst, ipv6Flabel, icmpv6Type, icmpv6Code,
   ipv6NdTarget, ipv6NdSll, ipv6NdTll, mplsLabel, mplsTc, mplsBos, pbbIsid, tunnelId, ipv6Exthdr]

def code : OfbField → OxmField
  | inPort => 0 | inPhyPort => 1 | metadata => 2 | ethDst => 3 | ethSrc => 4 | ethType => 5
  | vlanVid => 6 | vlanPcp => 7 | ipDscp => 8 | ipEcn => 9 | ipProto => 10 | ipv4Src => 11
  | ipv4Dst => 12 | tcpSrc => 13 | tcpDst => 14 | udpSrc => 15 | udpDst => 16 | sctpSrc => 17
  | sctpDst => 18 | icmpv4Type => 19 | icmpv4Code => 20 | arpOp => 21 | arpSpa => 22 | arpTpa => 23
  | arpSha => 24 | arpTha => 25 | ipv6Src => 26 | ipv6Dst => 27 | ipv6Flabel => 28
  | icmpv6Type => 29 | icmpv6Code => 30 | ipv6NdTarget => 31 | ipv6NdSll => 32 | ipv6NdTll => 33
  | mplsLabel => 34 | mplsTc => 35 | mplsBos => 36 | pbbIsid => 37 | tunnelId => 38
  | ipv6Exthdr => 39

/-- The class the class of the field derives from. -/
def width : OfbField → OxmWidth
  | vlanPcp | ipDscp | ipEcn | ipProto | icmpv4Type | icmpv4Code | icmpv6Type | icmpv6Code | mplsTc
  | mplsBos => .u8
  | ethType | vlanVid | tcpSrc | tcpDst | udpSrc | udpDst | sctpSrc | sctpDst | arpOp | ipv6Exthdr => .u16
  | pbbIsid => .u24
  | inPort | inPhyPort | ipv4Src | ipv4Dst | arpSpa | arpTpa | ipv6Flabel | mplsLabel => .u32
  | ethDst | ethSrc | arpSha | arpTha | ipv6NdSll | ipv6NdTll => .u48
  | metadata | tunnelId => .u64
  | ipv6Src | ipv6Dst | ipv6NdTarget => .u128

/-- The length in the `OXM_TLV_BASIC_` constants, which is that of the class but for
`IPV6_EXTHDR`. -/
def length : OfbField → ℕ
  | ipv6Exthdr => 4
  | f => f.width.octets

/-- `OXM_TLV_BASIC_IN_PORT` to `OXM_TLV_BASIC_IPV6_EXTHDR`. -/
def oxmId (f : OfbField) : OxmId := ⟨Openflow.OFPXMC_OPENFLOW_BASIC, f.code, false, UInt8.ofNat f.length⟩

/-- `OXM_TLV_BASIC_METADATA_MASK` to `OXM_TLV_BASIC_IPV6_EXTHDR_MASK`. -/
def oxmIdMask (f : OfbField) : OxmId := ⟨Openflow.OFPXMC_OPENFLOW_BASIC, f.code, true, UInt8.ofNat (2 * f.length)⟩

/-- `OXM_ROFL_OFB_TYPE`. -/
def key (f : OfbField) : ℕ := f.oxmId.type

/-- The constructors. -/
def new (f : OfbField) (v : ℕ) : Coxmatch := ⟨f.oxmId, .fixed f.width (f.width.arg v) f.width.ones⟩

def newMask (f : OfbField) (v m : ℕ) : Coxmatch := ⟨f.oxmIdMask, .fixed f.width (f.width.arg v) (f.width.arg m)⟩

/-- The switch over the keys. -/
def ofKey (k : ℕ) : Option OfbField := all.find? fun f => f.key == k

@[simp] theorem ofKey_key (f : OfbField) : ofKey f.key = some f := by cases f <;> decide +kernel

theorem key_of_ofKey {f : OfbField} {k : ℕ} (h : ofKey k = some f) : f.key = k := by
  simpa using List.find?_some h

theorem key_inj {f g : OfbField} (h : f.key = g.key) : f = g := by
  have hf := ofKey_key f
  rw [h, ofKey_key] at hf
  cases hf
  rfl

end OfbField

/-- The experimenter fields that stand for the parts of an OpenFlow 1.0 match. -/
inductive OfxField
  | nwSrc | nwDst | nwProto | nwTos | tpSrc | tpDst
deriving DecidableEq, Repr

def ROFL_EXP_ID : UInt32 := 0xa1a2a3a4

/-- `OXM_EXPR_OFX_TYPE`. -/
def expKey (expId : UInt32) (id : OxmId) : ℕ := expId.toNat * 4294967296 + id.type

namespace OfxField

def all : List OfxField := [nwSrc, nwDst, nwProto, nwTos, tpSrc, tpDst]

def code : OfxField → OxmField
  | nwSrc => 0
  | nwDst => 1
  | nwProto => 2
  | nwTos => 3
  | tpSrc => 4
  | tpDst => 5

/-- The octets of the value, which is also the length in the `OXM_TLV_EXPR_` constants:
they do not count the experimenter id. -/
def length : OfxField → ℕ
  | nwSrc | nwDst => 4
  | nwProto | nwTos => 1
  | tpSrc | tpDst => 2

def oxmId (f : OfxField) : OxmId := ⟨Openflow.OFPXMC_EXPERIMENTER, f.code, false, UInt8.ofNat f.length⟩

def oxmIdMask (f : OfxField) : OxmId := ⟨Openflow.OFPXMC_EXPERIMENTER, f.code, true, UInt8.ofNat (2 * f.length)⟩

/-- `OXM_ROFL_OFX_TYPE`. -/
def key (f : OfxField) : ℕ := expKey ROFL_EXP_ID f.oxmId

/-- The default constructors: no value, and the length of the constant. -/
def bare (f : OfxField) : Coxmatch := ⟨f.oxmId, .exp ROFL_EXP_ID [] []⟩

/-- The constructors the `add_` functions call: `nw_src` and `nw_dst` always with a mask,
which is zero by default. -/
def new (f : OfxField) (v m : ℕ) : Coxmatch :=
  match f with
  | nwSrc | nwDst => (Coxmatch.setExpValue ⟨f.oxmIdMask, .exp ROFL_EXP_ID [] []⟩ (octets 4 v)).setExpMask (octets 4 m)
  | f => f.bare.setExpValue (octets f.length v)

theorem new_eq (f : OfxField) (v m : ℕ) : ∃ id value mask, f.new v m = ⟨id, .exp ROFL_EXP_ID value mask⟩ := by
  cases f <;> exact ⟨_, _, _, rfl⟩

def ofKey (k : ℕ) : Option OfxField := all.find? fun f => f.key == k

@[simp] theorem ofKey_key (f : OfxField) : ofKey f.key = some f := by cases f <;> decide +kernel

theorem key_of_ofKey {f : OfxField} {k : ℕ} (h : ofKey k = some f) : f.key = k := by
  simpa using List.find?_some h

theorem key_inj {f g : OfxField} (h : f.key = g.key) : f = g := by
  have hf := ofKey_key f
  rw [h, ofKey_key] at hf
  cases hf
  rfl

end OfxField

/-- `coxmatch_exp`, as `add_exp_match` makes it. -/
def expMatch (expId : UInt32) (id : OxmId) : Coxmatch := ⟨id, .exp expId [] []⟩

/-! ## The map -/

abbrev Coxmatches := Omap ℕ Coxmatch

namespace Coxmatches

/-- The functions of `coxmatches` for the fields above, and the setters of the objects
that `set_` functions hand out. -/
inductive Op
  | addOfb (f : OfbField) (v : ℕ)
  | addOfbMask (f : OfbField) (v m : ℕ)
  | setOfb (f : OfbField)
  | setOfbValue (f : OfbField) (v : ℕ)
  | setOfbMask (f : OfbField) (m : ℕ)
  | dropOfb (f : OfbField)
  | addOfx (f : OfxField) (v m : ℕ)
  | setOfx (f : OfxField)
  | setOfxValue (f : OfxField) (value : List UInt8)
  | setOfxMask (f : OfxField) (mask : List UInt8)
  | dropOfx (f : OfxField)
  | clear

/-- `set_ofb_` and `set_ofx_`, and a setter on what they return. -/
def set (x : Coxmatches) (k : ℕ) (new : Coxmatch) (setter : Coxmatch → Coxmatch) : Coxmatches :=
  x.insert k (setter ((x.find? k).getD new))

def apply (x : Coxmatches) : Op → Coxmatches
  | .addOfb f v => x.insert f.key (f.new v)
  | .addOfbMask f v m => x.insert f.key (f.newMask v m)
  | .setOfb f => x.set f.key (f.new 0) id
  | .setOfbValue f v => x.set f.key (f.new 0) (·.setValue v)
  | .setOfbMask f m => x.set f.key (f.new 0) (·.setMask m)
  | .dropOfb f => x.erase f.key
  | .addOfx f v m => x.insert f.key (f.new v m)
  | .setOfx f => x.set f.key f.bare id
  | .setOfxValue f value => x.set f.key f.bare (·.setExpValue value)
  | .setOfxMask f mask => x.set f.key f.bare (·.setExpMask mask)
  | .dropOfx f => x.erase f.key
  | .clear => .empty

/-- What the calls make of an empty object. -/
def run (ops : List Op) : Coxmatches := ops.foldl apply .empty

/-! ## Packing -/

/-- The sum of the lengths. -/
def lengths : List (ℕ × Coxmatch) → Except MatchException ℕ
  | [] => .ok 0
  | e :: es => do return (← e.2.length) + (← lengths es)

def length (x : Coxmatches) : Except MatchException ℕ := lengths x.entries

/-- The loop of `pack`: each OXM is handed as many octets as it is long. -/
def packs : List (ℕ × Coxmatch) → List UInt8 → Except MatchException (List UInt8)
  | [], buf => .ok buf
  | e :: es, buf => do
    let n ← e.2.length
    let (_, octets) ← e.2.pack (buf.take n)
    return octets ++ (← packs es (buf.drop n))

/-- The buffer, and the OXMs with the lengths that packing sets. -/
def pack (x : Coxmatches) (buf : List UInt8) : Except MatchException (Coxmatches × List UInt8) := do
  let n ← x.length
  if buf.length < n then throw .badMatchBadLen
  else return (x.map fun _ o => o.packed, ← packs x.entries buf)

/-! ## Unpacking -/

/-- The switches: the object that is added for a TLV, and its key. -/
def added (id : OxmId) (expId : UInt32) : Option (ℕ × Coxmatch) :=
  if id.oxmClass = Openflow.OFPXMC_OPENFLOW_BASIC then
    (OfbField.ofKey id.type).map fun f => (f.key, f.new 0)
  else if id.oxmClass = Openflow.OFPXMC_EXPERIMENTER then
    match OfxField.ofKey (expKey expId id) with
    | some f => some (f.key, f.new 0 0)
    | none => some (expKey expId id, expMatch expId id)
  else none

/-- The turn of the loop, up to the step to the next TLV. -/
def readOxm (x : Coxmatches) (buf : List UInt8) : Except MatchException Coxmatches :=
  let id := OxmId.ofOctets buf
  if id.oxmClass = Openflow.OFPXMC_EXPERIMENTER ∧ buf.length < 8 then .error .oxmBadLen
  else
    match added id (UInt32.ofNat (number ((buf.drop 4).take 4))) with
    | none => .ok x
    | some (k, o) => do return x.insert k (← o.unpack buf)

theorem oxmHeader_pos : 0 < 4 := by decide

def walker : Tlv.Walker UInt8 Coxmatches MatchException where
  header := 4
  header_pos := oxmHeader_pos
  size buf := 4 + (OxmId.ofOctets buf).oxmLength.toNat
  header_le _ := Nat.le_add_right _ _
  read := readOxm

def unpack (buf : List UInt8) : Except MatchException Coxmatches := walker.walk .empty buf

/-! ## Access -/

/-- `has_ofb_`. -/
def has (x : Coxmatches) (f : OfbField) : Bool := (x.find? f.key).isSome

/-- `has_ofx_`. -/
def hasOfx (x : Coxmatches) (f : OfxField) : Bool := (x.find? f.key).isSome

/-- `get_ofb_`, and the value of what it returns. The object is cast to the class of
the field. -/
def getValue (x : Coxmatches) (f : OfbField) : Except MatchException ℕ :=
  match x.find? f.key with
  | none => .error .oxmInval
  | some o =>
    match o.body with
    | .fixed w value _ => if w = f.width then .ok value else .error .badCast
    | .exp .. => .error .badCast

/-- `get_ofx_`. -/
def getOfx (x : Coxmatches) (f : OfxField) : Except MatchException Coxmatch :=
  match x.find? f.key with
  | none => .error .oxmInval
  | some o =>
    match o.body with
    | .fixed .. => .error .badCast
    | .exp .. => .ok o

/-! ## The keys -/

theorem key_lt (f : OfbField) : f.key < 4294967296 := by cases f <;> decide

theorem ofx_key_ge (f : OfxField) : 4294967296 ≤ f.key := by cases f <;> decide +kernel

theorem key_ne_ofx (f : OfbField) (g : OfxField) : f.key ≠ g.key := by
  have hlt := key_lt f
  have hge := ofx_key_ge g
  omega

/-- The class is part of the key. -/
theorem key_ne_expKey (f : OfbField) {id : OxmId} (hclass : id.oxmClass = Openflow.OFPXMC_EXPERIMENTER)
    (expId : UInt32) : f.key ≠ expKey expId id := by
  have hlt := key_lt f
  have hcode := f.code.isLt
  have hfield := id.oxmField.isLt
  intro h
  simp only [OfbField.key, OfbField.oxmId, expKey, OxmId.type, hclass] at h hlt
  rw [show Openflow.OFPXMC_OPENFLOW_BASIC.toNat = 0x8000 from rfl] at h hlt
  rw [show Openflow.OFPXMC_EXPERIMENTER.toNat = 0xffff from rfl] at h
  omega

@[simp] theorem ofb_key_eq {f g : OfbField} : f.key = g.key ↔ f = g := ⟨OfbField.key_inj, fun h => h ▸ rfl⟩

@[simp] theorem ofx_key_eq {f g : OfxField} : f.key = g.key ↔ f = g := ⟨OfxField.key_inj, fun h => h ▸ rfl⟩

@[simp] theorem ofb_key_eq_ofx {f : OfbField} {g : OfxField} : ¬ f.key = g.key := key_ne_ofx f g

@[simp] theorem ofx_key_eq_ofb {f : OfbField} {g : OfxField} : ¬ g.key = f.key := (key_ne_ofx f g).symm

theorem ofKey_ofx (f : OfxField) : OfbField.ofKey f.key = none := by
  cases h : OfbField.ofKey f.key with
  | none => rfl
  | some g => exact absurd (OfbField.key_of_ofKey h) (key_ne_ofx g f)

theorem ofKey_expKey {oxmId : OxmId} (hclass : oxmId.oxmClass = Openflow.OFPXMC_EXPERIMENTER) (expId : UInt32) :
    OfbField.ofKey (expKey expId oxmId) = none := by
  cases h : OfbField.ofKey (expKey expId oxmId) with
  | none => rfl
  | some g => exact absurd (OfbField.key_of_ofKey h) (key_ne_expKey g hclass expId)

/-- The parts of a key. -/
theorem expKey_parts (expId : UInt32) (oxmId : OxmId) : expKey expId oxmId / 65536 % 65536 = oxmId.oxmClass.toNat ∧
    expKey expId oxmId / 4294967296 * 4294967296 + expKey expId oxmId % 4294967296 / 512 * 512 =
      expKey expId oxmId := by
  have hfield := oxmId.oxmField.isLt
  have hclass := oxmId.oxmClass.toNat_lt
  unfold expKey OxmId.type
  omega

/-! ## What the API builds -/

/-- An object and its key as the API leaves them: the class is that of the field, and a
mask that was never set is the one of the constructor. -/
inductive Entry : ℕ × Coxmatch → Prop
  | ofb (f : OfbField) {id : OxmId} {value mask : Fin f.width.capacity}
      (hclass : id.oxmClass = Openflow.OFPXMC_OPENFLOW_BASIC) (hfield : id.oxmField = f.code)
      (hmask : id.hasmask = false → mask = f.width.ones) : Entry (f.key, ⟨id, .fixed f.width value mask⟩)
  | ofx (f : OfxField) {id : OxmId} {value mask : List UInt8}
      (hclass : id.oxmClass = Openflow.OFPXMC_EXPERIMENTER) (hfield : id.oxmField = f.code)
      (hmask : id.hasmask = false → mask = []) : Entry (f.key, ⟨id, .exp ROFL_EXP_ID value mask⟩)

/-- What the API makes of an empty object. -/
def Built (x : Coxmatches) : Prop := ∃ ops, run ops = x

theorem entry_new (f : OfbField) (v : ℕ) : Entry (f.key, f.new v) := .ofb f rfl rfl fun _ => rfl

theorem entry_bare (f : OfxField) : Entry (f.key, f.bare) := .ofx f rfl rfl fun _ => rfl

theorem entry_ofx_new (f : OfxField) (v m : ℕ) : Entry (f.key, f.new v m) := by
  cases f
  case nwSrc => exact .ofx .nwSrc rfl rfl fun h => by cases h
  case nwDst => exact .ofx .nwDst rfl rfl fun h => by cases h
  case nwProto => exact .ofx .nwProto rfl rfl fun _ => rfl
  case nwTos => exact .ofx .nwTos rfl rfl fun _ => rfl
  case tpSrc => exact .ofx .tpSrc rfl rfl fun _ => rfl
  case tpDst => exact .ofx .tpDst rfl rfl fun _ => rfl

namespace Entry

variable {k : ℕ} {o : Coxmatch}

theorem setValue (h : Entry (k, o)) (v : ℕ) : Entry (k, o.setValue v) := by
  cases h with
  | ofb f hclass hfield hmask => exact .ofb f hclass hfield hmask
  | ofx f hclass hfield hmask => exact .ofx f hclass hfield hmask

theorem setMask (h : Entry (k, o)) (m : ℕ) : Entry (k, o.setMask m) := by
  cases h with
  | ofb f hclass hfield hmask => exact .ofb f hclass hfield fun h => by cases h
  | ofx f hclass hfield hmask => exact .ofx f hclass hfield hmask

theorem setExpValue (h : Entry (k, o)) (value : List UInt8) : Entry (k, o.setExpValue value) := by
  cases h with
  | ofb f hclass hfield hmask => exact .ofb f hclass hfield hmask
  | ofx f hclass hfield hmask => exact .ofx f hclass hfield hmask

theorem setExpMask (h : Entry (k, o)) (mask : List UInt8) : Entry (k, o.setExpMask mask) := by
  cases h with
  | ofb f hclass hfield hmask => exact .ofb f hclass hfield hmask
  | ofx f hclass hfield hmask => exact .ofx f hclass hfield fun h => by cases h

end Entry

theorem forall_entries_insert {x : Coxmatches} {k : ℕ} {o : Coxmatch} (h : ∀ e ∈ x.entries, Entry e)
    (ho : Entry (k, o)) : ∀ e ∈ (x.insert k o).entries, Entry e := by
  intro e he
  rcases Omap.mem_put he with rfl | he
  · exact ho
  · exact h e he

theorem forall_entries_set {x : Coxmatches} {k : ℕ} {new : Coxmatch} {setter : Coxmatch → Coxmatch}
    (h : ∀ e ∈ x.entries, Entry e) (hnew : Entry (k, new)) (hset : ∀ o, Entry (k, o) → Entry (k, setter o)) :
    ∀ e ∈ (x.set k new setter).entries, Entry e := by
  refine forall_entries_insert h (hset _ ?_)
  cases hfind : x.find? k with
  | none => exact hnew
  | some o => exact h _ (Omap.find?_eq_some.mp hfind)

theorem forall_entries_erase {x : Coxmatches} {k : ℕ} (h : ∀ e ∈ x.entries, Entry e) :
    ∀ e ∈ (x.erase k).entries, Entry e := fun e he => h e (List.mem_of_mem_filter he)

theorem forall_entries_apply {x : Coxmatches} (h : ∀ e ∈ x.entries, Entry e) (op : Op) :
    ∀ e ∈ (x.apply op).entries, Entry e := by
  cases op with
  | addOfb f v => exact forall_entries_insert h (entry_new f v)
  | addOfbMask f v m => exact forall_entries_insert h (.ofb f rfl rfl fun h => by cases h)
  | setOfb f => exact forall_entries_set h (entry_new f 0) fun _ ho => ho
  | setOfbValue f v => exact forall_entries_set h (entry_new f 0) fun _ ho => ho.setValue v
  | setOfbMask f m => exact forall_entries_set h (entry_new f 0) fun _ ho => ho.setMask m
  | dropOfb f => exact forall_entries_erase h
  | addOfx f v m => exact forall_entries_insert h (entry_ofx_new f v m)
  | setOfx f => exact forall_entries_set h (entry_bare f) fun _ ho => ho
  | setOfxValue f value => exact forall_entries_set h (entry_bare f) fun _ ho => ho.setExpValue value
  | setOfxMask f mask => exact forall_entries_set h (entry_bare f) fun _ ho => ho.setExpMask mask
  | dropOfx f => exact forall_entries_erase h
  | clear => exact fun e he => by cases he

theorem Built.entry {x : Coxmatches} (h : x.Built) : ∀ e ∈ x.entries, Entry e := by
  obtain ⟨ops, rfl⟩ := h
  have hrun : ∀ y : Coxmatches, (∀ e ∈ y.entries, Entry e) → ∀ e ∈ (ops.foldl apply y).entries, Entry e := by
    induction ops with
    | nil => exact fun y hy => hy
    | cons op ops ih => exact fun y hy => ih _ (forall_entries_apply hy op)
  exact hrun .empty fun e he => by cases he

/-! ## What `unpack` yields -/

/-- An object and its key as reading a TLV leaves them. -/
inductive FromWire : ℕ × Coxmatch → Prop
  | ofb (f : OfbField) {id : OxmId} {value mask : Fin f.width.capacity}
      (hclass : id.oxmClass = Openflow.OFPXMC_OPENFLOW_BASIC) (htype : id.type = f.key)
      (h : (f.new 0).Decoded ⟨id, .fixed f.width value mask⟩) : FromWire (f.key, ⟨id, .fixed f.width value mask⟩)
  | ofx (f : OfxField) {id : OxmId} {expId : UInt32} {value mask : List UInt8}
      (hclass : id.oxmClass = Openflow.OFPXMC_EXPERIMENTER) (hkey : expKey expId id = f.key)
      (h : (f.new 0 0).Decoded ⟨id, .exp expId value mask⟩) : FromWire (f.key, ⟨id, .exp expId value mask⟩)
  | exp {id : OxmId} {expId : UInt32} {value mask : List UInt8}
      (hclass : id.oxmClass = Openflow.OFPXMC_EXPERIMENTER) (hkey : OfxField.ofKey (expKey expId id) = none)
      (h : (expMatch expId id).Decoded ⟨id, .exp expId value mask⟩) :
      FromWire (expKey expId id, ⟨id, .exp expId value mask⟩)

theorem FromWire.class_eq {e : ℕ × Coxmatch} (h : FromWire e) :
    match e.2.body with
    | .fixed .. => e.2.oxmId.oxmClass = Openflow.OFPXMC_OPENFLOW_BASIC
    | .exp .. => e.2.oxmId.oxmClass = Openflow.OFPXMC_EXPERIMENTER := by
  cases h with
  | ofb f hclass htype h => exact hclass
  | ofx f hclass hkey h => exact hclass
  | exp hclass hkey h => exact hclass

theorem basic_ne_experimenter : Openflow.OFPXMC_OPENFLOW_BASIC ≠ Openflow.OFPXMC_EXPERIMENTER := by decide

theorem readOxm_exp {id : OxmId} {expId : UInt32} {value mask : List UInt8} {k : ℕ} {o : Coxmatch}
    (hclass : id.oxmClass = Openflow.OFPXMC_EXPERIMENTER) (hadded : added id expId = some (k, o))
    (h : o.Decoded ⟨id, .exp expId value mask⟩) (x : Coxmatches) (rest : List UInt8) :
    readOxm x (Coxmatch.image ⟨id, .exp expId value mask⟩ ++ rest) =
      .ok (x.insert k ⟨id, .exp expId value mask⟩) := by
  have himage : Coxmatch.image ⟨id, .exp expId value mask⟩ ++ rest =
      id.toOctets ++ (octets 4 expId.toNat ++ (value ++ ((if id.hasmask then mask else []) ++ rest))) := by
    simp only [Coxmatch.image, Coxmatch.hasmask, List.append_assoc]
    rfl
  have hexp : ((Coxmatch.image ⟨id, .exp expId value mask⟩ ++ rest).drop 4).take 4 = octets 4 expId.toNat := by
    rw [himage, Coxmatch.drop_id, List.take_left' (length_octets 4 _)]
  have hlen : ¬ (Coxmatch.image ⟨id, .exp expId value mask⟩ ++ rest).length < 8 := by
    rw [himage]
    simp
    omega
  simp only [readOxm, Coxmatch.ofOctets_image, hclass, hlen, and_false, if_false, hexp, Coxmatch.expId_octets, hadded,
    Coxmatch.unpack_image h]
  rfl

/-- Whatever is read back is read back from its image. -/
theorem readOxm_image {k : ℕ} {o : Coxmatch} (h : FromWire (k, o)) (x : Coxmatches) (rest : List UInt8) :
    readOxm x (o.image ++ rest) = .ok (x.insert k o) := by
  cases h with
  | @ofb f id value mask hclass htype h =>
    have hadded : ∀ expId, added id expId = some (f.key, f.new 0) := fun expId => by
      simp [added, hclass, htype]
    simp only [readOxm, Coxmatch.ofOctets_image, hclass, basic_ne_experimenter, false_and, if_false, hadded,
      Coxmatch.unpack_image h]
    rfl
  | @ofx f id expId value mask hclass hkey h =>
    have hadded : added id expId = some (f.key, f.new 0 0) := by
      rw [added, hclass, if_neg basic_ne_experimenter.symm, if_pos rfl, hkey, OfxField.ofKey_key]
    exact readOxm_exp hclass hadded h x rest
  | @exp id expId value mask hclass hkey h =>
    have hadded : added id expId = some (expKey expId id, expMatch expId id) := by
      rw [added, hclass, if_neg basic_ne_experimenter.symm, if_pos rfl, hkey]
    exact readOxm_exp hclass hadded h x rest

theorem fromWire_of_unpack {buf : List UInt8} {k : ℕ} {o y : Coxmatch}
    (hadded : added (OxmId.ofOctets buf) (UInt32.ofNat (number ((buf.drop 4).take 4))) = some (k, o))
    (h : o.unpack buf = .ok y) : FromWire (k, y) := by
  have hdecoded := Coxmatch.decoded_of_unpack h
  unfold added at hadded
  split_ifs at hadded with hbasic hexp
  · obtain ⟨f, hf, hko⟩ := Option.map_eq_some_iff.mp hadded
    cases hko
    obtain ⟨value, mask, rfl⟩ := Coxmatch.unpack_fixed h
    exact .ofb f hbasic (OfbField.key_of_ofKey hf).symm hdecoded
  · cases hkey : OfxField.ofKey (expKey (UInt32.ofNat (number ((buf.drop 4).take 4))) (OxmId.ofOctets buf)) with
    | none =>
      simp only [hkey] at hadded
      cases hadded
      obtain ⟨value, mask, rfl⟩ := Coxmatch.unpack_exp h
      exact .exp hexp hkey hdecoded
    | some f =>
      simp only [hkey] at hadded
      cases hadded
      obtain ⟨id, value, mask, hnew⟩ := f.new_eq 0 0
      rw [hnew] at h
      obtain ⟨value', mask', rfl⟩ := Coxmatch.unpack_exp h
      exact .ofx f hexp (OfxField.key_of_ofKey hkey).symm hdecoded

/-- Nothing else is read. -/
theorem fromWire_of_readOxm {x x' : Coxmatches} {buf : List UInt8} (hx : ∀ e ∈ x.entries, FromWire e)
    (h : readOxm x buf = .ok x') : ∀ e ∈ x'.entries, FromWire e := by
  simp only [readOxm] at h
  split_ifs at h with hshort
  cases hadded : added (OxmId.ofOctets buf) (UInt32.ofNat (number ((buf.drop 4).take 4))) with
  | none =>
    simp only [hadded] at h
    cases h
    exact hx
  | some ko =>
    obtain ⟨k, o⟩ := ko
    simp only [hadded] at h
    obtain ⟨y, hy, h⟩ := Except.bind_eq_ok.mp h
    cases h
    intro e he
    rcases Omap.mem_put he with rfl | he
    · exact fromWire_of_unpack hadded hy
    · exact hx e he

theorem readOxm_zeros (n : ℕ) (x : Coxmatches) : readOxm x (.replicate n 0) = .ok x := by
  have hid : (OxmId.ofOctets (.replicate n 0)).oxmClass = 0 := by
    rcases n with - | - | - | - | n <;> rfl
  have hadded : ∀ expId, added (OxmId.ofOctets (.replicate n 0)) expId = none := fun expId => by
    rw [added, hid, if_neg (by decide), if_neg (by decide)]
  have hne : ¬ ((0 : UInt16) = Openflow.OFPXMC_EXPERIMENTER ∧ (List.replicate n (0 : UInt8)).length < 8) := fun h =>
    absurd h.1 (by decide)
  simp only [readOxm, hid, hadded, if_neg hne]

end Coxmatches
end RoflCommon
