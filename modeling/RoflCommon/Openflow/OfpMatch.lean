/-
`cofmatch` of OpenFlow 1.0: a structure of forty octets with a word of wildcards.

`OfpMatch.oxms` is what `unpack_of10` makes of it, `Coxmatches.ofpMatch` what
`pack_of10` makes of OXMs. What a structure means is `OfpMatch.Matches`. A
structure that is read, written and read again stays the same in both respects
unless it asks for an opcode of ARP: that is read into `arp_opcode`, and written
out of `nw_proto` (`preserved_iff`).
-/
import RoflCommon.Openflow.Cofmatch
import RoflCommon.Lib.Record
import Mathlib.Data.Nat.Bitwise

namespace RoflCommon

open Octets

namespace Openflow10

def OFPFW_IN_PORT : ℕ := 2 ^ 0
def OFPFW_DL_VLAN : ℕ := 2 ^ 1
def OFPFW_DL_SRC : ℕ := 2 ^ 2
def OFPFW_DL_DST : ℕ := 2 ^ 3
def OFPFW_DL_TYPE : ℕ := 2 ^ 4
def OFPFW_NW_PROTO : ℕ := 2 ^ 5
def OFPFW_TP_SRC : ℕ := 2 ^ 6
def OFPFW_TP_DST : ℕ := 2 ^ 7
def OFPFW_NW_SRC_SHIFT : ℕ := 8
def OFPFW_NW_SRC_MASK : ℕ := 63 <<< OFPFW_NW_SRC_SHIFT
def OFPFW_NW_SRC_ALL : ℕ := 32 <<< OFPFW_NW_SRC_SHIFT
def OFPFW_NW_DST_SHIFT : ℕ := 14
def OFPFW_NW_DST_MASK : ℕ := 63 <<< OFPFW_NW_DST_SHIFT
def OFPFW_NW_DST_ALL : ℕ := 32 <<< OFPFW_NW_DST_SHIFT
def OFPFW_DL_VLAN_PCP : ℕ := 2 ^ 20
def OFPFW_NW_TOS : ℕ := 2 ^ 21

def OFP_VLAN_NONE : UInt16 := 0xffff

end Openflow10

open Openflow10

/-- `struct ofp_match`. -/
structure OfpMatch where
  wildcards : UInt32
  inPort : UInt16
  dlSrc : Fin 281474976710656
  dlDst : Fin 281474976710656
  dlVlan : UInt16
  dlVlanPcp : UInt8
  dlType : UInt16
  nwTos : UInt8
  nwProto : UInt8
  nwSrc : UInt32
  nwDst : UInt32
  tpSrc : UInt16
  tpDst : UInt16
deriving DecidableEq

namespace OfpMatch

def layout : Record.Layout :=
  [.field 4, .field 2, .field 6, .field 6, .field 2, .field 1, .pad 1, .field 2, .field 1, .field 1, .pad 2,
   .field 4, .field 4, .field 2, .field 2]

def fields (w : OfpMatch) : List ℕ :=
  [w.wildcards.toNat, w.inPort.toNat, w.dlSrc, w.dlDst, w.dlVlan.toNat, w.dlVlanPcp.toNat, w.dlType.toNat,
   w.nwTos.toNat, w.nwProto.toNat, w.nwSrc.toNat, w.nwDst.toNat, w.tpSrc.toNat, w.tpDst.toNat]

/-- The six octets of an address. -/
def lladdr (v : ℕ) : Fin 281474976710656 := ⟨v % 281474976710656, Nat.mod_lt _ (by decide)⟩

def ofFields : List ℕ → OfpMatch
  | [wildcards, inPort, dlSrc, dlDst, dlVlan, dlVlanPcp, dlType, nwTos, nwProto, nwSrc, nwDst, tpSrc, tpDst] =>
    ⟨.ofNat wildcards, .ofNat inPort, lladdr dlSrc, lladdr dlDst, .ofNat dlVlan, .ofNat dlVlanPcp, .ofNat dlType,
     .ofNat nwTos, .ofNat nwProto, .ofNat nwSrc, .ofNat nwDst, .ofNat tpSrc, .ofNat tpDst⟩
  | _ => ⟨0, 0, lladdr 0, lladdr 0, 0, 0, 0, 0, 0, 0, 0, 0, 0⟩

/-- The structure at the start of a buffer. -/
def ofBuf (buf : List UInt8) : OfpMatch := ofFields (Record.read layout buf)

/-- A wildcard bit. -/
def wild (w : OfpMatch) (flag : ℕ) : Bool := w.wildcards.toNat &&& flag != 0

/-- The wildcard bits of an address, of which no more than 32 count. -/
def bits (w : OfpMatch) (mask shift : ℕ) : ℕ := min ((w.wildcards.toNat &&& mask) >>> shift) 32

/-- `(uint32_t)~((1UL << n) - 1UL)`. -/
def uMask (n : ℕ) : ℕ := (18446744073709551616 - 2 ^ n) % 4294967296

def isIpv4 (w : OfpMatch) : Bool := !w.wild OFPFW_DL_TYPE && w.dlType == 0x0800

def isArp (w : OfpMatch) : Bool := !w.wild OFPFW_DL_TYPE && w.dlType == 0x0806

/-- TCP, UDP or ICMP. -/
def isTransport (w : OfpMatch) : Bool :=
  w.isIpv4 && !w.wild OFPFW_NW_PROTO && (w.nwProto == 6 || w.nwProto == 17 || w.nwProto == 1)

end OfpMatch

namespace Coxmatches

def addIf (x : Coxmatches) (b : Bool) (op : Op) : Coxmatches := if b then x.apply op else x

end Coxmatches

/-- The OXMs `unpack_of10` adds, in its order. -/
def OfpMatch.oxms (w : OfpMatch) : Coxmatches :=
  let x : Coxmatches := .empty
  let x := x.addIf (!w.wild OFPFW_IN_PORT) (.addOfb .inPort w.inPort.toNat)
  let x := x.addIf (!w.wild OFPFW_DL_SRC) (.addOfb .ethSrc w.dlSrc)
  let x := x.addIf (!w.wild OFPFW_DL_DST) (.addOfb .ethDst w.dlDst)
  let x := x.addIf (!w.wild OFPFW_DL_VLAN) (.addOfb .vlanVid w.dlVlan.toNat)
  let x := x.addIf (!w.wild OFPFW_DL_VLAN_PCP && w.dlVlan != OFP_VLAN_NONE) (.addOfb .vlanPcp w.dlVlanPcp.toNat)
  let x := x.addIf (!w.wild OFPFW_DL_TYPE) (.addOfb .ethType w.dlType.toNat)
  let src := w.bits OFPFW_NW_SRC_MASK OFPFW_NW_SRC_SHIFT
  let x := x.addIf (w.isArp || w.isIpv4) (.addOfx .nwSrc w.nwSrc.toNat (uMask src))
  let dst := w.bits OFPFW_NW_DST_MASK OFPFW_NW_DST_SHIFT
  let x := x.addIf (w.isArp || w.isIpv4) (.addOfx .nwDst w.nwDst.toNat (uMask dst))
  let x := x.addIf (w.isIpv4 && !w.wild OFPFW_NW_TOS) (.addOfx .nwTos w.nwTos.toNat 0)
  let x := x.addIf (w.isIpv4 && !w.wild OFPFW_NW_PROTO) (.addOfx .nwProto w.nwProto.toNat 0)
  let x := x.addIf (w.isTransport && !w.wild OFPFW_TP_SRC) (.addOfx .tpSrc w.tpSrc.toNat 0)
  let x := x.addIf (w.isTransport && !w.wild OFPFW_TP_DST) (.addOfx .tpDst w.tpDst.toNat 0)
  x.addIf (w.isArp && !w.wild OFPFW_NW_PROTO) (.addOfb .arpOp w.nwProto.toNat)

namespace Coxmatches

/-- A value, or the wildcard bit where there is none. -/
def packValue (present : Bool) (value : Except MatchException ℕ) (flag : ℕ) : Except MatchException (ℕ × ℕ) :=
  if present then do return (← value, 0) else .ok (0, flag)

/-- `std::bitset<32>::count`. -/
def count (mask : ℕ) : ℕ := (List.range 32).countP mask.testBit

def packAddr (x : Coxmatches) (f : OfxField) (shift mask all : ℕ) : Except MatchException (ℕ × ℕ) :=
  if x.hasOfx f then do
    let o ← x.getOfx f
    let addr ← o.getExpValue 4
    if o.hasmask then return (addr, ((32 - count (← o.getExpMask 4)) <<< shift) &&& mask)
    else return (addr, 0)
  else .ok (0, all)

/-- The structure `pack_of10` fills in. -/
def ofpMatch (x : Coxmatches) : Except MatchException OfpMatch := do
  let inPort ← packValue (x.has .inPort) (x.getValue .inPort) OFPFW_IN_PORT
  let dlSrc ← packValue (x.has .ethSrc) (x.getValue .ethSrc) OFPFW_DL_SRC
  let dlDst ← packValue (x.has .ethDst) (x.getValue .ethDst) OFPFW_DL_DST
  let dlVlan ← packValue (x.has .vlanVid) (x.getValue .vlanVid) OFPFW_DL_VLAN
  let dlVlanPcp ← packValue (x.has .vlanPcp) (x.getValue .vlanPcp) OFPFW_DL_VLAN_PCP
  let dlType ← packValue (x.has .ethType) (x.getValue .ethType) OFPFW_DL_TYPE
  let nwTos ← packValue (x.hasOfx .nwTos) (do (← x.getOfx .nwTos).getExpValue 1) OFPFW_NW_TOS
  let nwProto ← packValue (x.hasOfx .nwProto) (do (← x.getOfx .nwProto).getExpValue 1) OFPFW_NW_PROTO
  let nwSrc ← x.packAddr .nwSrc OFPFW_NW_SRC_SHIFT OFPFW_NW_SRC_MASK OFPFW_NW_SRC_ALL
  let nwDst ← x.packAddr .nwDst OFPFW_NW_DST_SHIFT OFPFW_NW_DST_MASK OFPFW_NW_DST_ALL
  let tpSrc ← packValue (x.hasOfx .tpSrc) (do (← x.getOfx .tpSrc).getExpValue 2) OFPFW_TP_SRC
  let tpDst ← packValue (x.hasOfx .tpDst) (do (← x.getOfx .tpDst).getExpValue 2) OFPFW_TP_DST
  let wildcards := inPort.2 ||| dlSrc.2 ||| dlDst.2 ||| dlVlan.2 ||| dlVlanPcp.2 ||| dlType.2 ||| nwTos.2 |||
    nwProto.2 ||| nwSrc.2 ||| nwDst.2 ||| tpSrc.2 ||| tpDst.2
  return .ofFields [wildcards, inPort.1, dlSrc.1, dlDst.1, dlVlan.1, dlVlanPcp.1, dlType.1, nwTos.1, nwProto.1,
    nwSrc.1, nwDst.1, tpSrc.1, tpDst.1]

end Coxmatches

namespace Cofmatch

def unpackOf10 (m : Cofmatch) (buf : List UInt8) : Except MatchException Cofmatch :=
  if buf.length < Record.size OfpMatch.layout then .error .badMatchBadLen
  else .ok { m with oxms := (OfpMatch.ofBuf buf).oxms }

/-- The buffer is zeroed first. -/
def packOf10 (m : Cofmatch) (buf : List UInt8) : Except MatchException (List UInt8) := do
  if buf.length < Record.size OfpMatch.layout then throw .invalid
  return Record.write OfpMatch.layout (← m.oxms.ofpMatch).fields (.replicate buf.length 0)

end Cofmatch

/-! ## What a structure means -/

/-- The fields of a packet. `dlVlan` is `OFP_VLAN_NONE` without a tag, and the fields of
headers a packet does not have are of no interest. -/
structure Packet where
  inPort : UInt16
  dlSrc : Fin 281474976710656
  dlDst : Fin 281474976710656
  dlVlan : UInt16
  dlVlanPcp : UInt8
  dlType : UInt16
  nwTos : UInt8
  nwProto : UInt8
  nwSrc : UInt32
  nwDst : UInt32
  tpSrc : UInt16
  tpDst : UInt16

namespace OfpMatch

/-- Addresses that are the same but for the last `n` bits. -/
def SamePrefix (n : ℕ) (a b : UInt32) : Prop := a.toNat / 2 ^ n = b.toNat / 2 ^ n

/-- The rules of OpenFlow 1.0.1: the fields of a protocol count where the protocol is
asked for. The network protocol of ARP is its opcode, and it has no type of
service. -/
structure Matches (w : OfpMatch) (p : Packet) : Prop where
  inPort : w.wild OFPFW_IN_PORT = false → p.inPort = w.inPort
  dlSrc : w.wild OFPFW_DL_SRC = false → p.dlSrc = w.dlSrc
  dlDst : w.wild OFPFW_DL_DST = false → p.dlDst = w.dlDst
  dlVlan : w.wild OFPFW_DL_VLAN = false → p.dlVlan = w.dlVlan
  dlVlanPcp : w.wild OFPFW_DL_VLAN_PCP = false → w.wild OFPFW_DL_VLAN = false → w.dlVlan ≠ OFP_VLAN_NONE →
    p.dlVlanPcp = w.dlVlanPcp
  dlType : w.wild OFPFW_DL_TYPE = false → p.dlType = w.dlType
  nwSrc : w.isArp ∨ w.isIpv4 → SamePrefix (w.bits OFPFW_NW_SRC_MASK OFPFW_NW_SRC_SHIFT) p.nwSrc w.nwSrc
  nwDst : w.isArp ∨ w.isIpv4 → SamePrefix (w.bits OFPFW_NW_DST_MASK OFPFW_NW_DST_SHIFT) p.nwDst w.nwDst
  nwTos : w.isIpv4 → w.wild OFPFW_NW_TOS = false → p.nwTos = w.nwTos
  nwProto : w.isArp ∨ w.isIpv4 → w.wild OFPFW_NW_PROTO = false → p.nwProto = w.nwProto
  tpSrc : w.isTransport → w.wild OFPFW_TP_SRC = false → p.tpSrc = w.tpSrc
  tpDst : w.isTransport → w.wild OFPFW_TP_DST = false → p.tpDst = w.tpDst

/-- What a new match reads, writes into forty octets and reads again: the OXMs are the
same, and so are the packets matched. -/
def Preserved (buf : List UInt8) : Prop :=
  ∃ m m' buf', (Cofmatch.new OFP_VERSION).unpackOf10 buf = .ok m ∧ m.packOf10 (.replicate 40 0) = .ok buf' ∧
    (Cofmatch.new OFP_VERSION).unpackOf10 buf' = .ok m' ∧ m'.oxms = m.oxms ∧
      ∀ p, (ofBuf buf').Matches p ↔ (ofBuf buf).Matches p

end OfpMatch

/-! ## Reading what was written -/

namespace OfpMatch

theorem fits_fields (w : OfpMatch) : Record.Fits layout w.fields := by
  have hsrc := w.dlSrc.isLt
  have hdst := w.dlDst.isLt
  simp only [layout, fields, Record.Fits, and_true]
  refine ⟨w.wildcards.toNat_lt, w.inPort.toNat_lt, hsrc, hdst, w.dlVlan.toNat_lt, w.dlVlanPcp.toNat_lt, w.dlType.toNat_lt,
    w.nwTos.toNat_lt, w.nwProto.toNat_lt, w.nwSrc.toNat_lt, w.nwDst.toNat_lt, w.tpSrc.toNat_lt, w.tpDst.toNat_lt⟩

theorem lladdr_val (a : Fin 281474976710656) : lladdr a = a := Fin.ext (Nat.mod_eq_of_lt a.isLt)

theorem ofFields_fields (w : OfpMatch) : ofFields w.fields = w := by
  simp only [fields, ofFields, lladdr_val, UInt32.ofNat_toNat, UInt16.ofNat_toNat, UInt8.ofNat_toNat]

theorem ofBuf_write (w : OfpMatch) {buf : List UInt8} (h : Record.size layout ≤ buf.length) :
    ofBuf (Record.write layout w.fields buf) = w := by
  rw [ofBuf, Record.read_write w.fits_fields h, ofFields_fields]

end OfpMatch

namespace Coxmatches

@[simp] theorem find?_addOfb (x : Coxmatches) (b : Bool) (f : OfbField) (v k : ℕ) :
    (x.addIf b (.addOfb f v)).find? k = if k = f.key ∧ b then some (f.new v) else x.find? k := by
  cases b <;> simp [addIf, apply, Omap.find?_insert]

@[simp] theorem find?_addOfx (x : Coxmatches) (b : Bool) (f : OfxField) (v m k : ℕ) :
    (x.addIf b (.addOfx f v m)).find? k = if k = f.key ∧ b then some (f.new v m) else x.find? k := by
  cases b <;> simp [addIf, apply, Omap.find?_insert]

theorem addIf_congr {b : Bool} {op op' : Op} (x : Coxmatches) (h : b = true → op = op') : x.addIf b op = x.addIf b op' := by
  cases b with
  | false => rfl
  | true => rw [h rfl]

variable {x : Coxmatches} {c : Bool} {v : ℕ}

theorem packValue_ofb {f : OfbField} (h : x.find? f.key = if c then some (f.new v) else none)
    (hv : v < f.width.parameter) (flag : ℕ) :
    packValue (x.has f) (x.getValue f) flag = .ok (if c then (v, 0) else (0, flag)) := by
  have hcap : f.width.parameter ≤ f.width.capacity := by cases f.width <;> decide
  have hval : (f.width.arg v : ℕ) = v := by
    rw [OxmWidth.arg, Nat.mod_eq_of_lt hv]
    exact Nat.mod_eq_of_lt (hv.trans_le hcap)
  cases c with
  | false => simp [packValue, has, h]
  | true =>
    have hget : x.getValue f = .ok v := by simp [getValue, h, OfbField.new, hval]
    simp [packValue, has, h, hget, bind, Except.bind, pure, Except.pure]

/-- The fields that are added without a mask. -/
theorem packValue_ofx {f : OfxField} (h : x.find? f.key = if c then some (f.new v 0) else none)
    (hf : f.new v 0 = f.bare.setExpValue (octets f.length v)) (hv : v < 256 ^ f.length) (flag : ℕ) :
    packValue (x.hasOfx f) (do (← x.getOfx f).getExpValue f.length) flag =
      .ok (if c then (v, 0) else (0, flag)) := by
  cases c with
  | false => simp [packValue, hasOfx, h]
  | true =>
    have hget : x.getOfx f = .ok (f.bare.setExpValue (octets f.length v)) := by
      rw [getOfx, h, ← hf]
      obtain ⟨id, value, mask, hnew⟩ := f.new_eq v 0
      simp [hnew]
    have hvalue : (f.bare.setExpValue (octets f.length v)).getExpValue f.length = .ok v := by
      simp [OfxField.bare, Coxmatch.setExpValue, Coxmatch.adjustOxmLength, Coxmatch.getExpValue, number_octets_of_lt hv]
    simp [packValue, hasOfx, h, hget, hvalue, bind, Except.bind, pure, Except.pure]

/-- The fields that are added with a mask. -/
theorem packAddr_ofx {f : OfxField} {m : ℕ} (h : x.find? f.key = if c then some (f.new v m) else none)
    (hf : f.new v m =
      (Coxmatch.setExpValue ⟨f.oxmIdMask, .exp ROFL_EXP_ID [] []⟩ (octets 4 v)).setExpMask (octets 4 m))
    (hv : v < 256 ^ 4) (hm : m < 256 ^ 4) (shift mask all : ℕ) :
    x.packAddr f shift mask all =
      .ok (if c then (v, ((32 - count m) <<< shift) &&& mask) else (0, all)) := by
  cases c with
  | false => simp [packAddr, hasOfx, h]
  | true =>
    have hget : x.getOfx f = .ok (f.new v m) := by
      obtain ⟨id, value, mask, hnew⟩ := f.new_eq v m
      simp [getOfx, h, hnew]
    have hvalue : (f.new v m).getExpValue 4 = .ok v := by
      simp [hf, Coxmatch.setExpValue, Coxmatch.setExpMask, Coxmatch.adjustOxmLength, Coxmatch.getExpValue,
        number_octets_of_lt hv]
    have hmask : (f.new v m).getExpMask 4 = .ok m := by
      simp [hf, Coxmatch.setExpValue, Coxmatch.setExpMask, Coxmatch.adjustOxmLength, Coxmatch.getExpMask,
        number_octets_of_lt hm]
    have hhas : (f.new v m).hasmask = true := by
      rw [hf]
      rfl
    simp [packAddr, hasOfx, h, hget, hvalue, hmask, hhas, bind, Except.bind, pure, Except.pure]

end Coxmatches

namespace OfpMatch

/-! ### The structure that is written

Only what counts is left: `normal` has the other fields zero and their wildcard
bits set. -/

/-- A flag that is set unless the field counts. -/
def wildUnless (c : Bool) (flag : ℕ) : ℕ := if c then 0 else flag

/-- The bits of an address that do not count. -/
def normalBits (w : OfpMatch) (mask shift : ℕ) : ℕ := if w.isArp || w.isIpv4 then w.bits mask shift else 32

def normalWildcards (w : OfpMatch) : ℕ :=
  wildUnless (!w.wild OFPFW_IN_PORT) OFPFW_IN_PORT ||| wildUnless (!w.wild OFPFW_DL_SRC) OFPFW_DL_SRC |||
    wildUnless (!w.wild OFPFW_DL_DST) OFPFW_DL_DST ||| wildUnless (!w.wild OFPFW_DL_VLAN) OFPFW_DL_VLAN |||
    wildUnless (!w.wild OFPFW_DL_VLAN_PCP && w.dlVlan != OFP_VLAN_NONE) OFPFW_DL_VLAN_PCP |||
    wildUnless (!w.wild OFPFW_DL_TYPE) OFPFW_DL_TYPE ||| wildUnless (w.isIpv4 && !w.wild OFPFW_NW_TOS) OFPFW_NW_TOS |||
    wildUnless (w.isIpv4 && !w.wild OFPFW_NW_PROTO) OFPFW_NW_PROTO |||
    (w.normalBits OFPFW_NW_SRC_MASK OFPFW_NW_SRC_SHIFT <<< OFPFW_NW_SRC_SHIFT) |||
    (w.normalBits OFPFW_NW_DST_MASK OFPFW_NW_DST_SHIFT <<< OFPFW_NW_DST_SHIFT) |||
    wildUnless (w.isTransport && !w.wild OFPFW_TP_SRC) OFPFW_TP_SRC |||
    wildUnless (w.isTransport && !w.wild OFPFW_TP_DST) OFPFW_TP_DST

def normal (w : OfpMatch) : OfpMatch where
  wildcards := .ofNat w.normalWildcards
  inPort := if !w.wild OFPFW_IN_PORT then w.inPort else 0
  dlSrc := if !w.wild OFPFW_DL_SRC then w.dlSrc else lladdr 0
  dlDst := if !w.wild OFPFW_DL_DST then w.dlDst else lladdr 0
  dlVlan := if !w.wild OFPFW_DL_VLAN then w.dlVlan else 0
  dlVlanPcp := if !w.wild OFPFW_DL_VLAN_PCP && w.dlVlan != OFP_VLAN_NONE then w.dlVlanPcp else 0
  dlType := if !w.wild OFPFW_DL_TYPE then w.dlType else 0
  nwTos := if w.isIpv4 && !w.wild OFPFW_NW_TOS then w.nwTos else 0
  nwProto := if w.isIpv4 && !w.wild OFPFW_NW_PROTO then w.nwProto else 0
  nwSrc := if w.isArp || w.isIpv4 then w.nwSrc else 0
  nwDst := if w.isArp || w.isIpv4 then w.nwDst else 0
  tpSrc := if w.isTransport && !w.wild OFPFW_TP_SRC then w.tpSrc else 0
  tpDst := if w.isTransport && !w.wild OFPFW_TP_DST then w.tpDst else 0

theorem bits_le (w : OfpMatch) (mask shift : ℕ) : w.bits mask shift ≤ 32 := Nat.min_le_right _ _

theorem normalBits_le (w : OfpMatch) (mask shift : ℕ) : w.normalBits mask shift ≤ 32 := by
  unfold normalBits
  split
  · exact w.bits_le mask shift
  · exact Nat.le_refl 32

theorem uMask_lt (n : ℕ) : uMask n < 256 ^ 4 := Nat.mod_lt _ (by decide)

theorem count_uMask {n : ℕ} (h : n ≤ 32) : 32 - Coxmatches.count (uMask n) = n := by
  have hall : ∀ n < 33, 32 - Coxmatches.count (uMask n) = n := by decide +kernel
  exact hall n (by omega)

/-- What the mask of an address adds to the wildcards. -/
theorem packed_bits {n : ℕ} (h : n ≤ 32) (shift : ℕ) :
    ((32 - Coxmatches.count (uMask n)) <<< shift) &&& (63 <<< shift) = n <<< shift := by
  have hall : ∀ n < 33, n &&& 63 = n := by decide
  rw [count_uMask h, ← Nat.shiftLeft_and_distrib, hall n (by omega)]

theorem packed_normalBits (w : OfpMatch) (mask shift : ℕ) (hmask : mask = 63 <<< shift) :
    (if w.isArp || w.isIpv4 then ((32 - Coxmatches.count (uMask (w.bits mask shift))) <<< shift) &&& mask
      else 32 <<< shift) = w.normalBits mask shift <<< shift := by
  unfold normalBits
  split
  · conv_lhs => rw [hmask, packed_bits (w.bits_le _ shift)]
    rw [hmask]
  · rfl

theorem ofpMatch_oxms (w : OfpMatch) : w.oxms.ofpMatch = .ok w.normal := by
  have hsrc := w.dlSrc.isLt
  have hdst := w.dlDst.isLt
  have hinPort := Coxmatches.packValue_ofb (x := w.oxms) (f := .inPort) (c := !w.wild OFPFW_IN_PORT)
    (by simp [oxms]) (w.inPort.toNat_lt.trans (by decide)) OFPFW_IN_PORT
  have hdlSrc := Coxmatches.packValue_ofb (x := w.oxms) (f := .ethSrc) (c := !w.wild OFPFW_DL_SRC)
    (by simp [oxms]) hsrc OFPFW_DL_SRC
  have hdlDst := Coxmatches.packValue_ofb (x := w.oxms) (f := .ethDst) (c := !w.wild OFPFW_DL_DST)
    (by simp [oxms]) hdst OFPFW_DL_DST
  have hdlVlan := Coxmatches.packValue_ofb (x := w.oxms) (f := .vlanVid) (c := !w.wild OFPFW_DL_VLAN)
    (by simp [oxms]) w.dlVlan.toNat_lt OFPFW_DL_VLAN
  have hdlVlanPcp := Coxmatches.packValue_ofb (x := w.oxms) (f := .vlanPcp)
    (c := !w.wild OFPFW_DL_VLAN_PCP && w.dlVlan != OFP_VLAN_NONE) (by simp [oxms]) w.dlVlanPcp.toNat_lt
    OFPFW_DL_VLAN_PCP
  have hdlType := Coxmatches.packValue_ofb (x := w.oxms) (f := .ethType) (c := !w.wild OFPFW_DL_TYPE)
    (by simp [oxms]) w.dlType.toNat_lt OFPFW_DL_TYPE
  have hnwTos := Coxmatches.packValue_ofx (x := w.oxms) (f := .nwTos) (c := w.isIpv4 && !w.wild OFPFW_NW_TOS)
    (by simp [oxms]) rfl w.nwTos.toNat_lt OFPFW_NW_TOS
  have hnwProto := Coxmatches.packValue_ofx (x := w.oxms) (f := .nwProto) (c := w.isIpv4 && !w.wild OFPFW_NW_PROTO)
    (by simp [oxms]) rfl w.nwProto.toNat_lt OFPFW_NW_PROTO
  have hnwSrc := Coxmatches.packAddr_ofx (x := w.oxms) (f := .nwSrc) (c := w.isArp || w.isIpv4)
    (m := uMask (w.bits OFPFW_NW_SRC_MASK OFPFW_NW_SRC_SHIFT)) (by simp [oxms]) rfl w.nwSrc.toNat_lt (uMask_lt _)
    OFPFW_NW_SRC_SHIFT OFPFW_NW_SRC_MASK OFPFW_NW_SRC_ALL
  have hnwDst := Coxmatches.packAddr_ofx (x := w.oxms) (f := .nwDst) (c := w.isArp || w.isIpv4)
    (m := uMask (w.bits OFPFW_NW_DST_MASK OFPFW_NW_DST_SHIFT)) (by simp [oxms]) rfl w.nwDst.toNat_lt (uMask_lt _)
    OFPFW_NW_DST_SHIFT OFPFW_NW_DST_MASK OFPFW_NW_DST_ALL
  have htpSrc := Coxmatches.packValue_ofx (x := w.oxms) (f := .tpSrc) (c := w.isTransport && !w.wild OFPFW_TP_SRC)
    (by simp [oxms]) rfl w.tpSrc.toNat_lt OFPFW_TP_SRC
  have htpDst := Coxmatches.packValue_ofx (x := w.oxms) (f := .tpDst) (c := w.isTransport && !w.wild OFPFW_TP_DST)
    (by simp [oxms]) rfl w.tpDst.toNat_lt OFPFW_TP_DST
  simp only [OfxField.length] at hnwTos hnwProto htpSrc htpDst
  simp only [Coxmatches.ofpMatch, hinPort, hdlSrc, hdlDst, hdlVlan, hdlVlanPcp, hdlType, hnwTos, hnwProto, hnwSrc, hnwDst,
    htpSrc, htpDst]
  simp only [bind, Except.bind, pure, Except.pure, ofFields, apply_ite Prod.fst, apply_ite Prod.snd]
  congr 1
  simp only [normal, OfpMatch.mk.injEq, apply_ite UInt8.ofNat, apply_ite UInt16.ofNat, apply_ite UInt32.ofNat,
    apply_ite lladdr, UInt8.ofNat_toNat, UInt16.ofNat_toNat, UInt32.ofNat_toNat, lladdr_val]
  have hsrcBits := w.packed_normalBits OFPFW_NW_SRC_MASK OFPFW_NW_SRC_SHIFT rfl
  have hdstBits := w.packed_normalBits OFPFW_NW_DST_MASK OFPFW_NW_DST_SHIFT rfl
  rw [← OFPFW_NW_SRC_ALL] at hsrcBits
  rw [← OFPFW_NW_DST_ALL] at hdstBits
  rw [hsrcBits, hdstBits]
  exact ⟨rfl, rfl, trivial, trivial, rfl, rfl, rfl, rfl, rfl, rfl, rfl, rfl, rfl⟩

/-! ### Its wildcards -/

theorem and_two_pow_ne_zero (n k : ℕ) : (n &&& 2 ^ k != 0) = n.testBit k := by
  rw [Nat.and_two_pow]
  cases n.testBit k <;> simp

theorem testBit_wildUnless (c : Bool) (j k : ℕ) : (wildUnless c (2 ^ j)).testBit k = (!c && j == k) := by
  cases c with
  | false => simp [wildUnless, Nat.testBit_two_pow, beq_eq_decide]
  | true => simp [wildUnless]

theorem testBit_addr {n : ℕ} (h : n ≤ 32) (shift k : ℕ) (hk : k < shift ∨ shift + 6 ≤ k) :
    (n <<< shift).testBit k = false := by
  rw [Nat.testBit_shiftLeft]
  rcases hk with hk | hk
  · simp [Nat.not_le.mpr hk]
  · have hlt : n < 2 ^ (k - shift) := calc
      n < 2 ^ 6 := by omega
      _ ≤ 2 ^ (k - shift) := Nat.pow_le_pow_right (by decide) (by omega)
    rw [Nat.testBit_lt_two_pow hlt, Bool.and_false]

theorem wildUnless_lt (c : Bool) {j : ℕ} (h : j < 22) : wildUnless c (2 ^ j) < 2 ^ 22 := by
  have hlt : 2 ^ j < 2 ^ 22 := Nat.pow_lt_pow_right (by decide) h
  unfold wildUnless
  split
  · omega
  · exact hlt

theorem addr_lt {n : ℕ} (h : n ≤ 32) {shift : ℕ} (hs : shift ≤ 16) : n <<< shift < 2 ^ 22 := by
  rw [Nat.shiftLeft_eq]
  calc n * 2 ^ shift ≤ 32 * 2 ^ 16 := Nat.mul_le_mul h (Nat.pow_le_pow_right (by decide) hs)
    _ < 2 ^ 22 := by decide

theorem normalWildcards_lt (w : OfpMatch) : w.normalWildcards < 2 ^ 22 := by
  have hsrc : w.normalBits OFPFW_NW_SRC_MASK OFPFW_NW_SRC_SHIFT <<< OFPFW_NW_SRC_SHIFT < 2 ^ 22 :=
    addr_lt (w.normalBits_le _ _) (by decide)
  have hdst : w.normalBits OFPFW_NW_DST_MASK OFPFW_NW_DST_SHIFT <<< OFPFW_NW_DST_SHIFT < 2 ^ 22 :=
    addr_lt (w.normalBits_le _ _) (by decide)
  have hflag : ∀ (c : Bool) {j : ℕ}, j < 22 → wildUnless c (2 ^ j) < 2 ^ 22 := wildUnless_lt
  unfold normalWildcards
  exact Nat.or_lt_two_pow (Nat.or_lt_two_pow (Nat.or_lt_two_pow (Nat.or_lt_two_pow (Nat.or_lt_two_pow
    (Nat.or_lt_two_pow (Nat.or_lt_two_pow (Nat.or_lt_two_pow (Nat.or_lt_two_pow (Nat.or_lt_two_pow (Nat.or_lt_two_pow
    (hflag _ (by decide)) (hflag _ (by decide))) (hflag _ (by decide))) (hflag _ (by decide))) (hflag _ (by decide)))
    (hflag _ (by decide))) (hflag _ (by decide))) (hflag _ (by decide))) hsrc) hdst) (hflag _ (by decide)))
    (hflag _ (by decide))

theorem toNat_normal (w : OfpMatch) : w.normal.wildcards.toNat = w.normalWildcards := by
  have hlt := w.normalWildcards_lt
  rw [normal, UInt32.toNat_ofNat']
  omega

/-- The bits but those of the addresses. -/
def flagBit (w : OfpMatch) (k : ℕ) : Bool :=
  w.wild OFPFW_IN_PORT && 0 == k || w.wild OFPFW_DL_VLAN && 1 == k || w.wild OFPFW_DL_SRC && 2 == k ||
    w.wild OFPFW_DL_DST && 3 == k || w.wild OFPFW_DL_TYPE && 4 == k ||
    !(w.isIpv4 && !w.wild OFPFW_NW_PROTO) && 5 == k || !(w.isTransport && !w.wild OFPFW_TP_SRC) && 6 == k ||
    !(w.isTransport && !w.wild OFPFW_TP_DST) && 7 == k ||
    !(!w.wild OFPFW_DL_VLAN_PCP && w.dlVlan != OFP_VLAN_NONE) && 20 == k || !(w.isIpv4 && !w.wild OFPFW_NW_TOS) && 21 == k

theorem testBit_normal (w : OfpMatch) (k : ℕ) : w.normalWildcards.testBit k =
    (w.flagBit k || (w.normalBits OFPFW_NW_SRC_MASK OFPFW_NW_SRC_SHIFT <<< OFPFW_NW_SRC_SHIFT).testBit k ||
      (w.normalBits OFPFW_NW_DST_MASK OFPFW_NW_DST_SHIFT <<< OFPFW_NW_DST_SHIFT).testBit k) := by
  have hflag : ∀ (c : Bool) (j : ℕ), (wildUnless c (2 ^ j)).testBit k = (!c && j == k) := fun c j =>
    testBit_wildUnless c j k
  simp only [normalWildcards, flagBit, Nat.testBit_or]
  simp only [OFPFW_IN_PORT, OFPFW_DL_VLAN, OFPFW_DL_SRC, OFPFW_DL_DST, OFPFW_DL_TYPE, OFPFW_NW_PROTO, OFPFW_TP_SRC,
    OFPFW_TP_DST, OFPFW_DL_VLAN_PCP, OFPFW_NW_TOS, hflag, Bool.not_not]
  ac_rfl

theorem flagBit_addr (w : OfpMatch) {k : ℕ} (hk : 8 ≤ k) (hk' : k < 20) : w.flagBit k = false := by
  have hne : ∀ j, j < 8 ∨ 20 ≤ j → (j == k) = false := fun j hj => beq_false_of_ne (by omega)
  simp [flagBit, hne]

/-- A flag of the structure that is written. -/
theorem wild_normal (w : OfpMatch) {k : ℕ} (hk : k < 8 ∨ 20 ≤ k) : w.normal.wild (2 ^ k) = w.flagBit k := by
  have hsrc := testBit_addr (w.normalBits_le OFPFW_NW_SRC_MASK OFPFW_NW_SRC_SHIFT) OFPFW_NW_SRC_SHIFT k
    (by unfold OFPFW_NW_SRC_SHIFT; omega)
  have hdst := testBit_addr (w.normalBits_le OFPFW_NW_DST_MASK OFPFW_NW_DST_SHIFT) OFPFW_NW_DST_SHIFT k
    (by unfold OFPFW_NW_DST_SHIFT; omega)
  rw [wild, toNat_normal, and_two_pow_ne_zero, testBit_normal, hsrc, hdst, Bool.or_false, Bool.or_false]

/-- Six bits, read where they were written. -/
theorem shiftRight_addr {v n shift : ℕ} (hn : n ≤ 32) (h : ∀ i < 6, v.testBit (shift + i) = n.testBit i) :
    (v &&& (63 <<< shift)) >>> shift = n := by
  refine Nat.eq_of_testBit_eq fun i => ?_
  rw [Nat.testBit_shiftRight, Nat.testBit_and, Nat.testBit_shiftLeft]
  by_cases hi : i < 6
  · have hone : (63 : ℕ).testBit i = true := by
      have hall : ∀ i < 6, (63 : ℕ).testBit i = true := by decide
      exact hall i hi
    simp [h i hi, hone]
  · have hpow : 2 ^ 6 ≤ 2 ^ i := Nat.pow_le_pow_right (by decide) (by omega)
    have hzero : (63 : ℕ).testBit i = false := Nat.testBit_lt_two_pow (by omega)
    have hzero' : n.testBit i = false := Nat.testBit_lt_two_pow (by omega)
    simp [hzero, hzero']

theorem bits_normal_src (w : OfpMatch) : w.normal.bits OFPFW_NW_SRC_MASK OFPFW_NW_SRC_SHIFT =
    w.normalBits OFPFW_NW_SRC_MASK OFPFW_NW_SRC_SHIFT := by
  have hle := w.normalBits_le OFPFW_NW_SRC_MASK OFPFW_NW_SRC_SHIFT
  have hbits : ∀ i < 6, w.normalWildcards.testBit (OFPFW_NW_SRC_SHIFT + i) =
      (w.normalBits OFPFW_NW_SRC_MASK OFPFW_NW_SRC_SHIFT).testBit i := fun i hi => by
    have hdst := testBit_addr (w.normalBits_le OFPFW_NW_DST_MASK OFPFW_NW_DST_SHIFT) OFPFW_NW_DST_SHIFT
      (OFPFW_NW_SRC_SHIFT + i) (by unfold OFPFW_NW_SRC_SHIFT OFPFW_NW_DST_SHIFT; omega)
    rw [testBit_normal, hdst, flagBit_addr w (by unfold OFPFW_NW_SRC_SHIFT; omega) (by unfold OFPFW_NW_SRC_SHIFT; omega)]
    simp [Nat.testBit_shiftLeft]
  have hshift := shiftRight_addr hle hbits
  rw [bits, toNat_normal]
  exact (congrArg (min · 32) hshift).trans (Nat.min_eq_left hle)

theorem bits_normal_dst (w : OfpMatch) : w.normal.bits OFPFW_NW_DST_MASK OFPFW_NW_DST_SHIFT =
    w.normalBits OFPFW_NW_DST_MASK OFPFW_NW_DST_SHIFT := by
  have hle := w.normalBits_le OFPFW_NW_DST_MASK OFPFW_NW_DST_SHIFT
  have hbits : ∀ i < 6, w.normalWildcards.testBit (OFPFW_NW_DST_SHIFT + i) =
      (w.normalBits OFPFW_NW_DST_MASK OFPFW_NW_DST_SHIFT).testBit i := fun i hi => by
    have hsrc := testBit_addr (w.normalBits_le OFPFW_NW_SRC_MASK OFPFW_NW_SRC_SHIFT) OFPFW_NW_SRC_SHIFT
      (OFPFW_NW_DST_SHIFT + i) (by unfold OFPFW_NW_SRC_SHIFT OFPFW_NW_DST_SHIFT; omega)
    rw [testBit_normal, hsrc, flagBit_addr w (by unfold OFPFW_NW_DST_SHIFT; omega) (by unfold OFPFW_NW_DST_SHIFT; omega)]
    simp [Nat.testBit_shiftLeft]
  have hshift := shiftRight_addr hle hbits
  rw [bits, toNat_normal]
  exact (congrArg (min · 32) hshift).trans (Nat.min_eq_left hle)

/-! ### What it is read as -/

@[simp] theorem wild_inPort (w : OfpMatch) : w.normal.wild OFPFW_IN_PORT = w.wild OFPFW_IN_PORT := by
  rw [OFPFW_IN_PORT, wild_normal w (by decide)]
  simp [flagBit, OFPFW_IN_PORT]

@[simp] theorem wild_dlVlan (w : OfpMatch) : w.normal.wild OFPFW_DL_VLAN = w.wild OFPFW_DL_VLAN := by
  rw [OFPFW_DL_VLAN, wild_normal w (by decide)]
  simp [flagBit, OFPFW_DL_VLAN]

@[simp] theorem wild_dlSrc (w : OfpMatch) : w.normal.wild OFPFW_DL_SRC = w.wild OFPFW_DL_SRC := by
  rw [OFPFW_DL_SRC, wild_normal w (by decide)]
  simp [flagBit, OFPFW_DL_SRC]

@[simp] theorem wild_dlDst (w : OfpMatch) : w.normal.wild OFPFW_DL_DST = w.wild OFPFW_DL_DST := by
  rw [OFPFW_DL_DST, wild_normal w (by decide)]
  simp [flagBit, OFPFW_DL_DST]

@[simp] theorem wild_dlType (w : OfpMatch) : w.normal.wild OFPFW_DL_TYPE = w.wild OFPFW_DL_TYPE := by
  rw [OFPFW_DL_TYPE, wild_normal w (by decide)]
  simp [flagBit, OFPFW_DL_TYPE]

@[simp] theorem wild_dlVlanPcp (w : OfpMatch) : w.normal.wild OFPFW_DL_VLAN_PCP =
    !(!w.wild OFPFW_DL_VLAN_PCP && w.dlVlan != OFP_VLAN_NONE) := by
  conv_lhs => rw [OFPFW_DL_VLAN_PCP, wild_normal w (by decide)]
  simp [flagBit]

@[simp] theorem wild_nwTos (w : OfpMatch) : w.normal.wild OFPFW_NW_TOS = !(w.isIpv4 && !w.wild OFPFW_NW_TOS) := by
  conv_lhs => rw [OFPFW_NW_TOS, wild_normal w (by decide)]
  simp [flagBit]

@[simp] theorem wild_nwProto (w : OfpMatch) : w.normal.wild OFPFW_NW_PROTO =
    !(w.isIpv4 && !w.wild OFPFW_NW_PROTO) := by
  conv_lhs => rw [OFPFW_NW_PROTO, wild_normal w (by decide)]
  simp [flagBit]

@[simp] theorem wild_tpSrc (w : OfpMatch) : w.normal.wild OFPFW_TP_SRC =
    !(w.isTransport && !w.wild OFPFW_TP_SRC) := by
  conv_lhs => rw [OFPFW_TP_SRC, wild_normal w (by decide)]
  simp [flagBit]

@[simp] theorem wild_tpDst (w : OfpMatch) : w.normal.wild OFPFW_TP_DST =
    !(w.isTransport && !w.wild OFPFW_TP_DST) := by
  conv_lhs => rw [OFPFW_TP_DST, wild_normal w (by decide)]
  simp [flagBit]

@[simp] theorem isIpv4_normal (w : OfpMatch) : w.normal.isIpv4 = w.isIpv4 := by
  rw [isIpv4, isIpv4, wild_dlType]
  cases h : w.wild OFPFW_DL_TYPE <;> simp [normal, h]

@[simp] theorem isArp_normal (w : OfpMatch) : w.normal.isArp = w.isArp := by
  rw [isArp, isArp, wild_dlType]
  cases h : w.wild OFPFW_DL_TYPE <;> simp [normal, h]

@[simp] theorem isTransport_normal (w : OfpMatch) : w.normal.isTransport = w.isTransport := by
  rw [isTransport, isTransport, isIpv4_normal, wild_nwProto]
  cases hip : w.isIpv4 <;> cases h : w.wild OFPFW_NW_PROTO <;> simp [normal, hip, h]

/-- The priority counts as before: a VLAN that is not written is not `OFP_VLAN_NONE`. -/
theorem dlVlanPcp_normal (w : OfpMatch) : (!w.normal.wild OFPFW_DL_VLAN_PCP && w.normal.dlVlan != OFP_VLAN_NONE) =
    (!w.wild OFPFW_DL_VLAN_PCP && w.dlVlan != OFP_VLAN_NONE) := by
  rw [wild_dlVlanPcp, Bool.not_not]
  cases hvlan : w.wild OFPFW_DL_VLAN with
  | false => simp [normal, hvlan]
  | true => simp [normal, hvlan, OFP_VLAN_NONE]

theorem not_isIpv4_of_isArp {w : OfpMatch} (h : w.isArp = true) : w.isIpv4 = false := by
  simp only [isArp, isIpv4, Bool.and_eq_true, beq_iff_eq] at h ⊢
  rw [h.2]
  simp

theorem oxms_normal {w : OfpMatch} (h : (w.isArp && !w.wild OFPFW_NW_PROTO) = false) : w.normal.oxms = w.oxms := by
  have hinPort : ∀ x : Coxmatches, x.addIf (!w.normal.wild OFPFW_IN_PORT) (.addOfb .inPort w.normal.inPort.toNat) =
      x.addIf (!w.wild OFPFW_IN_PORT) (.addOfb .inPort w.inPort.toNat) := fun x => by
    rw [wild_inPort]
    exact Coxmatches.addIf_congr x fun hc => by simp only [normal, hc, if_true]
  have hdlSrc : ∀ x : Coxmatches, x.addIf (!w.normal.wild OFPFW_DL_SRC) (.addOfb .ethSrc w.normal.dlSrc) =
      x.addIf (!w.wild OFPFW_DL_SRC) (.addOfb .ethSrc w.dlSrc) := fun x => by
    rw [wild_dlSrc]
    exact Coxmatches.addIf_congr x fun hc => by simp only [normal, hc, if_true]
  have hdlDst : ∀ x : Coxmatches, x.addIf (!w.normal.wild OFPFW_DL_DST) (.addOfb .ethDst w.normal.dlDst) =
      x.addIf (!w.wild OFPFW_DL_DST) (.addOfb .ethDst w.dlDst) := fun x => by
    rw [wild_dlDst]
    exact Coxmatches.addIf_congr x fun hc => by simp only [normal, hc, if_true]
  have hdlVlan : ∀ x : Coxmatches, x.addIf (!w.normal.wild OFPFW_DL_VLAN) (.addOfb .vlanVid w.normal.dlVlan.toNat) =
      x.addIf (!w.wild OFPFW_DL_VLAN) (.addOfb .vlanVid w.dlVlan.toNat) := fun x => by
    rw [wild_dlVlan]
    exact Coxmatches.addIf_congr x fun hc => by simp only [normal, hc, if_true]
  have hdlVlanPcp : ∀ x : Coxmatches,
      x.addIf (!w.normal.wild OFPFW_DL_VLAN_PCP && w.normal.dlVlan != OFP_VLAN_NONE)
        (.addOfb .vlanPcp w.normal.dlVlanPcp.toNat) =
      x.addIf (!w.wild OFPFW_DL_VLAN_PCP && w.dlVlan != OFP_VLAN_NONE) (.addOfb .vlanPcp w.dlVlanPcp.toNat) := fun x => by
    rw [dlVlanPcp_normal]
    exact Coxmatches.addIf_congr x fun hc => by simp only [normal, hc, if_true]
  have hdlType : ∀ x : Coxmatches, x.addIf (!w.normal.wild OFPFW_DL_TYPE) (.addOfb .ethType w.normal.dlType.toNat) =
      x.addIf (!w.wild OFPFW_DL_TYPE) (.addOfb .ethType w.dlType.toNat) := fun x => by
    rw [wild_dlType]
    exact Coxmatches.addIf_congr x fun hc => by simp only [normal, hc, if_true]
  have hnwSrc : ∀ x : Coxmatches, x.addIf (w.normal.isArp || w.normal.isIpv4) (.addOfx .nwSrc w.normal.nwSrc.toNat
        (uMask (w.normal.bits OFPFW_NW_SRC_MASK OFPFW_NW_SRC_SHIFT))) =
      x.addIf (w.isArp || w.isIpv4) (.addOfx .nwSrc w.nwSrc.toNat
        (uMask (w.bits OFPFW_NW_SRC_MASK OFPFW_NW_SRC_SHIFT))) := fun x => by
    rw [isArp_normal, isIpv4_normal, bits_normal_src]
    exact Coxmatches.addIf_congr x fun hc => by simp only [normal, normalBits, hc, if_true]
  have hnwDst : ∀ x : Coxmatches, x.addIf (w.normal.isArp || w.normal.isIpv4) (.addOfx .nwDst w.normal.nwDst.toNat
        (uMask (w.normal.bits OFPFW_NW_DST_MASK OFPFW_NW_DST_SHIFT))) =
      x.addIf (w.isArp || w.isIpv4) (.addOfx .nwDst w.nwDst.toNat
        (uMask (w.bits OFPFW_NW_DST_MASK OFPFW_NW_DST_SHIFT))) := fun x => by
    rw [isArp_normal, isIpv4_normal, bits_normal_dst]
    exact Coxmatches.addIf_congr x fun hc => by simp only [normal, normalBits, hc, if_true]
  have hself : ∀ b c : Bool, (b && !!(b && c)) = (b && c) := by decide
  have hnwTos : ∀ x : Coxmatches, x.addIf (w.normal.isIpv4 && !w.normal.wild OFPFW_NW_TOS)
        (.addOfx .nwTos w.normal.nwTos.toNat 0) =
      x.addIf (w.isIpv4 && !w.wild OFPFW_NW_TOS) (.addOfx .nwTos w.nwTos.toNat 0) := fun x => by
    rw [isIpv4_normal, wild_nwTos, hself]
    exact Coxmatches.addIf_congr x fun hc => by simp only [normal, hc, if_true]
  have hnwProto : ∀ x : Coxmatches, x.addIf (w.normal.isIpv4 && !w.normal.wild OFPFW_NW_PROTO)
        (.addOfx .nwProto w.normal.nwProto.toNat 0) =
      x.addIf (w.isIpv4 && !w.wild OFPFW_NW_PROTO) (.addOfx .nwProto w.nwProto.toNat 0) := fun x => by
    rw [isIpv4_normal, wild_nwProto, hself]
    exact Coxmatches.addIf_congr x fun hc => by simp only [normal, hc, if_true]
  have htpSrc : ∀ x : Coxmatches, x.addIf (w.normal.isTransport && !w.normal.wild OFPFW_TP_SRC)
        (.addOfx .tpSrc w.normal.tpSrc.toNat 0) =
      x.addIf (w.isTransport && !w.wild OFPFW_TP_SRC) (.addOfx .tpSrc w.tpSrc.toNat 0) := fun x => by
    rw [isTransport_normal, wild_tpSrc, hself]
    exact Coxmatches.addIf_congr x fun hc => by simp only [normal, hc, if_true]
  have htpDst : ∀ x : Coxmatches, x.addIf (w.normal.isTransport && !w.normal.wild OFPFW_TP_DST)
        (.addOfx .tpDst w.normal.tpDst.toNat 0) =
      x.addIf (w.isTransport && !w.wild OFPFW_TP_DST) (.addOfx .tpDst w.tpDst.toNat 0) := fun x => by
    rw [isTransport_normal, wild_tpDst, hself]
    exact Coxmatches.addIf_congr x fun hc => by simp only [normal, hc, if_true]
  have harp : (w.normal.isArp && !w.normal.wild OFPFW_NW_PROTO) = false := by
    rw [isArp_normal, wild_nwProto]
    cases harp : w.isArp with
    | false => rfl
    | true => simp [not_isIpv4_of_isArp harp]
  simp only [oxms, hinPort, hdlSrc, hdlDst, hdlVlan, hdlVlanPcp, hdlType, hnwSrc, hnwDst, hnwTos, hnwProto, htpSrc,
    htpDst, harp, h]
  rfl

theorem samePrefix_normal {w : OfpMatch} {a p : UInt32} {mask shift n : ℕ} (hn : n = w.normalBits mask shift) :
    (w.normal.isArp ∨ w.normal.isIpv4 → SamePrefix n p (if w.isArp || w.isIpv4 then a else 0)) ↔
      (w.isArp ∨ w.isIpv4 → SamePrefix (w.bits mask shift) p a) := by
  rw [isArp_normal, isIpv4_normal]
  refine forall_congr' fun hc => ?_
  have hor : (w.isArp || w.isIpv4) = true := by simpa using hc
  rw [hn, normalBits, if_pos hor, if_pos hor]

/-- Nothing else is matched, if there is no opcode. -/
theorem matches_normal {w : OfpMatch} (h : (w.isArp && !w.wild OFPFW_NW_PROTO) = false) (p : Packet) :
    w.normal.Matches p ↔ w.Matches p := by
  have hnwSrc := samePrefix_normal (a := w.nwSrc) (p := p.nwSrc) w.bits_normal_src
  have hnwDst := samePrefix_normal (a := w.nwDst) (p := p.nwDst) w.bits_normal_dst
  have hip : w.isArp ∨ w.isIpv4 → w.wild OFPFW_NW_PROTO = false → w.isIpv4 = true := fun hor hproto =>
    hor.resolve_left fun harp => by simp [harp, hproto] at h
  constructor
  · intro hn
    have hnwProto : w.isArp ∨ w.isIpv4 → w.wild OFPFW_NW_PROTO = false → p.nwProto = w.nwProto := fun hor hproto => by
      have hip := hip hor hproto
      simpa [normal, hip, hproto] using hn.nwProto (Or.inr (by simpa using hip)) (by simp [hip, hproto])
    have hdlVlanPcp : w.wild OFPFW_DL_VLAN_PCP = false → w.wild OFPFW_DL_VLAN = false → w.dlVlan ≠ OFP_VLAN_NONE →
        p.dlVlanPcp = w.dlVlanPcp := fun hpcp hvlan hnone => by
      have hvlan' : w.normal.dlVlan = w.dlVlan := by simp [normal, hvlan]
      simpa [normal, hpcp, hnone] using
        hn.dlVlanPcp (by simp [hpcp, hnone]) (by simpa using hvlan) (by rwa [hvlan'])
    exact
      { inPort := fun hw => by simpa [normal, hw] using hn.inPort (by simpa using hw)
        dlSrc := fun hw => by simpa [normal, hw] using hn.dlSrc (by simpa using hw)
        dlDst := fun hw => by simpa [normal, hw] using hn.dlDst (by simpa using hw)
        dlVlan := fun hw => by simpa [normal, hw] using hn.dlVlan (by simpa using hw)
        dlVlanPcp := hdlVlanPcp
        dlType := fun hw => by simpa [normal, hw] using hn.dlType (by simpa using hw)
        nwSrc := hnwSrc.1 hn.nwSrc
        nwDst := hnwDst.1 hn.nwDst
        nwTos := fun hip hw => by simpa [normal, hip, hw] using hn.nwTos (by simpa using hip) (by simp [hip, hw])
        nwProto := hnwProto
        tpSrc := fun htp hw => by simpa [normal, htp, hw] using hn.tpSrc (by simpa using htp) (by simp [htp, hw])
        tpDst := fun htp hw => by simpa [normal, htp, hw] using hn.tpDst (by simpa using htp) (by simp [htp, hw]) }
  · intro hw
    exact
      { inPort := fun hn => by
          have hn' : w.wild OFPFW_IN_PORT = false := by simpa using hn
          simpa [normal, hn'] using hw.inPort hn'
        dlSrc := fun hn => by
          have hn' : w.wild OFPFW_DL_SRC = false := by simpa using hn
          simpa [normal, hn'] using hw.dlSrc hn'
        dlDst := fun hn => by
          have hn' : w.wild OFPFW_DL_DST = false := by simpa using hn
          simpa [normal, hn'] using hw.dlDst hn'
        dlVlan := fun hn => by
          have hn' : w.wild OFPFW_DL_VLAN = false := by simpa using hn
          simpa [normal, hn'] using hw.dlVlan hn'
        dlVlanPcp := fun hpcp hvlan hnone => by
          have hpcp' : w.wild OFPFW_DL_VLAN_PCP = false ∧ w.dlVlan ≠ OFP_VLAN_NONE := by simpa using hpcp
          simpa [normal, hpcp'.1, hpcp'.2] using hw.dlVlanPcp hpcp'.1 (by simpa using hvlan) hpcp'.2
        dlType := fun hn => by
          have hn' : w.wild OFPFW_DL_TYPE = false := by simpa using hn
          simpa [normal, hn'] using hw.dlType hn'
        nwSrc := hnwSrc.2 hw.nwSrc
        nwDst := hnwDst.2 hw.nwDst
        nwTos := fun _ hn => by
          have hn' : w.isIpv4 = true ∧ w.wild OFPFW_NW_TOS = false := by simpa using hn
          simpa [normal, hn'.1, hn'.2] using hw.nwTos hn'.1 hn'.2
        nwProto := fun _ hn => by
          have hn' : w.isIpv4 = true ∧ w.wild OFPFW_NW_PROTO = false := by simpa using hn
          simpa [normal, hn'.1, hn'.2] using hw.nwProto (Or.inr hn'.1) hn'.2
        tpSrc := fun _ hn => by
          have hn' : w.isTransport = true ∧ w.wild OFPFW_TP_SRC = false := by simpa using hn
          simpa [normal, hn'.1, hn'.2] using hw.tpSrc hn'.1 hn'.2
        tpDst := fun _ hn => by
          have hn' : w.isTransport = true ∧ w.wild OFPFW_TP_DST = false := by simpa using hn
          simpa [normal, hn'.1, hn'.2] using hw.tpDst hn'.1 hn'.2 }

/-! ### What is read first -/

theorem find?_oxms_arpOp (w : OfpMatch) : w.oxms.find? OfbField.arpOp.key =
    if w.isArp && !w.wild OFPFW_NW_PROTO then some (OfbField.arpOp.new w.nwProto.toNat) else none := by
  simp [oxms]

theorem unpackOf10_eq (m : Cofmatch) {buf : List UInt8} (h : 40 ≤ buf.length) :
    m.unpackOf10 buf = .ok { m with oxms := (ofBuf buf).oxms } := by
  have hsize : Record.size layout = 40 := by decide
  rw [Cofmatch.unpackOf10, if_neg (by omega)]

/-- The octets that are written, and what is read from them. -/
theorem packOf10_oxms (w : OfpMatch) (m : Cofmatch) (hm : m.oxms = w.oxms) :
    ∃ buf', m.packOf10 (.replicate 40 0) = .ok buf' ∧ buf'.length = 40 ∧ ofBuf buf' = w.normal := by
  have hsize : Record.size layout = 40 := by decide
  have hzero : (List.replicate 40 (0 : UInt8)).length = 40 := List.length_replicate
  refine ⟨Record.write layout w.normal.fields (.replicate 40 0), ?_, ?_, ?_⟩
  · rw [Cofmatch.packOf10, if_neg (by omega)]
    simp only [hm, ofpMatch_oxms, hzero]
    rfl
  · rw [Record.length_write w.normal.fits_fields (by omega), hzero]
  · exact ofBuf_write _ (by omega)

theorem not_preserved {buf : List UInt8} (h : 40 ≤ buf.length) (harp : (ofBuf buf).isArp = true)
    (hproto : (ofBuf buf).wild OFPFW_NW_PROTO = false) : ¬Preserved buf := by
  rintro ⟨m, m', buf', hm, hpack, hm', hoxms, -⟩
  obtain rfl := Except.ok.inj ((unpackOf10_eq _ h).symm.trans hm)
  obtain ⟨b, hb, hlen, hof⟩ := (ofBuf buf).packOf10_oxms { Cofmatch.new OFP_VERSION with oxms := (ofBuf buf).oxms } rfl
  obtain rfl := Except.ok.inj (hb.symm.trans hpack)
  obtain rfl := Except.ok.inj ((unpackOf10_eq _ (by omega)).symm.trans hm')
  have hfirst := (ofBuf buf).find?_oxms_arpOp
  have hsecond := (ofBuf buf).normal.find?_oxms_arpOp
  have hsame : (ofBuf buf).normal.oxms = (ofBuf buf).oxms := by
    rw [← hof]
    exact hoxms
  rw [hsame, hfirst] at hsecond
  simp [harp, hproto, not_isIpv4_of_isArp harp] at hsecond

/-- **A structure is preserved unless it asks for an opcode of ARP.** -/
theorem preserved_iff {buf : List UInt8} (h : 40 ≤ buf.length) : Preserved buf ↔
    ¬((ofBuf buf).isArp = true ∧ (ofBuf buf).wild OFPFW_NW_PROTO = false) := by
  constructor
  · rintro hkept ⟨harp, hproto⟩
    exact not_preserved h harp hproto hkept
  · intro hno
    have hcond : ((ofBuf buf).isArp && !(ofBuf buf).wild OFPFW_NW_PROTO) = false := by
      simpa [Bool.and_eq_false_iff, or_iff_not_imp_left] using hno
    obtain ⟨buf', hpack, hlen, hof⟩ :=
      (ofBuf buf).packOf10_oxms { Cofmatch.new OFP_VERSION with oxms := (ofBuf buf).oxms } rfl
    refine ⟨_, _, buf', unpackOf10_eq _ h, hpack, unpackOf10_eq _ (by omega), ?_, fun p => ?_⟩
    · rw [hof]
      exact oxms_normal hcond
    · rw [hof]
      exact matches_normal hcond p

/-- TCP over IPv4, to port 80 in 192.168.0.0/16. -/
def web : OfpMatch where
  wildcards := 0x34204f
  inPort := 0
  dlSrc := lladdr 0
  dlDst := lladdr 0
  dlVlan := 0
  dlVlanPcp := 0
  dlType := 0x0800
  nwTos := 0
  nwProto := 6
  nwSrc := 0
  nwDst := 0xc0a80000
  tpSrc := 0
  tpDst := 80

theorem preserved_web : Preserved (Record.write layout web.fields (.replicate 40 0)) := by
  have hof : ofBuf (Record.write layout web.fields (.replicate 40 0)) = web := ofBuf_write _ (by decide)
  have hlen : (Record.write layout web.fields (.replicate 40 0)).length = 40 :=
    Record.length_write web.fits_fields (by decide)
  refine (preserved_iff (by omega)).mpr ?_
  rw [hof]
  decide

/-- All wildcards but the one of the Ethernet type and the one of the protocol: ARP, opcode 1. -/
def arpRequest : OfpMatch where
  wildcards := 0x3820cf
  inPort := 0
  dlSrc := lladdr 0
  dlDst := lladdr 0
  dlVlan := 0
  dlVlanPcp := 0
  dlType := 0x0806
  nwTos := 0
  nwProto := 1
  nwSrc := 0
  nwDst := 0
  tpSrc := 0
  tpDst := 0

theorem arpRequest_lost : ¬∀ buf : List UInt8, buf.length = 40 → Preserved buf := by
  intro h
  let buf : List UInt8 := Record.write layout arpRequest.fields (.replicate 40 0)
  have hlen : buf.length = 40 := Record.length_write arpRequest.fits_fields (by decide)
  have hof : ofBuf buf = arpRequest := ofBuf_write _ (by decide)
  have harp : arpRequest.isArp = true := by decide
  have hproto : arpRequest.wild OFPFW_NW_PROTO = false := by decide
  exact not_preserved (by omega) (by rw [hof, harp]) (by rw [hof, hproto]) (h buf hlen)

end OfpMatch
end RoflCommon
