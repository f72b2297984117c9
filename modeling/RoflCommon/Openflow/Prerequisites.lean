/-
`cofmatch::check_prerequisites`: whether every field of a match has the fields
it depends on. The rules stand in `rules` in the order they are checked in; the
first two have a form of their own. Each prints the match before it throws.

The table of the specification is `prerequisite`. The check agrees with it but
for a `vlan_pcp` without a `vlan_vid`, whose value it asks for without asking
whether there is one, and for a match with a ROFL field that is too short to be
printed (`prerequisitesDecided_iff`).
-/
import RoflCommon.Lib.Checks
import RoflCommon.Openflow.CopyMatches

namespace RoflCommon

open Checks

namespace Openflow

def OFPVID_NONE : ℕ := 0x0000

def OFPXMT_OFX_PPPOE_CODE : OxmField := 21
def OFPXMT_OFX_PPPOE_TYPE : OxmField := 22
def OFPXMT_OFX_PPPOE_SID : OxmField := 23
def OFPXMT_OFX_PPP_PROT : OxmField := 24

end Openflow

/-! ## Printing

`operator<<`: the objects it gets, and the octets of their values it reads. What has a
fixed width has them all. -/

namespace Coxmatch

/-- What `coxmatch_exp` reads of a ROFL field: the PPPoE fields it knows by name. -/
def pppoeLength (field : OxmField) : ℕ :=
  if field = Openflow.OFPXMT_OFX_PPPOE_CODE ∨ field = Openflow.OFPXMT_OFX_PPPOE_TYPE then 1
  else if field = Openflow.OFPXMT_OFX_PPPOE_SID ∨ field = Openflow.OFPXMT_OFX_PPP_PROT then 2
  else 0

def printExp (o : Coxmatch) : Except MatchException Unit :=
  match o.body with
  | .fixed .. => .error .badCast
  | .exp expId _ _ =>
    if expId = ROFL_EXP_ID then (o.getExpValue (pppoeLength o.oxmId.oxmField)).map fun _ => () else .ok ()

/-- `coxmatch_ofx_nw_src` to `coxmatch_ofx_tp_dst`. -/
def printOfx (o : Coxmatch) (f : OfxField) : Except MatchException Unit := do
  o.printExp
  (o.getExpValue f.length).map fun _ => ()

end Coxmatch

namespace Coxmatches

def getPacketRegister (x : Coxmatches) (i : UInt8) : Except MatchException Coxmatch :=
  match x.find? (registerKey i) with
  | none => .error .oxmInval
  | some o =>
    match o.body with
    | .fixed w _ _ => if w = .u64 then .ok o else .error .badCast
    | .exp .. => .error .badCast

def hasPacketRegister (x : Coxmatches) (i : UInt8) : Bool := (x.find? (registerKey i)).isSome

def getExpMatch (x : Coxmatches) (k : ℕ) : Except MatchException Coxmatch :=
  match x.find? k with
  | none => .error .oxmInval
  | some o =>
    match o.body with
    | .fixed .. => .error .badCast
    | .exp .. => .ok o

/-- The registers are printed all at once, for each of their keys. -/
def printRegisters (x : Coxmatches) : Except MatchException Unit :=
  (List.range 128).forM fun i =>
    if x.hasPacketRegister (UInt8.ofNat i) then (x.getPacketRegister (UInt8.ofNat i)).map fun _ => () else .ok ()

/-- The switch. -/
def printKey (x : Coxmatches) (k : ℕ) : Except MatchException Unit :=
  match OfbField.ofKey k with
  | some f => (x.getValue f).map fun _ => ()
  | none =>
    match OfxField.ofKey k with
    | some f => do (← x.getOfx f).printOfx f
    | none =>
      if k / 65536 % 65536 = Openflow.OFPXMC_PACKET_REGS.toNat then x.printRegisters
      else if k / 65536 % 65536 = Openflow.OFPXMC_EXPERIMENTER.toNat then do
        (← x.getExpMatch (k / 4294967296 * 4294967296 + k % 4294967296 / 512 * 512)).printExp
      else .ok ()

def print (x : Coxmatches) : Except MatchException Unit := x.keys.forM x.printKey

/-! ## The check -/

/-- The match goes to `std::cerr`, and the exception is thrown. -/
def reject (x : Coxmatches) : Except MatchException Unit := do
  x.print
  throw .badMatchBadPrereq

def checkInPhyPort (x : Coxmatches) : Except MatchException Unit :=
  if x.has .inPhyPort ∧ ¬ x.has .inPort then x.reject else .ok ()

def checkVlanPcp (x : Coxmatches) : Except MatchException Unit :=
  if x.has .vlanPcp then do
    if (← x.getValue .vlanVid) = Openflow.OFPVID_NONE then x.reject
  else .ok ()

/-- `f` needs a `g` with one of the values. -/
def check (x : Coxmatches) (f g : OfbField) (values : List ℕ) : Except MatchException Unit :=
  if x.has f then
    if ¬ x.has g then x.reject
    else do
      if (← x.getValue g) ∉ values then x.reject
  else .ok ()

end Coxmatches

namespace Cofmatch

def rules : List (OfbField × OfbField × List ℕ) :=
  [(.ipDscp, .ethType, [0x0800, 0x86dd]), (.ipEcn, .ethType, [0x0800, 0x86dd]),
   (.ipProto, .ethType, [0x0800, 0x86dd]), (.ipv4Src, .ethType, [0x0800]), (.ipv4Dst, .ethType, [0x0800]),
   (.tcpSrc, .ipProto, [6]), (.tcpDst, .ipProto, [6]), (.udpSrc, .ipProto, [17]), (.udpDst, .ipProto, [17]),
   (.sctpSrc, .ipProto, [132]), (.sctpDst, .ipProto, [132]), (.icmpv4Type, .ipProto, [1]),
   (.icmpv4Code, .ipProto, [1]), (.arpOp, .ethType, [0x0806]), (.arpSpa, .ethType, [0x0806]),
   (.arpTpa, .ethType, [0x0806]), (.arpSha, .ethType, [0x0806]), (.arpTha, .ethType, [0x0806]),
   (.ipv6Src, .ethType, [0x86dd]), (.ipv6Dst, .ethType, [0x86dd]), (.ipv6Flabel, .ethType, [0x86dd]),
   (.icmpv6Type, .ipProto, [58]), (.icmpv6Code, .ipProto, [58]), (.ipv6NdTarget, .icmpv6Type, [135, 136]),
   (.ipv6NdSll, .icmpv6Type, [135]), (.ipv6NdTll, .icmpv6Type, [136]), (.mplsLabel, .ethType, [0x8847, 0x8848]),
   (.mplsTc, .ethType, [0x8847, 0x8848]), (.mplsBos, .ethType, [0x8847, 0x8848]), (.pbbIsid, .ethType, [0x88e7]),
   (.ipv6Exthdr, .ethType, [0x86dd])]

def checkPrerequisites (m : Cofmatch) : Except MatchException Unit :=
  if m.ofVersion = Openflow12.OFP_VERSION ∨ m.ofVersion = Openflow13.OFP_VERSION then do
    m.oxms.checkInPhyPort
    m.oxms.checkVlanPcp
    rules.forM fun (f, g, values) => m.oxms.check f g values
  else .ok ()

end Cofmatch

/-! ## The table of the specification -/

inductive Prerequisite
  | free
  | present (g : OfbField)
  | otherThan (g : OfbField) (value : ℕ)
  | oneOf (g : OfbField) (values : List ℕ)
deriving DecidableEq

/-- Section 7.2.3.6 of OpenFlow 1.3. -/
def OfbField.prerequisite : OfbField → Prerequisite
  | inPort | metadata | ethDst | ethSrc | ethType | vlanVid | tunnelId => .free
  | inPhyPort => .present inPort
  | vlanPcp => .otherThan vlanVid Openflow.OFPVID_NONE
  | ipDscp | ipEcn | ipProto => .oneOf ethType [0x0800, 0x86dd]
  | ipv4Src | ipv4Dst => .oneOf ethType [0x0800]
  | tcpSrc | tcpDst => .oneOf ipProto [6]
  | udpSrc | udpDst => .oneOf ipProto [17]
  | sctpSrc | sctpDst => .oneOf ipProto [132]
  | icmpv4Type | icmpv4Code => .oneOf ipProto [1]
  | arpOp | arpSpa | arpTpa | arpSha | arpTha => .oneOf ethType [0x0806]
  | ipv6Src | ipv6Dst | ipv6Flabel | ipv6Exthdr => .oneOf ethType [0x86dd]
  | icmpv6Type | icmpv6Code => .oneOf ipProto [58]
  | ipv6NdTarget => .oneOf icmpv6Type [135, 136]
  | ipv6NdSll => .oneOf icmpv6Type [135]
  | ipv6NdTll => .oneOf icmpv6Type [136]
  | mplsLabel | mplsTc | mplsBos => .oneOf ethType [0x8847, 0x8848]
  | pbbIsid => .oneOf ethType [0x88e7]

namespace Coxmatches

def HasValue (x : Coxmatches) (f : OfbField) (n : ℕ) : Prop :=
  ∃ id value mask, x.find? f.key = some ⟨id, .fixed f.width value mask⟩ ∧ (value : ℕ) = n

def Meets (x : Coxmatches) : Prerequisite → Prop
  | .free => True
  | .present g => x.has g
  | .otherThan g n => ∃ v, v ≠ n ∧ x.HasValue g v
  | .oneOf g values => ∃ v ∈ values, x.HasValue g v

/-- What stands under the key of a field is an object of its class, for a ROFL field that
of the field, and no key has a mask bit or a length. -/
structure Typed (x : Coxmatches) : Prop where
  key : ∀ k o, x.find? k = some o → k % 512 = 0
  ofb : ∀ (f : OfbField) o, x.find? f.key = some o → ∃ id value mask, o = ⟨id, .fixed f.width value mask⟩
  packetRegister : ∀ i o, x.find? (registerKey i) = some o → ∃ id value mask, o = ⟨id, .fixed .u64 value mask⟩
  exp : ∀ k o, k / 65536 % 65536 = Openflow.OFPXMC_EXPERIMENTER.toNat → x.find? k = some o →
    ∃ id expId value mask, o = ⟨id, .exp expId value mask⟩

/-- The value under a key of the experimenter class is as long as what is printed of it. -/
def LegibleAt (k : ℕ) : Coxmatch → Prop
  | ⟨_, .fixed ..⟩ => True
  | ⟨id, .exp expId value _⟩ => k / 65536 % 65536 = Openflow.OFPXMC_EXPERIMENTER.toNat →
    (∀ f ∈ OfxField.ofKey k, f.length ≤ value.length) ∧
      (expId = ROFL_EXP_ID → Coxmatch.pppoeLength id.oxmField ≤ value.length)

instance (k : ℕ) : ∀ o : Coxmatch, Decidable (LegibleAt k o)
  | ⟨_, .fixed ..⟩ => .isTrue trivial
  | ⟨id, .exp expId value _⟩ => inferInstanceAs (Decidable (_ → (∀ f ∈ OfxField.ofKey k, f.length ≤ value.length) ∧
      (expId = ROFL_EXP_ID → Coxmatch.pppoeLength id.oxmField ≤ value.length)))

def Legible (x : Coxmatches) : Prop := ∀ e ∈ x.entries, LegibleAt e.1 e.2

end Coxmatches

namespace Cofmatch

/-- Every field there is has its prerequisite. -/
def Satisfied (m : Cofmatch) : Prop := ∀ f : OfbField, m.oxms.has f → m.oxms.Meets f.prerequisite

/-- The check returns where all prerequisites are met, and throws
`eBadMatchBadPrereq` elsewhere. -/
def PrerequisitesDecided (m : Cofmatch) : Prop :=
  (m.Satisfied → m.checkPrerequisites = .ok ()) ∧
    (¬ m.Satisfied → m.checkPrerequisites = .error .badMatchBadPrereq)

end Cofmatch

/-! ## What the API builds and what is read is typed -/

namespace Coxmatches

/-- An object that may stand under the key. -/
structure TypedAt (k : ℕ) (o : Coxmatch) : Prop where
  key : k % 512 = 0
  ofb : ∀ f : OfbField, f.key = k → ∃ id value mask, o = ⟨id, .fixed f.width value mask⟩
  packetRegister : ∀ i, registerKey i = k → ∃ id value mask, o = ⟨id, .fixed .u64 value mask⟩
  exp : k / 65536 % 65536 = Openflow.OFPXMC_EXPERIMENTER.toNat → ∃ id expId value mask, o = ⟨id, .exp expId value mask⟩

theorem typed_of_forall {x : Coxmatches} (h : ∀ e ∈ x.entries, TypedAt e.1 e.2) : x.Typed where
  key _ _ hfind := (h _ (Omap.find?_eq_some.mp hfind)).key
  ofb f _ hfind := (h _ (Omap.find?_eq_some.mp hfind)).ofb f rfl
  packetRegister i _ hfind := (h _ (Omap.find?_eq_some.mp hfind)).packetRegister i rfl
  exp _ _ hclass hfind := (h _ (Omap.find?_eq_some.mp hfind)).exp hclass

theorem typedAt_ofb (f : OfbField) (id : OxmId) (value mask : Fin f.width.capacity) :
    TypedAt f.key ⟨id, .fixed f.width value mask⟩ where
  key := by cases f <;> decide
  ofb g hg := by
    cases OfbField.key_inj hg
    exact ⟨id, value, mask, rfl⟩
  packetRegister i hi := by
    have hclass := class_register i
    rw [hi, class_ofb] at hclass
    exact absurd hclass (by decide)
  exp hclass := by
    rw [class_ofb] at hclass
    exact absurd hclass (by decide)

theorem typedAt_exp {k : ℕ} (hkey : k % 512 = 0) (hclass : k / 65536 % 65536 = Openflow.OFPXMC_EXPERIMENTER.toNat)
    (id : OxmId) (expId : UInt32) (value mask : List UInt8) : TypedAt k ⟨id, .exp expId value mask⟩ where
  key := hkey
  ofb f hf := by
    rw [← hf, class_ofb] at hclass
    exact absurd hclass (by decide)
  packetRegister i hi := by
    rw [← hi, class_register] at hclass
    exact absurd hclass (by decide)
  exp _ := ⟨id, expId, value, mask, rfl⟩

theorem typedAt_ofx (f : OfxField) (id : OxmId) (expId : UInt32) (value mask : List UInt8) :
    TypedAt f.key ⟨id, .exp expId value mask⟩ := typedAt_exp (by cases f <;> decide) (class_ofx f) id expId value mask

theorem Entry.typed {e : ℕ × Coxmatch} (h : Entry e) : TypedAt e.1 e.2 := by
  cases h with
  | ofb f hclass hfield hmask => exact typedAt_ofb f _ _ _
  | ofx f hclass hfield hmask => exact typedAt_ofx f _ _ _ _

theorem FromWire.typed {e : ℕ × Coxmatch} (h : FromWire e) : TypedAt e.1 e.2 := by
  cases h with
  | ofb f hclass htype h => exact typedAt_ofb f _ _ _
  | ofx f hclass hkey h => exact typedAt_ofx f _ _ _ _
  | @exp id expId value mask hclass hkey h =>
    have hfield := id.oxmField.isLt
    refine typedAt_exp ?_ ?_ _ _ _ _
    · unfold expKey OxmId.type
      omega
    · rw [(expKey_parts expId id).1, hclass]

theorem Built.typed {x : Coxmatches} (h : x.Built) : x.Typed := typed_of_forall fun e he => (h.entry e he).typed

theorem typed_of_unpack {buf : List UInt8} {x : Coxmatches} (h : unpack buf = .ok x) : x.Typed :=
  typed_of_forall fun e he => (fromWire_of_unpack_eq h e he).typed

/-! ## What is printed -/

section Printing

variable {x : Coxmatches}

theorem printValue_eq {id : OxmId} {expId : UInt32} {value mask : List UInt8} (n : ℕ) :
    ((Coxmatch.getExpValue ⟨id, .exp expId value mask⟩ n).map fun _ => ()) =
      if n ≤ value.length then .ok () else .error .oxmInval := by
  simp only [Coxmatch.getExpValue]
  by_cases h : value.length < n
  · rw [if_pos h, if_neg (by omega)]
    rfl
  · rw [if_neg h, if_pos (by omega)]
    rfl

theorem printExp_eq {id : OxmId} {expId : UInt32} {value mask : List UInt8} :
    Coxmatch.printExp ⟨id, .exp expId value mask⟩ =
      if expId = ROFL_EXP_ID → Coxmatch.pppoeLength id.oxmField ≤ value.length then .ok () else .error .oxmInval := by
  simp only [Coxmatch.printExp, printValue_eq]
  by_cases h : expId = ROFL_EXP_ID
  · simp [h]
  · simp [h]

theorem printOfx_eq {f : OfxField} {id : OxmId} {expId : UInt32} {value mask : List UInt8} :
    Coxmatch.printOfx ⟨id, .exp expId value mask⟩ f =
      if f.length ≤ value.length ∧ (expId = ROFL_EXP_ID → Coxmatch.pppoeLength id.oxmField ≤ value.length)
        then .ok () else .error .oxmInval := by
  rw [Coxmatch.printOfx, printExp_eq, printValue_eq]
  by_cases hpppoe : expId = ROFL_EXP_ID → Coxmatch.pppoeLength id.oxmField ≤ value.length
  · by_cases hlength : f.length ≤ value.length
    · rw [if_pos hpppoe, if_pos hlength, if_pos ⟨hlength, hpppoe⟩]
      rfl
    · rw [if_pos hpppoe, if_neg hlength, if_neg fun h : _ ∧ _ => hlength h.1]
      rfl
  · rw [if_neg hpppoe, if_neg fun h : _ ∧ _ => hpppoe h.2]
    rfl

theorem getExpMatch_eq {k : ℕ} {id : OxmId} {expId : UInt32} {value mask : List UInt8}
    (h : x.find? k = some ⟨id, .exp expId value mask⟩) : x.getExpMatch k = .ok ⟨id, .exp expId value mask⟩ := by
  simp [getExpMatch, h]

theorem Typed.printRegisters (hx : x.Typed) : x.printRegisters = .ok () := by
  refine (decides_forM (p := fun _ => True) (e := .oxmInval) fun i _ => decides_of_ok ?_ trivial).ok fun _ _ => trivial
  split_ifs with h
  · obtain ⟨o, ho⟩ := Option.isSome_iff_exists.mp h
    obtain ⟨id, value, mask, rfl⟩ := hx.packetRegister _ _ ho
    simp [getPacketRegister, ho, Except.map]
  · rfl

/-- A ROFL field. -/
theorem Typed.printOfx (hx : x.Typed) {f : OfxField} {o : Coxmatch} (ho : x.find? f.key = some o) :
    Decides (x.getOfx f >>= fun o => o.printOfx f) (LegibleAt f.key o) .oxmInval := by
  obtain ⟨id, expId, value, mask, rfl⟩ := hx.exp _ o (class_ofx f) ho
  have hget : x.getOfx f = .ok ⟨id, .exp expId value mask⟩ := getExpMatch_eq ho
  have hprint : Decides (Coxmatch.printOfx ⟨id, .exp expId value mask⟩ f) _ _ := decides_ite printOfx_eq
  rw [hget]
  exact hprint.congr (by simp [LegibleAt, class_ofx])

/-- What else there is of the experimenter class. -/
theorem Typed.printExp (hx : x.Typed) {k : ℕ} {o : Coxmatch} (hofx : OfxField.ofKey k = none)
    (hexp : k / 65536 % 65536 = Openflow.OFPXMC_EXPERIMENTER.toNat) (ho : x.find? k = some o) :
    Decides (x.getExpMatch k >>= Coxmatch.printExp) (LegibleAt k o) .oxmInval := by
  obtain ⟨id, expId, value, mask, rfl⟩ := hx.exp _ o hexp ho
  have hprint : Decides (Coxmatch.printExp ⟨id, .exp expId value mask⟩) _ _ := decides_ite printExp_eq
  rw [getExpMatch_eq ho]
  exact hprint.congr (by simp [LegibleAt, hexp, hofx])

theorem Typed.printKey (hx : x.Typed) {k : ℕ} {o : Coxmatch} (ho : x.find? k = some o) :
    Decides (x.printKey k) (LegibleAt k o) .oxmInval := by
  unfold Coxmatches.printKey
  cases hofb : OfbField.ofKey k with
  | some f =>
    obtain rfl := OfbField.key_of_ofKey hofb
    obtain ⟨id, value, mask, rfl⟩ := hx.ofb f o ho
    exact decides_of_ok (by simp [getValue, ho, Except.map]) trivial
  | none =>
    cases hofx : OfxField.ofKey k with
    | some f =>
      obtain rfl := OfxField.key_of_ofKey hofx
      exact hx.printOfx ho
    | none =>
      by_cases hexp : k / 65536 % 65536 = Openflow.OFPXMC_EXPERIMENTER.toNat
      · have hkey := hx.key _ _ ho
        have hk : k / 4294967296 * 4294967296 + k % 4294967296 / 512 * 512 = k := by omega
        have hregister : ¬ k / 65536 % 65536 = Openflow.OFPXMC_PACKET_REGS.toNat := by
          rw [hexp]
          decide
        simp only [if_neg hregister, if_pos hexp, hk]
        exact hx.printExp hofx hexp ho
      · have hlegible : LegibleAt k o := by
          obtain ⟨id, body⟩ := o
          cases body with
          | fixed w value mask => trivial
          | exp expId value mask => exact fun hclass => absurd hclass hexp
        refine decides_of_ok ?_ hlegible
        simp only [if_neg hexp, hx.printRegisters]
        split_ifs <;> rfl

theorem Typed.print (hx : x.Typed) : Decides x.print x.Legible .oxmInval := by
  have hprint : x.print = x.entries.forM fun e => x.printKey e.1 := List.forM_map
  rw [hprint]
  exact decides_forM fun e he => hx.printKey (Omap.find?_eq_some.mpr he)

/-- A rejection throws in any case. -/
theorem Typed.rejection (hx : x.Typed) :
    ∃ e, x.reject = .error e ∧ (e = .badMatchBadPrereq ↔ x.Legible) := by
  by_cases h : x.Legible
  · refine ⟨.badMatchBadPrereq, ?_, iff_of_true rfl h⟩
    rw [reject, hx.print.ok h]
    rfl
  · refine ⟨.oxmInval, ?_, iff_of_false (by decide) h⟩
    rw [reject, hx.print.error h]
    rfl

end Printing

/-! ## One rule at a time -/

theorem has_of_hasValue {x : Coxmatches} {f : OfbField} {n : ℕ} (h : x.HasValue f n) : x.has f := by
  obtain ⟨id, value, mask, hfind, -⟩ := h
  rw [has, hfind]
  rfl

theorem getValue_eq {x : Coxmatches} {f : OfbField} {n : ℕ} (h : x.HasValue f n) : x.getValue f = .ok n := by
  obtain ⟨id, value, mask, hfind, rfl⟩ := h
  simp [getValue, hfind]

theorem HasValue.unique {x : Coxmatches} {f : OfbField} {n n' : ℕ} (h : x.HasValue f n) (h' : x.HasValue f n') :
    n = n' := by
  have heq := (getValue_eq h).symm.trans (getValue_eq h')
  cases heq
  rfl

theorem Typed.hasValue {x : Coxmatches} (hx : x.Typed) {f : OfbField} (h : x.has f) : ∃ n, x.HasValue f n := by
  obtain ⟨o, ho⟩ := Option.isSome_iff_exists.mp h
  obtain ⟨id, value, mask, rfl⟩ := hx.ofb f o ho
  exact ⟨value, id, value, mask, ho, rfl⟩

variable {x : Coxmatches} (hx : x.Typed) {e : MatchException} (he : x.reject = .error e)
include hx he

/-- What is thrown is what comes of the rejection. -/
theorem decides_check (f g : OfbField) (values : List ℕ) :
    Decides (x.check f g values) (x.has f → x.Meets (.oneOf g values)) e := by
  by_cases hf : x.has f
  · by_cases hg : x.has g
    · obtain ⟨n, hn⟩ := hx.hasValue hg
      have hmeets : x.Meets (.oneOf g values) ↔ n ∈ values :=
        ⟨fun ⟨v, hv, h⟩ => hn.unique h ▸ hv, fun h => ⟨n, h, hn⟩⟩
      have hcheck : x.check f g values = if n ∈ values then .ok () else .error e := by
        simp only [check, hf, hg, getValue_eq hn, he, ← ite_not (n ∈ values)]
        rfl
      refine (decides_ite hcheck).congr ?_
      rw [hmeets]
      exact ⟨fun h _ => h, fun h => h hf⟩
    · have hmeets : ¬ x.Meets (.oneOf g values) := fun ⟨_, _, h⟩ => hg (has_of_hasValue h)
      exact decides_of_error (by simp [check, hf, hg, he]) fun h => hmeets (h hf)
  · exact decides_of_ok (by simp [check, hf]) fun h => absurd h hf

/-- Where there is a `vlan_vid`, and where none is asked for. -/
theorem decides_checkVlanPcp (hvid : x.has .vlanPcp → x.has .vlanVid) :
    Decides x.checkVlanPcp (x.has .vlanPcp → x.Meets OfbField.vlanPcp.prerequisite) e := by
  by_cases hf : x.has .vlanPcp
  · obtain ⟨n, hn⟩ := hx.hasValue (hvid hf)
    have hmeets : x.Meets OfbField.vlanPcp.prerequisite ↔ n ≠ Openflow.OFPVID_NONE :=
      ⟨fun ⟨v, hv, h⟩ => hn.unique h ▸ hv, fun h => ⟨n, h, hn⟩⟩
    have hcheck : x.checkVlanPcp = if n ≠ Openflow.OFPVID_NONE then .ok () else .error e := by
      simp only [checkVlanPcp, hf, getValue_eq hn, he, ite_not]
      rfl
    refine (decides_ite hcheck).congr ?_
    rw [hmeets]
    exact ⟨fun h _ => h, fun h => h hf⟩
  · exact decides_of_ok (by simp [checkVlanPcp, hf]) fun h => absurd h hf

omit hx in
theorem decides_checkInPhyPort : Decides x.checkInPhyPort (x.has .inPhyPort → x.has .inPort) e := by
  unfold checkInPhyPort
  split_ifs with h
  · exact decides_of_error he fun hport => h.2 (hport h.1)
  · exact decides_of_ok rfl fun hphy => by_contra fun hn => h ⟨hphy, hn⟩

end Coxmatches

namespace Cofmatch

theorem decided_iff {m : Cofmatch} {e : MatchException} (h : Decides m.checkPrerequisites m.Satisfied e) :
    m.PrerequisitesDecided ↔ e = .badMatchBadPrereq ∨ m.Satisfied := by
  constructor
  · intro hdecided
    by_cases hsat : m.Satisfied
    · exact .inr hsat
    · exact .inl (Except.error.inj ((h.error hsat).symm.trans (hdecided.2 hsat)))
  · intro hor
    refine ⟨h.ok, fun hsat => ?_⟩
    rw [h.error hsat, hor.resolve_right hsat]

/-- The two rules by themselves and the list of the others make up the table. -/
theorem satisfied_iff {m : Cofmatch} : m.Satisfied ↔
    (m.oxms.has .inPhyPort → m.oxms.has .inPort) ∧
      (m.oxms.has .vlanPcp → m.oxms.Meets OfbField.vlanPcp.prerequisite) ∧
        ∀ r ∈ rules, m.oxms.has r.1 → m.oxms.Meets (.oneOf r.2.1 r.2.2) := by
  have hrules : ∀ r ∈ rules, r.1.prerequisite = .oneOf r.2.1 r.2.2 := by decide
  have htable : ∀ (f g : OfbField) (values : List ℕ), f.prerequisite = .oneOf g values → (f, g, values) ∈ rules := by
    intro f g values h
    cases f <;> cases h <;> decide
  constructor
  · intro h
    refine ⟨h .inPhyPort, h .vlanPcp, fun r hr hf => ?_⟩
    rw [← hrules r hr]
    exact h r.1 hf
  · rintro ⟨hport, hpcp, hrest⟩ f hf
    cases hp : f.prerequisite with
    | free => trivial
    | present g =>
      have hphy : f = .inPhyPort ∧ g = .inPort := by
        cases f <;> cases hp
        exact ⟨rfl, rfl⟩
      obtain ⟨rfl, rfl⟩ := hphy
      exact hport hf
    | otherThan g n =>
      have hvlan : f = .vlanPcp := by
        cases f <;> cases hp
        rfl
      subst hvlan
      rw [← hp]
      exact hpcp hf
    | oneOf g values => exact hrest (f, g, values) (htable f g values hp) hf

/-- The check is one of the table, with the exception that comes of a rejection, unless it
asks for the value of a `vlan_vid` that is not there. -/
theorem decides_checkPrerequisites {m : Cofmatch}
    (hversion : m.ofVersion = Openflow12.OFP_VERSION ∨ m.ofVersion = Openflow13.OFP_VERSION) (htyped : m.oxms.Typed)
    {e : MatchException} (he : m.oxms.reject = .error e)
    (hvid : (m.oxms.has .inPhyPort → m.oxms.has .inPort) → m.oxms.has .vlanPcp → m.oxms.has .vlanVid) :
    Decides m.checkPrerequisites m.Satisfied e := by
  have hcheck : m.checkPrerequisites = (do
      m.oxms.checkInPhyPort
      m.oxms.checkVlanPcp
      rules.forM fun (f, g, values) => m.oxms.check f g values) := if_pos hversion
  have hrules : Decides (rules.forM fun (f, g, values) => m.oxms.check f g values)
      (∀ r ∈ rules, m.oxms.has r.1 → m.oxms.Meets (.oneOf r.2.1 r.2.2)) e :=
    decides_forM fun r _ => Coxmatches.decides_check htyped he r.1 r.2.1 r.2.2
  rw [hcheck]
  refine Decides.congr ?_ satisfied_iff.symm
  exact (Coxmatches.decides_checkInPhyPort he).bind fun hport =>
    (Coxmatches.decides_checkVlanPcp htyped he (hvid hport)).bind fun _ => hrules

/-- That value is asked for in vain. -/
theorem checkPrerequisites_escapes {m : Cofmatch}
    (hversion : m.ofVersion = Openflow12.OFP_VERSION ∨ m.ofVersion = Openflow13.OFP_VERSION)
    (hport : m.oxms.has .inPhyPort → m.oxms.has .inPort) (hpcp : m.oxms.has .vlanPcp) (hvid : ¬ m.oxms.has .vlanVid) :
    m.checkPrerequisites = .error .oxmInval := by
  have hnone : m.oxms.find? OfbField.vlanVid.key = none := by
    simpa [Coxmatches.has] using hvid
  have hphy : m.oxms.checkInPhyPort = .ok () := if_neg fun h => h.2 (hport h.1)
  rw [checkPrerequisites, if_pos hversion, hphy, Coxmatches.checkVlanPcp, if_pos hpcp, Coxmatches.getValue, hnone]
  rfl

/-- In the versions 1.2 and 1.3 the prerequisites are decided if and only if there is a
`vlan_vid` to a `vlan_pcp`, or the check before fails already, and the match can be printed
or need not be. -/
theorem prerequisitesDecided_iff {m : Cofmatch}
    (hversion : m.ofVersion = Openflow12.OFP_VERSION ∨ m.ofVersion = Openflow13.OFP_VERSION) (htyped : m.oxms.Typed) :
    m.PrerequisitesDecided ↔
      ((m.oxms.has .vlanPcp → m.oxms.has .vlanVid) ∨ (m.oxms.has .inPhyPort ∧ ¬ m.oxms.has .inPort)) ∧
        (m.oxms.Legible ∨ m.Satisfied) := by
  obtain ⟨e, he, hlegible⟩ := htyped.rejection
  by_cases hcond : (m.oxms.has .vlanPcp → m.oxms.has .vlanVid) ∨ (m.oxms.has .inPhyPort ∧ ¬ m.oxms.has .inPort)
  · have hvid : (m.oxms.has .inPhyPort → m.oxms.has .inPort) → m.oxms.has .vlanPcp → m.oxms.has .vlanVid :=
      fun hport => hcond.resolve_right fun h => h.2 (hport h.1)
    rw [decided_iff (decides_checkPrerequisites hversion htyped he hvid), hlegible, and_iff_right hcond]
  · obtain ⟨hvid, hport⟩ := not_or.mp hcond
    obtain ⟨hpcp, hvid⟩ := Classical.not_imp.mp hvid
    have hport : m.oxms.has .inPhyPort → m.oxms.has .inPort := fun hphy => by_contra fun hn => hport ⟨hphy, hn⟩
    have hsat : ¬ m.Satisfied := fun h => by
      obtain ⟨v, -, hv⟩ := h .vlanPcp hpcp
      exact hvid (Coxmatches.has_of_hasValue hv)
    rw [decided_iff (decides_of_error (checkPrerequisites_escapes hversion hport hpcp hvid) hsat)]
    exact iff_of_false (fun h => h.elim (fun heq => by cases heq) hsat) fun h => hcond h.1

/-- A DSCP without an `eth_type`, and a source that can be printed. -/
def precedence : Cofmatch :=
  ⟨Openflow13.OFP_VERSION, Coxmatches.run [.addOfx .nwSrc 0xc0a80000 0xffff0000, .addOfb .ipDscp 1], 1⟩

theorem prerequisitesDecided_iff_precedence : precedence.PrerequisitesDecided :=
  (prerequisitesDecided_iff (.inr rfl) (Coxmatches.Built.typed ⟨_, rfl⟩)).mpr
    ⟨.inl fun h => by revert h; decide +kernel, .inl (by unfold Coxmatches.Legible; decide +kernel)⟩

/-- A source without a value cannot be printed. -/
example : checkPrerequisites ⟨Openflow13.OFP_VERSION, Coxmatches.run [.setOfx .nwSrc, .addOfb .ipDscp 1], 1⟩ =
    .error .oxmInval := by decide +kernel

/-- A priority, and no VLAN. -/
def priority : Cofmatch := ⟨Openflow13.OFP_VERSION, Coxmatches.run [.addOfb .vlanPcp 3], 1⟩

/-- `eOxmInval` escapes. -/
theorem priority_undecided : priority.oxms.Built ∧ priority.ofVersion = Openflow13.OFP_VERSION ∧
    priority.checkPrerequisites = .error .oxmInval ∧ ¬ priority.PrerequisitesDecided := by
  have hcheck : priority.checkPrerequisites = .error .oxmInval := by decide +kernel
  refine ⟨⟨_, rfl⟩, rfl, hcheck, fun h => ?_⟩
  by_cases hsat : priority.Satisfied
  · cases hcheck.symm.trans (h.1 hsat)
  · cases hcheck.symm.trans (h.2 hsat)

end Cofmatch
end RoflCommon
