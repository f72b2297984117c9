/-
Meter bands: `cofmeter_band`, the classes derived from it, and `cofmeter_bands`, a list of
them for each class. All are of version 1.3, the only one that has meters.

`unpack` of any octets is a loop that need not end (`CofmeterBands.Unpacks`): a band whose length goes
behind the buffer is read there, and the offset has 32 bits. `CofmeterBands.unpack` is that loop where
the offset cannot pass them (`CofmeterBands.unpacks_unpack`).

The base class has a body of its own, which it packs behind the header and unpacks up to
the length it is handed. A DSCP remark band clears it after that. An experimenter band means
to, but `set_body()` is the body of the derived class there, so that its id and its own
body stay in that of the base. What comes out of the decoder (`CofmeterBands.decoded`) is what
comes back from the wire (`CofmeterBands.unpack_packed`).
-/
import RoflCommon.Lib.Iterate
import RoflCommon.Lib.Omap
import RoflCommon.Lib.Window
import RoflCommon.Openflow
import Mathlib.Algebra.BigOperators.Group.List.Basic

namespace RoflCommon

open Octets Window Iterate

def Openflow13.OFPMBT_DROP : ℕ := 1
def Openflow13.OFPMBT_DSCP_REMARK : ℕ := 2
def Openflow13.OFPMBT_EXPERIMENTER : ℕ := 0xffff

/-- The exceptions of the classes that hold meters. -/
inductive MeterException
  | invalid
  | badVersion
  | badRequestBadVersion
  | badRequestBadLen
  | meterModBadBand
deriving DecidableEq, Repr

abbrev Metered (α : Type) := Except (Fault MeterException) α

/-- `cofmeter_band`. -/
structure CofmeterBand where
  type : UInt16
  len : UInt16
  rate : UInt32
  burstSize : UInt32
  body : List UInt8
deriving DecidableEq, Repr

namespace CofmeterBand

/-- `struct ofp_meter_band_header`. -/
def header : Record.Layout := [.field 2, .field 2, .field 4, .field 4]

/-- `cofmeter_band()`, with the type that the derived class sets. -/
def new (type : ℕ) (len : ℕ) : CofmeterBand := ⟨.ofNat type, .ofNat len, 0, 0, .replicate (len - 12) 0⟩

/-- `length()` is virtual: `length` is that of the derived class. -/
def pack (b : CofmeterBand) (length : ℕ) (buf : List UInt8) (buflen : ℕ) : Metered (List UInt8) :=
  if buflen = 0 then .ok buf
  else if buflen < length then raise .invalid
  else do
    let buf ← writeRecord header [b.type.toNat, length % 65536, b.rate.toNat, b.burstSize.toNat] buf
    write buf 12 b.body

def unpack (b : CofmeterBand) (buf : List UInt8) (buflen : ℕ) : Metered CofmeterBand :=
  if buflen = 0 then .ok b
  else if buflen < 12 then raise .badRequestBadLen
  else do
    let vs ← record header buf
    let len := vs.getD 1 0
    if buflen < len then raise .meterModBadBand
    else return ⟨.ofNat (vs.getD 0 0), .ofNat len, .ofNat (vs.getD 2 0), .ofNat (vs.getD 3 0),
      ← read buf 12 (buflen - 12)⟩

end CofmeterBand

/-- The classes derived from it. -/
inductive MeterBand
  | drop (band : CofmeterBand)
  | dscpRemark (band : CofmeterBand) (precLevel : UInt8)
  | experimenter (band : CofmeterBand) (expId : UInt32) (expBody : List UInt8)
deriving DecidableEq, Repr

namespace MeterBand

def band : MeterBand → CofmeterBand
  | drop band => band
  | dscpRemark band _ => band
  | experimenter band _ _ => band

def length : MeterBand → ℕ
  | drop band => 12 + band.body.length
  | dscpRemark _ _ => 16
  | experimenter _ _ expBody => 16 + expBody.length

def pack (b : MeterBand) (buf : List UInt8) (buflen : ℕ) : Metered (List UInt8) :=
  if buflen = 0 then .ok buf
  else
    match b with
    | drop band => band.pack b.length buf buflen
    | dscpRemark band precLevel =>
      if buflen < b.length then raise .invalid
      else do
        let buf ← band.pack b.length buf buflen
        write buf 12 [precLevel]
    | experimenter band expId expBody =>
      if buflen < b.length then raise .meterModBadBand
      else do
        let buf ← band.pack b.length buf buflen
        let buf ← write buf 12 (octets 4 expId.toNat)
        write buf 16 expBody

/-- The band after `pack`, which sets its length. -/
def packed : MeterBand → MeterBand
  | drop band => drop { band with len := .ofNat (12 + band.body.length) }
  | dscpRemark band precLevel => dscpRemark { band with len := .ofNat 16 } precLevel
  | experimenter band expId expBody => experimenter { band with len := .ofNat (16 + expBody.length) } expId expBody

def unpackDrop (buf : List UInt8) (buflen : ℕ) : Metered MeterBand := do
  return drop (← (CofmeterBand.new Openflow13.OFPMBT_DROP 16).unpack buf buflen)

def unpackDscpRemark (buf : List UInt8) (buflen : ℕ) : Metered MeterBand :=
  let new := CofmeterBand.new Openflow13.OFPMBT_DSCP_REMARK 12
  if buflen = 0 then return dscpRemark new 0
  else do
    let band ← new.unpack buf buflen
    if buflen < 16 then raise .invalid
    else return dscpRemark { band with body := [] } (.ofNat (← numberAt buf 12 1))

def unpackExpBody (buf : List UInt8) (buflen : ℕ) : Metered (List UInt8) :=
  if 16 < buflen then read buf 16 (buflen - 16) else .ok []

/-- The body of the base class stays as it was unpacked. -/
def unpackExperimenter (buf : List UInt8) (buflen : ℕ) : Metered MeterBand :=
  let new := CofmeterBand.new Openflow13.OFPMBT_EXPERIMENTER 12
  if buflen = 0 then return experimenter new 0 []
  else if buflen < 16 then raise .meterModBadBand
  else do
    let band ← new.unpack buf buflen
    let expId ← numberAt buf 12 4
    return experimenter band (.ofNat expId) (← unpackExpBody buf buflen)

/-- The switch of `cofmeter_bands::unpack`. -/
def unpackAs (type : ℕ) (buf : List UInt8) (buflen : ℕ) : Option (Metered MeterBand) :=
  if type = Openflow13.OFPMBT_DROP then some (unpackDrop buf buflen)
  else if type = Openflow13.OFPMBT_DSCP_REMARK then some (unpackDscpRemark buf buflen)
  else if type = Openflow13.OFPMBT_EXPERIMENTER then some (unpackExperimenter buf buflen)
  else none

end MeterBand

/-- `cofmeter_bands`: a map for each class. -/
structure CofmeterBands where
  mbsDrop : Omap ℕ CofmeterBand
  mbsDscpRemark : Omap ℕ (CofmeterBand × UInt8)
  mbsExperimenter : Omap ℕ (CofmeterBand × UInt32 × List UInt8)
deriving DecidableEq

namespace CofmeterBands

def empty : CofmeterBands := ⟨.empty, .empty, .empty⟩

/-- In the order in which they are packed. -/
def bands (x : CofmeterBands) : List MeterBand :=
  x.mbsDrop.values.map .drop ++ (x.mbsDscpRemark.values.map fun b => .dscpRemark b.1 b.2) ++
    x.mbsExperimenter.values.map fun b => .experimenter b.1 b.2.1 b.2.2

def length (x : CofmeterBands) : ℕ := (x.bands.map MeterBand.length).sum

/-- The offset has 32 bits. -/
def pack (x : CofmeterBands) (buf : List UInt8) (buflen : ℕ) : Metered (List UInt8) :=
  if buflen = 0 then .ok buf
  else if buflen < x.length then raise .invalid
  else packAll (· % 2 ^ 32) MeterBand.length (fun b buf => b.pack buf b.length) 0 x.bands buf

/-- `add_meter_band_*()`, under the index of the next one. -/
def add (x : CofmeterBands) : MeterBand → CofmeterBands
  | .drop band => { x with mbsDrop := x.mbsDrop.insert x.mbsDrop.size band }
  | .dscpRemark band precLevel =>
    { x with mbsDscpRemark := x.mbsDscpRemark.insert x.mbsDscpRemark.size (band, precLevel) }
  | .experimenter band expId expBody =>
    { x with mbsExperimenter := x.mbsExperimenter.insert x.mbsExperimenter.size (band, expId, expBody) }

/-- The offset may pass the end, which ends the loop. -/
def turn : Turn UInt8 CofmeterBands MeterException := fun x buf n =>
  if n < 12 then .ok none
  else do
    let len ← numberAt buf 2 2
    if len < 12 then return none
    else
      match MeterBand.unpackAs (← numberAt buf 0 2) buf len with
      | some band => return some (x.add (← band), min len n)
      | none => return some (x, min len n)

def unpack (x : CofmeterBands) (buf : List UInt8) (buflen : ℕ) : Metered CofmeterBands :=
  if buflen = 0 then .ok x else loop turn empty buf buflen

end CofmeterBands

/-! ## Bands that were packed -/

namespace MeterBand

/-- A band as the decoder leaves it. -/
def OnWire : MeterBand → Prop
  | drop band => band.type.toNat = Openflow13.OFPMBT_DROP
  | dscpRemark band _ => band.type.toNat = Openflow13.OFPMBT_DSCP_REMARK ∧ band.body = []
  | experimenter band expId expBody =>
    band.type.toNat = Openflow13.OFPMBT_EXPERIMENTER ∧ band.body = octets 4 expId.toNat ++ expBody

instance : DecidablePred OnWire := fun b =>
  match b with
  | drop _ => inferInstanceAs (Decidable (_ = _))
  | dscpRemark _ _ | experimenter _ _ _ => inferInstanceAs (Decidable (_ ∧ _))

theorem onWire_packed {b : MeterBand} : b.packed.OnWire ↔ b.OnWire := by
  cases b <;> exact Iff.rfl

theorem length_packed (b : MeterBand) : b.packed.length = b.length := by
  cases b <;> rfl

theorem twelve_le_length (b : MeterBand) : 12 ≤ b.length := by
  cases b with
  | drop band => exact Nat.le_add_right 12 _
  | dscpRemark band precLevel => exact (by decide : 12 ≤ 16)
  | experimenter band expId expBody => exact (by decide : 12 ≤ 16).trans (Nat.le_add_right 16 _)

/-- The numbers in the header. -/
def fields (b : MeterBand) : List ℕ :=
  [b.band.type.toNat, b.length % 65536, b.band.rate.toNat, b.band.burstSize.toNat]

theorem fits (b : MeterBand) : Record.Fits CofmeterBand.header b.fields :=
  ⟨b.band.type.toNat_lt, Nat.mod_lt _ (by decide), b.band.rate.toNat_lt, b.band.burstSize.toNat_lt, rfl⟩

/-- What is packed behind the header. -/
def bodyImage (b : MeterBand) (slot : List UInt8) : List UInt8 :=
  match b with
  | drop band => band.body
  | dscpRemark _ precLevel => precLevel :: slot.drop 13
  | experimenter _ expId expBody => octets 4 expId.toNat ++ expBody

/-- What is packed into the slot of a band. -/
def image (e : MeterBand × List UInt8) : List UInt8 :=
  Record.write CofmeterBand.header e.1.fields (e.2.take 12) ++ e.1.bodyImage e.2

section

variable {b : MeterBand} {slot : List UInt8} (hslot : slot.length = b.length)

include hslot

theorem length_headerImage : (Record.write CofmeterBand.header b.fields (slot.take 12)).length = 12 := by
  have hle := b.twelve_le_length
  have htake : (slot.take 12).length = 12 := List.length_take_of_le (by omega)
  exact (Record.length_write b.fits htake.ge).trans htake

theorem length_bodyImage : 12 + (b.bodyImage slot).length = b.length := by
  cases b with
  | drop band => rfl
  | dscpRemark band precLevel =>
    rw [bodyImage, List.length_cons, List.length_drop, hslot]
    rfl
  | experimenter band expId expBody =>
    rw [bodyImage, List.length_append, length_octets, ← Nat.add_assoc]
    rfl

theorem length_image : (image (b, slot)).length = b.length := by
  rw [image, List.length_append, length_headerImage hslot, length_bodyImage hslot]

end

theorem pack_eq {b : MeterBand} (hb : b.OnWire) {buf : List UInt8} (h : b.length ≤ buf.length) :
    b.pack buf b.length = .ok (image (b, buf.take b.length) ++ buf.drop b.length) := by
  have hle := b.twelve_le_length
  have htake : (buf.take b.length).take 12 = buf.take 12 := by rw [List.take_take, Nat.min_eq_left hle]
  have hhdr := length_headerImage (List.length_take_of_le h)
  rw [htake] at hhdr
  have hbase : b.band.pack b.length buf b.length =
      write (Record.write CofmeterBand.header b.fields (buf.take 12) ++ buf.drop 12) 12 b.band.body := by
    have hsize : Record.size CofmeterBand.header ≤ buf.length := hle.trans h
    rw [CofmeterBand.pack, if_neg (by omega), if_neg (Nat.lt_irrefl _)]
    show (writeRecord CofmeterBand.header b.fields buf >>= fun buf => write buf 12 b.band.body) = _
    rw [writeRecord_eq b.fields hsize]
    rfl
  rw [image, htake]
  generalize Record.write CofmeterBand.header b.fields (buf.take 12) = hdr at hbase hhdr
  have hwrite : ∀ src t : List UInt8, src.length ≤ t.length →
      (write (hdr ++ t) 12 src : Metered (List UInt8)) = .ok (hdr ++ (src ++ t.drop src.length)) := by
    intro src t hsrc
    rw [← hhdr]
    exact write_append hsrc
  have hrest : (buf.drop 12).length = buf.length - 12 := List.length_drop
  unfold pack
  rw [if_neg (by omega)]
  cases b with
  | drop band =>
    have hlen : (drop band).length = 12 + band.body.length := rfl
    have hbody : band.body.length ≤ (buf.drop 12).length := by omega
    have hpack : band.pack (drop band).length buf (drop band).length =
        write (hdr ++ buf.drop 12) 12 band.body := hbase
    dsimp only
    rw [hpack, hwrite _ _ hbody, List.drop_drop, hlen, bodyImage, List.append_assoc]
  | dscpRemark band precLevel =>
    have hlen : (dscpRemark band precLevel).length = 16 := rfl
    have hempty : band.body = [] := hb.2
    have hone : [precLevel].length ≤ (buf.drop 12).length := by
      rw [List.length_singleton]
      omega
    have hpad : (buf.take 16).drop 13 ++ buf.drop 16 = buf.drop 13 := by
      have hsplit := List.take_append_drop 3 (buf.drop 13)
      rw [List.drop_drop] at hsplit
      rw [List.drop_take]
      exact hsplit
    have hpack : band.pack (dscpRemark band precLevel).length buf (dscpRemark band precLevel).length =
        .ok (hdr ++ buf.drop 12) := by
      refine hbase.trans ?_
      rw [MeterBand.band, hempty, hwrite [] _ (Nat.zero_le _)]
      rfl
    dsimp only
    rw [if_neg (Nat.lt_irrefl _), hpack]
    show write (hdr ++ buf.drop 12) 12 [precLevel] = _
    rw [hwrite _ _ hone, List.drop_drop, hlen, bodyImage, List.append_assoc]
    show _ = Except.ok (hdr ++ precLevel :: ((buf.take 16).drop 13 ++ buf.drop 16))
    rw [hpad]
    rfl
  | experimenter band expId expBody =>
    have hlen : (experimenter band expId expBody).length = 16 + expBody.length := rfl
    have hbody : band.body = octets 4 expId.toNat ++ expBody := hb.2
    have hfour : (octets 4 expId.toNat).length = 4 := length_octets _ _
    have hbase' : band.pack (16 + expBody.length) buf (16 + expBody.length) =
        (.ok (hdr ++ (octets 4 expId.toNat ++ (expBody ++ buf.drop (16 + expBody.length)))) : Metered (List UInt8)) := by
      have hfit : band.body.length ≤ (buf.drop 12).length := by
        rw [hbody, List.length_append, hfour]
        omega
      refine hbase.trans ?_
      rw [MeterBand.band, hwrite _ _ hfit, List.drop_drop, hbody, List.length_append, hfour, List.append_assoc,
        ← Nat.add_assoc]
    have hid : (write (hdr ++ (octets 4 expId.toNat ++ (expBody ++ buf.drop (16 + expBody.length)))) 12
        (octets 4 expId.toNat) : Metered (List UInt8)) =
        .ok (hdr ++ octets 4 expId.toNat ++ (expBody ++ buf.drop (16 + expBody.length))) := by
      rw [hwrite _ _ (by rw [List.length_append]; omega), List.drop_left, List.append_assoc]
    have hexp : (write (hdr ++ octets 4 expId.toNat ++ (expBody ++ buf.drop (16 + expBody.length))) 16 expBody :
        Metered (List UInt8)) =
        .ok (hdr ++ octets 4 expId.toNat ++ (expBody ++ buf.drop (16 + expBody.length))) := by
      have hfront : (hdr ++ octets 4 expId.toNat).length = 16 := by rw [List.length_append, hhdr, hfour]
      rw [← hfront, write_append (by rw [List.length_append]; omega), List.drop_left]
    dsimp only
    rw [if_neg (Nat.lt_irrefl _), hlen, hbase']
    show (write _ 12 (octets 4 expId.toNat) >>= fun buf => write buf 16 expBody) = _
    rw [hid]
    show write _ 16 expBody = _
    rw [hexp, bodyImage]
    simp only [List.append_assoc]

section

variable {b : MeterBand} {slot : List UInt8} (hslot : slot.length = b.length) (hlen : b.length < 65536)

include hslot hlen

theorem read_image (rest : List UInt8) :
    Record.read CofmeterBand.header (image (b, slot) ++ rest) =
      [b.band.type.toNat, b.length, b.band.rate.toNat, b.band.burstSize.toNat] := by
  have hle := b.twelve_le_length
  have htake : (slot.take 12).length = 12 := List.length_take_of_le (by omega)
  have hhdr : Record.size CofmeterBand.header ≤
      (Record.write CofmeterBand.header b.fields (slot.take 12)).length := (length_headerImage hslot).ge
  rw [image, List.append_assoc, Record.read_append hhdr, Record.read_write b.fits htake.ge, fields,
    Nat.mod_eq_of_lt hlen]

/-- The base class takes all that is behind the header into its body. -/
theorem band_unpack_image (new : CofmeterBand) (rest : List UInt8) :
    new.unpack (image (b, slot) ++ rest) b.length =
      .ok { b.band with len := .ofNat b.length, body := b.bodyImage slot } := by
  have hle := b.twelve_le_length
  have hall : b.length ≤ (image (b, slot) ++ rest).length := by
    rw [List.length_append, length_image hslot]
    omega
  have hsize : Record.size CofmeterBand.header ≤ (image (b, slot) ++ rest).length := hle.trans hall
  have hbody : (read (image (b, slot) ++ rest) 12 (b.length - 12) : Metered (List UInt8)) = .ok (b.bodyImage slot) := by
    have hbodyLen : (b.bodyImage slot).length = b.length - 12 := by
      rw [← length_bodyImage hslot, Nat.add_sub_cancel_left]
    rw [read_eq (by omega), image, List.append_assoc, List.drop_left' (length_headerImage hslot),
      List.take_left' hbodyLen]
  rw [CofmeterBand.unpack, if_neg (by omega), if_neg (Nat.not_lt.mpr hle)]
  show (record CofmeterBand.header (image (b, slot) ++ rest) >>= _) = _
  rw [record_eq hsize, read_image hslot hlen]
  show (if b.length < b.length then raise _ else read (image (b, slot) ++ rest) 12 (b.length - 12) >>= _) = _
  rw [if_neg (Nat.lt_irrefl _), hbody]
  show Except.ok _ = Except.ok _
  simp only [List.getD_cons_zero, List.getD_cons_succ, UInt16.ofNat_toNat, UInt32.ofNat_toNat]

theorem numberAt_image {k v : ℕ} {t : List UInt8} (hbody : b.bodyImage slot = octets k v ++ t) (hv : v < 256 ^ k)
    (rest : List UInt8) : (numberAt (image (b, slot) ++ rest) 12 k : Metered ℕ) = .ok v := by
  have hbodyLen := length_bodyImage hslot
  rw [hbody, List.length_append, length_octets] at hbodyLen
  have hhdr := length_headerImage hslot
  have hfield : field (image (b, slot) ++ rest) 12 k = v := by
    rw [image, List.append_assoc, field_append_right hhdr.le, hhdr, hbody, List.append_assoc, field_octets_of_lt hv]
  rw [numberAt_eq (by rw [List.length_append, length_image hslot]; omega), hfield]

/-- A band that was packed comes back as it was left by `pack`. -/
theorem unpackAs_image (hb : b.OnWire) (rest : List UInt8) :
    unpackAs b.band.type.toNat (image (b, slot) ++ rest) b.length = some (.ok b.packed) := by
  have hband := fun new => band_unpack_image hslot hlen new rest
  have hnumber := fun k v t => @numberAt_image b slot hslot hlen k v t
  cases b with
  | drop band =>
    have htype : band.type.toNat = Openflow13.OFPMBT_DROP := hb
    rw [MeterBand.band, htype, unpackAs, if_pos rfl, unpackDrop, hband]
    rfl
  | dscpRemark band precLevel =>
    have htype : band.type.toNat = Openflow13.OFPMBT_DSCP_REMARK := hb.1
    have hempty : band.body = [] := hb.2
    have hprec := hnumber 1 precLevel.toNat (slot.drop 13) (by simp [bodyImage, octets]) precLevel.toNat_lt rest
    have hsixteen : (dscpRemark band precLevel).length = 16 := rfl
    rw [MeterBand.band, htype, unpackAs, if_neg (by decide), if_pos rfl, unpackDscpRemark, if_neg (by omega), hband]
    show some (if (dscpRemark band precLevel).length < 16 then raise .invalid else numberAt _ 12 1 >>= _) = _
    rw [if_neg (by omega), hprec]
    show some (Except.ok _) = _
    rw [packed, UInt8.ofNat_toNat, ← hempty]
    rfl
  | experimenter band expId expBody =>
    have htype : band.type.toNat = Openflow13.OFPMBT_EXPERIMENTER := hb.1
    have hbody : band.body = octets 4 expId.toNat ++ expBody := hb.2
    have hid := hnumber 4 expId.toNat expBody rfl expId.toNat_lt rest
    have hlength : (experimenter band expId expBody).length = 16 + expBody.length := rfl
    have hexp : unpackExpBody (image (experimenter band expId expBody, slot) ++ rest)
        (experimenter band expId expBody).length = .ok expBody := by
      have himage := length_image hslot
      have hdrop : (image (experimenter band expId expBody, slot) ++ rest).drop 16 = expBody ++ rest := by
        rw [image, List.append_assoc, show 16 = 12 + 4 from rfl, ← List.drop_drop,
          List.drop_left' (length_headerImage hslot), bodyImage, List.append_assoc, List.drop_left' (length_octets _ _)]
      unfold unpackExpBody
      by_cases hpos : 16 < (experimenter band expId expBody).length
      · rw [if_pos hpos, read_eq (by rw [List.length_append]; omega), hdrop, hlength, Nat.add_sub_cancel_left,
          List.take_left]
      · rw [if_neg hpos, List.eq_nil_of_length_eq_zero (by omega : expBody.length = 0)]
    rw [MeterBand.band, htype, unpackAs, if_neg (by decide), if_neg (by decide), if_pos rfl, unpackExperimenter,
      if_neg (by omega), if_neg (by omega), hband]
    show some (numberAt _ 12 4 >>= _) = _
    rw [hid]
    show some (unpackExpBody _ _ >>= _) = _
    rw [hexp]
    show some (Except.ok _) = _
    rw [packed, UInt32.ofNat_toNat, bodyImage, ← hbody]
    rfl

end

end MeterBand

/-! ## What the decoders leave -/

theorem CofmeterBand.unpack_ok {new b : CofmeterBand} {buf : List UInt8} {buflen : ℕ} (h : 12 ≤ buflen)
    (hunpack : new.unpack buf buflen = .ok b) :
    buflen ≤ buf.length ∧ b.type.toNat = field buf 0 2 ∧ b.body = (buf.drop 12).take (buflen - 12) := by
  rw [unpack, if_neg (by omega), if_neg (Nat.not_lt.mpr h)] at hunpack
  obtain ⟨vs, hvs, hunpack⟩ := Except.bind_eq_ok.mp hunpack
  dsimp only at hunpack
  split at hunpack
  · cases hunpack
  · obtain ⟨body, hbody, hunpack⟩ := Except.bind_eq_ok.mp hunpack
    cases hunpack
    have hle : 12 + (buflen - 12) ≤ buf.length := by
      by_contra hlt
      rw [read_short (by omega)] at hbody
      cases hbody
    have hsize : Record.size header ≤ buf.length := (Nat.le_add_right 12 _).trans hle
    rw [record_eq hsize] at hvs
    rw [read_eq hle] at hbody
    cases hvs
    cases hbody
    refine ⟨by omega, ?_, rfl⟩
    exact UInt16.toNat_ofNat_of_lt' (field_lt buf 0 2)

namespace MeterBand

theorem unpackExpBody_ok {buf body : List UInt8} {buflen : ℕ} (h : unpackExpBody buf buflen = .ok body) :
    body = (buf.drop 16).take (buflen - 16) := by
  unfold unpackExpBody at h
  split at h
  · by_cases hle : 16 + (buflen - 16) ≤ buf.length
    · rw [read_eq hle] at h
      cases h
      rfl
    · rw [read_short (by omega)] at h
      cases h
  · cases h
    rw [show buflen - 16 = 0 by omega, List.take_zero]

theorem unpackAs_ok {buf : List UInt8} {buflen : ℕ} {b : MeterBand} (h : 12 ≤ buflen)
    (hunpack : unpackAs (field buf 0 2) buf buflen = some (.ok b)) : b.OnWire ∧ b.length ≤ buflen := by
  unfold unpackAs at hunpack
  split_ifs at hunpack with hdrop hdscp hexp
  · obtain ⟨band, hband, hb⟩ := Except.bind_eq_ok.mp (Option.some.inj hunpack)
    cases hb
    obtain ⟨hle, htype, hbody⟩ := CofmeterBand.unpack_ok h hband
    refine ⟨htype.trans hdrop, ?_⟩
    rw [length, hbody, List.length_take, List.length_drop]
    omega
  · have hunpack := Option.some.inj hunpack
    unfold unpackDscpRemark at hunpack
    rw [if_neg (by omega)] at hunpack
    obtain ⟨band, hband, hunpack⟩ := Except.bind_eq_ok.mp hunpack
    obtain ⟨hle, htype, _⟩ := CofmeterBand.unpack_ok h hband
    split at hunpack
    · cases hunpack
    · next hsixteen =>
      obtain ⟨prec, hprec, hb⟩ := Except.bind_eq_ok.mp hunpack
      cases hb
      exact ⟨⟨htype.trans hdscp, rfl⟩, Nat.not_lt.mp hsixteen⟩
  · have hunpack := Option.some.inj hunpack
    unfold unpackExperimenter at hunpack
    rw [if_neg (by omega)] at hunpack
    split at hunpack
    · cases hunpack
    · next hsixteen =>
      obtain ⟨band, hband, hunpack⟩ := Except.bind_eq_ok.mp hunpack
      obtain ⟨hle, htype, hbody⟩ := CofmeterBand.unpack_ok h hband
      obtain ⟨expId, hid, hunpack⟩ := Except.bind_eq_ok.mp hunpack
      obtain ⟨body, hexpBody, hb⟩ := Except.bind_eq_ok.mp hunpack
      cases hb
      rw [numberAt_eq (by omega)] at hid
      cases hid
      have hexpBody := unpackExpBody_ok hexpBody
      refine ⟨⟨htype.trans hexp, ?_⟩, ?_⟩
      · have hfour : ((buf.drop 12).take 4).length = 4 := List.length_take_of_le (by rw [List.length_drop]; omega)
        have hid : octets 4 (field buf 12 4) = (buf.drop 12).take 4 := by
          have hall := octets_number ((buf.drop 12).take 4)
          rwa [hfour] at hall
        have hlt : field buf 12 4 < 2 ^ 32 := field_lt buf 12 4
        rw [hbody, UInt32.toNat_ofNat_of_lt' hlt, hid, hexpBody, show buf.drop 16 = (buf.drop 12).drop 4 by
          rw [List.drop_drop], show buflen - 12 = 4 + (buflen - 16) by omega, List.take_add]
      · rw [length, hexpBody, List.length_take, List.length_drop]
        omega

end MeterBand

/-! ## The list -/

namespace CofmeterBands

/-- A list whose keys count from zero. -/
def of (drop : List CofmeterBand) (dscpRemark : List (CofmeterBand × UInt8))
    (experimenter : List (CofmeterBand × UInt32 × List UInt8)) : CofmeterBands :=
  ⟨.ofList drop, .ofList dscpRemark, .ofList experimenter⟩

def Numbered (x : CofmeterBands) : Prop :=
  x = of x.mbsDrop.values x.mbsDscpRemark.values x.mbsExperimenter.values

instance : DecidablePred Numbered := fun _ => inferInstanceAs (Decidable (_ = _))

/-- The list after `pack`. -/
def packed (x : CofmeterBands) : CofmeterBands where
  mbsDrop := x.mbsDrop.map fun _ b => (MeterBand.drop b).packed.band
  mbsDscpRemark := x.mbsDscpRemark.map fun _ b => ((MeterBand.dscpRemark b.1 b.2).packed.band, b.2)
  mbsExperimenter := x.mbsExperimenter.map fun _ b => ((MeterBand.experimenter b.1 b.2.1 b.2.2).packed.band, b.2)

variable {d : List CofmeterBand} {s : List (CofmeterBand × UInt8)} {e : List (CofmeterBand × UInt32 × List UInt8)}

theorem bands_of : (of d s e).bands =
    d.map .drop ++ (s.map fun b => .dscpRemark b.1 b.2) ++ e.map fun b => .experimenter b.1 b.2.1 b.2.2 := by
  simp [of, bands]

theorem numbered_of : (of d s e).Numbered := by simp [Numbered, of]

theorem add_drop (b : CofmeterBand) : (of d s e).add (.drop b) = of (d ++ [b]) s e := by
  simp [add, of, Omap.insert_ofList]

theorem add_dscpRemark (b : CofmeterBand) (precLevel : UInt8) :
    (of d s e).add (.dscpRemark b precLevel) = of d (s ++ [(b, precLevel)]) e := by
  simp [add, of, Omap.insert_ofList]

theorem add_experimenter (b : CofmeterBand) (expId : UInt32) (expBody : List UInt8) :
    (of d s e).add (.experimenter b expId expBody) = of d s (e ++ [(b, expId, expBody)]) := by
  simp [add, of, Omap.insert_ofList]

/-- A band is added to those of its class. -/
theorem add_of (b : MeterBand) : ∃ d' s' e', (of d s e).add b = of d' s' e' ∧
    (of d' s' e').bands.Perm (b :: (of d s e).bands) := by
  cases b with
  | drop b =>
    refine ⟨_, _, _, add_drop b, ?_⟩
    simp only [bands_of, List.map_append, List.map_cons, List.map_nil, List.append_assoc]
    exact List.perm_middle
  | dscpRemark b precLevel =>
    refine ⟨_, _, _, add_dscpRemark b precLevel, ?_⟩
    simp only [bands_of, List.map_append, List.map_cons, List.map_nil, List.append_assoc]
    exact (List.perm_middle.append_left _).trans List.perm_middle
  | experimenter b expId expBody =>
    refine ⟨_, _, _, add_experimenter b expId expBody, ?_⟩
    simp only [bands_of, List.map_append, List.map_cons, List.map_nil, List.append_assoc]
    exact ((((List.perm_append_singleton _ _).append_left _).trans List.perm_middle).append_left _).trans
      List.perm_middle

/-- What a turn does: it adds a band, or skips one. -/
theorem turn_ok {x x' : CofmeterBands} {buf : List UInt8} {n k : ℕ} (h : turn x buf n = .ok (some (x', k))) :
    12 ≤ n ∧ ∃ len < 65536, k = min len n ∧ 12 ≤ len ∧
      (x' = x ∨ ∃ b : MeterBand, b.OnWire ∧ b.length ≤ len ∧ x' = x.add b) := by
  unfold turn at h
  split at h
  · cases h
  · next hn =>
    obtain ⟨len, hlen, h⟩ := Except.bind_eq_ok.mp h
    split at h
    · cases h
    · next htwelve =>
      have hin : 2 + 2 ≤ buf.length := by
        by_contra hlt
        rw [numberAt_short (by omega)] at hlen
        cases hlen
      rw [numberAt_eq hin] at hlen
      cases hlen
      refine ⟨by omega, field buf 2 2, field_lt buf 2 2, ?_⟩
      obtain ⟨type, htype, h⟩ := Except.bind_eq_ok.mp h
      rw [numberAt_eq (by omega)] at htype
      cases htype
      cases hb : MeterBand.unpackAs (field buf 0 2) buf (field buf 2 2) with
      | none =>
        rw [hb] at h
        cases h
        exact ⟨rfl, by omega, .inl rfl⟩
      | some r =>
        rw [hb] at h
        obtain ⟨b, rfl, h⟩ := Except.bind_eq_ok.mp h
        cases h
        obtain ⟨hwire, hle⟩ := MeterBand.unpackAs_ok (by omega) hb
        exact ⟨rfl, by omega, .inr ⟨b, hwire, hle, rfl⟩⟩

/-- What the decoder leaves: keys that count from zero, bands that came off the wire, and
at most one band behind the end. -/
theorem decoded {x y : CofmeterBands} {buf : List UInt8} {buflen : ℕ} (hpos : 0 < buflen)
    (h : x.unpack buf buflen = .ok y) : y.Numbered ∧ (∀ b ∈ y.bands, b.OnWire) ∧ y.length < buflen + 65536 := by
  rw [unpack, if_neg (by omega)] at h
  have hstep : ∀ (x : CofmeterBands) (buf : List UInt8) (n : ℕ) (x' : CofmeterBands) (k : ℕ),
      ((∃ d s e, x = of d s e) ∧ (∀ b ∈ x.bands, b.OnWire) ∧
        (x.length + n ≤ buflen ∨ n = 0 ∧ x.length < buflen + 65536)) → turn x buf n = .ok (some (x', k)) →
      (∃ d s e, x' = of d s e) ∧ (∀ b ∈ x'.bands, b.OnWire) ∧
        (x'.length + (n - k) ≤ buflen ∨ n - k = 0 ∧ x'.length < buflen + 65536) := by
    rintro x buf n x' k ⟨⟨d, s, e, rfl⟩, hwire, hlen⟩ ht
    obtain ⟨hn, len, hlt, rfl, htwelve, hadd⟩ := turn_ok ht
    rcases hadd with rfl | ⟨b, hb, hle, rfl⟩
    · exact ⟨⟨d, s, e, rfl⟩, hwire, by omega⟩
    · obtain ⟨d', s', e', hof, hperm⟩ := add_of (d := d) (s := s) (e := e) b
      have hlength : ((of d s e).add b).length = b.length + (of d s e).length := by
        rw [hof, length, (hperm.map _).sum_eq, List.map_cons, List.sum_cons]
        rfl
      refine ⟨⟨d', s', e', hof⟩, fun c hc => ?_, by omega⟩
      rw [hof] at hc
      rcases List.mem_cons.mp (hperm.mem_iff.mp hc) with rfl | hc
      · exact hb
      · exact hwire c hc
  have hempty : (of [] [] []).bands = [] := rfl
  have hzero : (of [] [] []).length = 0 := rfl
  obtain ⟨n, ⟨d, s, e, hof⟩, hwire, hlen⟩ := loop_rule hstep
    ⟨⟨[], [], [], rfl⟩, by rw [hempty]; exact fun b hb => absurd hb List.not_mem_nil, .inl (by omega)⟩ h
  exact ⟨hof ▸ numbered_of, hwire, by omega⟩

end CofmeterBands

/-! ## Any octets -/

namespace MeterBand

/-- An experimenter band looks at the length first, and a DSCP remark band after it has taken
all that is behind the header. -/
def Rejected (l : List UInt8) : Prop :=
  field l 2 2 < 16 ∧ (field l 0 2 = Openflow13.OFPMBT_EXPERIMENTER ∨
    field l 0 2 = Openflow13.OFPMBT_DSCP_REMARK ∧ field l 2 2 ≤ l.length)

def types : List ℕ := [Openflow13.OFPMBT_DROP, Openflow13.OFPMBT_DSCP_REMARK, Openflow13.OFPMBT_EXPERIMENTER]

end MeterBand

namespace CofmeterBands

/-- Where the loop of `unpack` is in the buffer, and the bands so far. -/
structure Unpacking where
  offset : ℕ
  bands : CofmeterBands
deriving DecidableEq

/-- A turn of the loop of `unpack`, in a buffer of any length: the offset has 32 bits. What is
left is `buflen - offset` where `offset` is below `buflen`. -/
def body (buf : List UInt8) : Body Unpacking (Fault MeterException) := fun s =>
  if buf.length ≤ s.offset then .ok none
  else if buf.length - s.offset < 12 then .ok none
  else do
    let len ← numberAt (buf.drop s.offset) 2 2
    if len < 12 then return none
    else
      match MeterBand.unpackAs (← numberAt (buf.drop s.offset) 0 2) (buf.drop s.offset) len with
      | some band => return some ⟨(s.offset + len) % 2 ^ 32, s.bands.add (← band)⟩
      | none => return some ⟨(s.offset + len) % 2 ^ 32, s.bands⟩

def start : Unpacking := ⟨0, empty⟩

/-- `unpack` of the buffer comes to an end with `r`. -/
def Unpacks (v : UInt8) (x : CofmeterBands) (buf : List UInt8) (r : Metered CofmeterBands) : Prop :=
  if buf.length = 0 then r = .ok x
  else if v ≠ Openflow13.OFP_VERSION then r = raise .badVersion
  else ∃ r', Ends (body buf) start r' ∧ r = r'.map Unpacking.bands

/-- `unpack` returns or throws, without a read outside of the buffer. -/
def Bounded (v : UInt8) (buf : List UInt8) : Prop := ∀ x, ∃ r, Unpacks v x buf r ∧ r ≠ .error .overrun

/-- From the offset on, the bands that are known lie within the buffer, up to the last 11 octets, to a
length below that of a header, or to a band that is rejected. -/
inductive Confined (buf : List UInt8) : ℕ → Prop
  | ends {off : ℕ} (h : buf.length < off + 12) : Confined buf off
  | short {off : ℕ} (hdr : off + 12 ≤ buf.length) (hlen : field (buf.drop off) 2 2 < 12) : Confined buf off
  | rejected {off : ℕ} (hdr : off + 12 ≤ buf.length) (hlen : 12 ≤ field (buf.drop off) 2 2)
      (h : MeterBand.Rejected (buf.drop off)) : Confined buf off
  | next {off : ℕ} (hdr : off + 12 ≤ buf.length) (hlen : 12 ≤ field (buf.drop off) 2 2)
      (hin : field (buf.drop off) 0 2 ∈ MeterBand.types → off + field (buf.drop off) 2 2 ≤ buf.length)
      (hrest : Confined buf ((off + field (buf.drop off) 2 2) % 2 ^ 32)) : Confined buf off

end CofmeterBands

namespace CofmeterBand

variable {l : List UInt8}

/-- A band that lies within the memory. -/
theorem unpack_inside (new : CofmeterBand) (hlen : 12 ≤ field l 2 2) (hin : field l 2 2 ≤ l.length) :
    ∃ band, new.unpack l (field l 2 2) = .ok band := by
  have hsize : Record.size header = 12 := rfl
  have hfield : (Record.read header l).getD 1 0 = field l 2 2 := rfl
  rw [unpack, if_neg (by omega), if_neg (by omega), record_eq (by omega)]
  show ∃ band, (if field l 2 2 < (Record.read header l).getD 1 0 then _ else _) = _
  rw [hfield, if_neg (lt_irrefl _), read_eq (by omega)]
  exact ⟨_, rfl⟩

/-- The body of a band that goes on behind the memory. -/
theorem unpack_outside (new : CofmeterBand) (hdr : 12 ≤ l.length) (hlong : l.length < field l 2 2) :
    new.unpack l (field l 2 2) = .error .overrun := by
  have hsize : Record.size header = 12 := rfl
  rw [unpack, if_neg (by omega), if_neg (by omega), record_eq (by omega)]
  have hlen : (Record.read header l).getD 1 0 = field l 2 2 := rfl
  show (if field l 2 2 < (Record.read header l).getD 1 0 then _ else _) = _
  rw [hlen, if_neg (lt_irrefl _), read_short (by omega)]
  rfl

end CofmeterBand

namespace MeterBand

variable {l : List UInt8} {r : Metered MeterBand}

theorem mem_types {type n : ℕ} (h : unpackAs type l n = some r) : type ∈ types := by
  unfold unpackAs at h
  split_ifs at h with hdrop hdscp hexp
  · exact hdrop ▸ by decide
  · exact hdscp ▸ by decide
  · exact hexp ▸ by decide

/-- A band that lies within the memory is rejected for its length only. -/
theorem unpackAs_inside (hlen : 12 ≤ field l 2 2) (hin : field l 2 2 ≤ l.length)
    (h : unpackAs (field l 0 2) l (field l 2 2) = some r) :
    (∃ b, r = .ok b) ∨ Throws r ∧ Rejected l := by
  have hband := fun new => CofmeterBand.unpack_inside new hlen hin
  unfold unpackAs at h
  split_ifs at h with hdrop hdscp hexp
  · obtain ⟨band, hband⟩ := hband (.new Openflow13.OFPMBT_DROP 16)
    cases h
    rw [unpackDrop, hband]
    exact .inl ⟨_, rfl⟩
  · obtain ⟨band, hband⟩ := hband (.new Openflow13.OFPMBT_DSCP_REMARK 12)
    cases h
    rw [unpackDscpRemark, if_neg (by omega), hband]
    show (∃ b, (if field l 2 2 < 16 then _ else _) = _) ∨ Throws (if field l 2 2 < 16 then _ else _) ∧ _
    by_cases hshort : field l 2 2 < 16
    · rw [if_pos hshort]
      exact .inr ⟨throws_raise _, hshort, .inr ⟨hdscp, hin⟩⟩
    · rw [if_neg hshort, numberAt_eq (by omega)]
      exact .inl ⟨_, rfl⟩
  · obtain ⟨band, hband⟩ := hband (.new Openflow13.OFPMBT_EXPERIMENTER 12)
    cases h
    rw [unpackExperimenter, if_neg (by omega)]
    by_cases hshort : field l 2 2 < 16
    · rw [if_pos hshort]
      exact .inr ⟨throws_raise _, hshort, .inl hexp⟩
    · rw [if_neg hshort, hband, numberAt_eq (by omega), unpackExpBody]
      split
      · rw [read_eq (by omega)]
        exact .inl ⟨_, rfl⟩
      · exact .inl ⟨_, rfl⟩

/-- A band that does not. -/
theorem unpackAs_outside (hdr : 12 ≤ l.length) (hlong : l.length < field l 2 2) (htype : field l 0 2 ∈ types) :
    unpackAs (field l 0 2) l (field l 2 2) =
      some (if field l 2 2 < 16 ∧ field l 0 2 = Openflow13.OFPMBT_EXPERIMENTER then raise .meterModBadBand
        else .error .overrun) := by
  have hover := fun new => CofmeterBand.unpack_outside new hdr hlong
  have hcases : field l 0 2 = Openflow13.OFPMBT_DROP ∨ field l 0 2 = Openflow13.OFPMBT_DSCP_REMARK ∨
      field l 0 2 = Openflow13.OFPMBT_EXPERIMENTER := by
    simpa [types] using htype
  rcases hcases with h | h | h
  · rw [h, unpackAs, if_pos rfl, unpackDrop, hover, if_neg fun h => absurd h.2 (by decide)]
    rfl
  · rw [h, unpackAs, if_neg (by decide), if_pos rfl, unpackDscpRemark, if_neg (by omega), hover,
      if_neg fun h => absurd h.2 (by decide)]
    rfl
  · rw [h, unpackAs, if_neg (by decide), if_neg (by decide), if_pos rfl, unpackExperimenter, if_neg (by omega)]
    by_cases hshort : field l 2 2 < 16
    · rw [if_pos hshort, if_pos ⟨hshort, rfl⟩]
    · rw [if_neg hshort, if_neg fun h => hshort h.1, hover]
      rfl

/-- A band that is rejected. -/
theorem throws_of_rejected (hlen : 12 ≤ field l 2 2) (h : Rejected l) :
    ∃ r, unpackAs (field l 0 2) l (field l 2 2) = some r ∧ Throws r := by
  obtain ⟨hshort, h | ⟨h, hin⟩⟩ := h
  · rw [h]
    refine ⟨_, rfl, ?_⟩
    rw [unpackExperimenter, if_neg (by omega), if_pos hshort]
    exact throws_raise _
  · obtain ⟨band, hband⟩ := CofmeterBand.unpack_inside (.new Openflow13.OFPMBT_DSCP_REMARK 12) hlen hin
    rw [h]
    refine ⟨_, rfl, ?_⟩
    rw [unpackDscpRemark, if_neg (by omega), hband]
    show Throws (if field l 2 2 < 16 then _ else _)
    rw [if_pos hshort]
    exact throws_raise _

end MeterBand

namespace CofmeterBands

variable {buf : List UInt8} {s : Unpacking}

theorem body_ends (h : buf.length < s.offset + 12) : body buf s = .ok none := by
  unfold body
  split
  · rfl
  · rw [if_pos (by omega)]

theorem body_eq (h : s.offset + 12 ≤ buf.length) : body buf s =
    if field (buf.drop s.offset) 2 2 < 12 then .ok none
    else
      match MeterBand.unpackAs (field (buf.drop s.offset) 0 2) (buf.drop s.offset) (field (buf.drop s.offset) 2 2) with
      | some band => band >>= fun band =>
        .ok (some ⟨(s.offset + field (buf.drop s.offset) 2 2) % 2 ^ 32, s.bands.add band⟩)
      | none => .ok (some ⟨(s.offset + field (buf.drop s.offset) 2 2) % 2 ^ 32, s.bands⟩) := by
  have hleft : 12 ≤ (buf.drop s.offset).length := by
    rw [List.length_drop]
    omega
  rw [body, if_neg (by omega), if_neg (by omega), numberAt_eq (by omega), numberAt_eq (by omega)]
  rfl

/-- The loop keeps to what is confined. -/
theorem Confined.bounded {off : ℕ} (h : Confined buf off) (hs : s.offset = off) :
    ∃ r, Ends (body buf) s r ∧ r ≠ .error .overrun := by
  induction h generalizing s with
  | ends h =>
    subst hs
    exact ⟨_, (ends_done (body_ends h)).mpr rfl, fun h => by cases h⟩
  | short hdr hlen =>
    subst hs
    have hbody := body_eq hdr
    rw [if_pos hlen] at hbody
    exact ⟨_, (ends_done hbody).mpr rfl, fun h => by cases h⟩
  | rejected hdr hlen h =>
    subst hs
    obtain ⟨r, hr, e, rfl⟩ := MeterBand.throws_of_rejected hlen h
    have hbody := body_eq hdr
    rw [if_neg (by omega), hr] at hbody
    exact ⟨_, (ends_error hbody).mpr rfl, fun h => by cases h⟩
  | next hdr hlen hin hrest ih =>
    subst hs
    have hbody := body_eq hdr
    rw [if_neg (by omega)] at hbody
    cases hband : MeterBand.unpackAs (field (buf.drop s.offset) 0 2) (buf.drop s.offset)
        (field (buf.drop s.offset) 2 2) with
    | none =>
      rw [hband] at hbody
      obtain ⟨r, hr, hne⟩ := ih (s := ⟨_, s.bands⟩) rfl
      exact ⟨r, (ends_next hbody).mpr hr, hne⟩
    | some r =>
      have hfit : field (buf.drop s.offset) 2 2 ≤ (buf.drop s.offset).length := by
        have htype := hin (MeterBand.mem_types hband)
        rw [List.length_drop]
        omega
      rw [hband] at hbody
      rcases MeterBand.unpackAs_inside hlen hfit hband with ⟨band, rfl⟩ | ⟨⟨e, rfl⟩, _⟩
      · obtain ⟨r, hr, hne⟩ := ih (s := ⟨_, s.bands.add band⟩) rfl
        exact ⟨r, (ends_next hbody).mpr hr, hne⟩
      · exact ⟨_, (ends_error hbody).mpr rfl, fun h => by cases h⟩

/-- It keeps to nothing else. -/
theorem confined_of_run {k : ℕ} {r : Except (Fault MeterException) Unpacking}
    (hrun : Iterate.run (body buf) k s = some r) (hr : r ≠ .error .overrun) : Confined buf s.offset := by
  induction k generalizing s with
  | zero => cases hrun
  | succ k ih =>
    rw [Iterate.run] at hrun
    by_cases hend : buf.length < s.offset + 12
    · exact .ends hend
    have hdr : s.offset + 12 ≤ buf.length := Nat.not_lt.mp hend
    have hleft : (buf.drop s.offset).length = buf.length - s.offset := List.length_drop
    rw [body_eq hdr] at hrun
    by_cases hshort : field (buf.drop s.offset) 2 2 < 12
    · exact .short hdr hshort
    have hlen := Nat.not_lt.mp hshort
    rw [if_neg hshort] at hrun
    by_cases hover : field (buf.drop s.offset) 0 2 ∈ MeterBand.types ∧
        (buf.drop s.offset).length < field (buf.drop s.offset) 2 2
    · rw [MeterBand.unpackAs_outside (by omega) hover.2 hover.1] at hrun
      by_cases hexp : field (buf.drop s.offset) 2 2 < 16 ∧ field (buf.drop s.offset) 0 2 = Openflow13.OFPMBT_EXPERIMENTER
      · exact .rejected hdr hlen ⟨hexp.1, .inl hexp.2⟩
      · rw [if_neg hexp] at hrun
        exact absurd (Option.some.inj hrun).symm hr
    have hin : field (buf.drop s.offset) 0 2 ∈ MeterBand.types →
        s.offset + field (buf.drop s.offset) 2 2 ≤ buf.length := fun htype => by
        have hfit : ¬(buf.drop s.offset).length < field (buf.drop s.offset) 2 2 := fun hlong => hover ⟨htype, hlong⟩
        omega
    cases hband : MeterBand.unpackAs (field (buf.drop s.offset) 0 2) (buf.drop s.offset)
        (field (buf.drop s.offset) 2 2) with
    | none =>
      rw [hband] at hrun
      exact .next hdr hlen hin (ih hrun)
    | some band =>
      rw [hband] at hrun
      cases band with
      | ok band => exact .next hdr hlen hin (ih hrun)
      | error e =>
        have hfit := hin (MeterBand.mem_types hband)
        rcases MeterBand.unpackAs_inside hlen (by omega) hband with ⟨band, h⟩ | ⟨_, h⟩
        · cases h
        · exact .rejected hdr hlen h

theorem advances_turn : Advances turn := by
  intro x buf n x' m h
  obtain ⟨hn, len, _, rfl, hlen, _⟩ := turn_ok h
  omega

/-- Where the offset cannot pass 32 bits, the loop is that over the octets that are left. -/
theorem ends_loop (hbuf : buf.length + 65536 ≤ 2 ^ 32) (s : Unpacking) : ∃ r, Ends (body buf) s r ∧
    r.map Unpacking.bands = loop turn s.bands (buf.drop s.offset) (buf.length - s.offset) := by
  induction hn : buf.length - s.offset using Nat.strongRecOn generalizing s with
  | ind n ih =>
    by_cases hend : buf.length < s.offset + 12
    · have hturn : turn s.bands (buf.drop s.offset) n = .ok none := if_pos (by omega)
      exact ⟨_, (ends_done (body_ends hend)).mpr rfl, (loop_end hturn).symm⟩
    have hleft : (buf.drop s.offset).length = n := by rw [List.length_drop, hn]
    have hbody := body_eq (s := s) (Nat.not_lt.mp hend)
    have hturn : turn s.bands (buf.drop s.offset) n = if field (buf.drop s.offset) 2 2 < 12 then .ok none
        else
          match MeterBand.unpackAs (field (buf.drop s.offset) 0 2) (buf.drop s.offset)
            (field (buf.drop s.offset) 2 2) with
          | some band => band >>= fun band => .ok (some (s.bands.add band, min (field (buf.drop s.offset) 2 2) n))
          | none => .ok (some (s.bands, min (field (buf.drop s.offset) 2 2) n)) := by
      rw [turn, if_neg (by omega), numberAt_eq (by omega), numberAt_eq (by omega)]
      rfl
    by_cases hshort : field (buf.drop s.offset) 2 2 < 12
    · rw [if_pos hshort] at hbody hturn
      exact ⟨_, (ends_done hbody).mpr rfl, (loop_end hturn).symm⟩
    rw [if_neg hshort] at hbody hturn
    have hlt := field_lt (buf.drop s.offset) 2 2
    generalize hlen : field (buf.drop s.offset) 2 2 = len at hbody hturn hshort hlt
    -- behind the end nothing is left on either side
    have hgo : ∀ bands, body buf s = .ok (some ⟨(s.offset + len) % 2 ^ 32, bands⟩) →
        turn s.bands (buf.drop s.offset) n = .ok (some (bands, min len n)) → ∃ r, Ends (body buf) s r ∧
          r.map Unpacking.bands = loop turn s.bands (buf.drop s.offset) n := by
      intro bands hb ht
      have hoff : (s.offset + len) % 2 ^ 32 = s.offset + len := Nat.mod_eq_of_lt (by omega)
      rw [hoff] at hb
      obtain ⟨r, hr, hmap⟩ := ih (n - min len n) (by omega) ⟨s.offset + len, bands⟩ (by dsimp only; omega)
      refine ⟨r, (ends_next hb).mpr hr, ?_⟩
      have hdrop : buf.drop (s.offset + len) = (buf.drop s.offset).drop (min len n) := by
        rw [List.drop_drop]
        by_cases hle : len ≤ n
        · rw [Nat.min_eq_left hle]
        · rw [Nat.min_eq_right (by omega), List.drop_eq_nil_of_le (by omega), List.drop_eq_nil_of_le (by omega)]
      rw [hmap, loop_next advances_turn ht, ← hdrop]
    cases hband : MeterBand.unpackAs (field (buf.drop s.offset) 0 2) (buf.drop s.offset) len with
    | none =>
      rw [hband] at hbody hturn
      exact hgo _ hbody hturn
    | some r =>
      rw [hband] at hbody hturn
      cases r with
      | ok band => exact hgo _ hbody hturn
      | error e => exact ⟨_, (ends_error hbody).mpr rfl, (loop_error hturn).symm⟩

/-- In such a buffer `unpack` ends, in what it is said to. -/
theorem unpacks_unpack (hbuf : buf.length + 65536 ≤ 2 ^ 32) (x : CofmeterBands) :
    Unpacks Openflow13.OFP_VERSION x buf (x.unpack buf buf.length) := by
  unfold Unpacks unpack
  by_cases hnil : buf.length = 0
  · rw [if_pos hnil, if_pos hnil]
  · rw [if_neg hnil, if_neg hnil, if_neg (not_not.mpr rfl)]
    obtain ⟨r, hr, hmap⟩ := ends_loop hbuf start
    exact ⟨r, hr, hmap.symm⟩

/-- The list keeps to its buffer, just if that is confined. -/
theorem bounded_iff (v : UInt8) (buf : List UInt8) :
    Bounded v buf ↔ v ≠ Openflow13.OFP_VERSION ∨ Confined buf 0 := by
  by_cases hnil : buf.length = 0
  · have hunpacks : ∀ x, Unpacks v x buf (.ok x) := fun x => by rw [Unpacks, if_pos hnil]
    exact ⟨fun _ => .inr (.ends (by omega)), fun _ x => ⟨_, hunpacks x, fun h => by cases h⟩⟩
  by_cases hv : v ≠ Openflow13.OFP_VERSION
  · have hunpacks : ∀ x, Unpacks v x buf (raise .badVersion) := fun x => by rw [Unpacks, if_neg hnil, if_pos hv]
    exact ⟨fun _ => .inl hv, fun _ x => ⟨_, hunpacks x, fun h => by cases h⟩⟩
  have hunpacks : ∀ x r, Unpacks v x buf r ↔
      ∃ r', Ends (body buf) start r' ∧ r = r'.map Unpacking.bands := fun x r => by
    rw [Unpacks, if_neg hnil, if_neg hv]
  constructor
  · intro h
    obtain ⟨r, hr, hne⟩ := h empty
    obtain ⟨r', ⟨k, hrun⟩, rfl⟩ := (hunpacks empty r).mp hr
    refine .inr (confined_of_run hrun fun hover => hne ?_)
    rw [hover]
    rfl
  · intro h x
    obtain ⟨r, hends, hne⟩ := (h.resolve_left hv).bounded (s := start) rfl
    refine ⟨_, (hunpacks x _).mpr ⟨r, hends, rfl⟩, ?_⟩
    cases r with
    | ok s => exact fun h => by cases h
    | error e => exact fun h => hne (congrArg _ (Except.error.inj h))

end CofmeterBands
end RoflCommon
