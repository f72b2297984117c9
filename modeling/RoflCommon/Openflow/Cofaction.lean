/-
`cofaction` and the classes derived from it.

Most of the classes have members of fixed width only, and differ in where these stand
(`ActionClass.layout`) and in the versions that know the action. The vendor and the
experimenter action go on with a body as long as the action says, and a set-field action
holds one OXM of any class of `coxmatch`.

A decoder gets the memory from the action on and the length that the caller has read from
it. `within_unpack` says that it keeps to that length, and `unpack_error` what it rejects
in memory that ends before.
-/
import RoflCommon.Openflow.Coxmatches
import RoflCommon.Lib.Window

namespace RoflCommon

open Octets Window

/-- The exceptions of the classes that hold actions. -/
inductive CodecException
  | invalid
  | badVersion
  | badActionBadLen
  | badRequestBadLen
  | badRequestBadType
  | badRequestBadVersion
  | oxm (e : MatchException)
deriving DecidableEq, Repr

abbrev Unpacked (α : Type) := Except (Fault CodecException) α

def liftMatch {α : Type} : Except MatchException α → Unpacked α
  | .ok a => .ok a
  | .error e => raise (.oxm e)

/-! ## Classes -/

inductive ActionClass
  | output | setVlanVid | setVlanPcp | stripVlan | setDlSrc | setDlDst | setNwSrc | setNwDst | setNwTos
  | setTpSrc | setTpDst | enqueue | vendor | copyTtlOut | copyTtlIn | setMplsTtl | decMplsTtl | pushVlan
  | popVlan | pushMpls | popMpls | setQueue | group | setNwTtl | decNwTtl | setField | pushPbb | popPbb
  | experimenter
deriving DecidableEq, Repr

namespace ActionClass

/-- `OFPAT_OUTPUT` to `OFPAT_EXPERIMENTER`; the enqueue action of 1.0 has the number of
copy-ttl-out, and the vendor action that of the experimenter's. -/
def type : ActionClass → ℕ
  | output => 0 | setVlanVid => 1 | setVlanPcp => 2 | stripVlan => 3 | setDlSrc => 4 | setDlDst => 5
  | setNwSrc => 6 | setNwDst => 7 | setNwTos => 8 | setTpSrc => 9 | setTpDst => 10 | enqueue => 11
  | copyTtlOut => 11 | copyTtlIn => 12 | setMplsTtl => 15 | decMplsTtl => 16 | pushVlan => 17 | popVlan => 18
  | pushMpls => 19 | popMpls => 20 | setQueue => 21 | group => 22 | setNwTtl => 23 | decNwTtl => 24
  | setField => 25 | pushPbb => 26 | popPbb => 27 | vendor => 0xffff | experimenter => 0xffff

/-- The switch of `cofactions::unpack`. -/
def ofType (v : UInt8) : ℕ → Option ActionClass
  | 0 => some output | 1 => some setVlanVid | 2 => some setVlanPcp | 3 => some stripVlan
  | 4 => some setDlSrc | 5 => some setDlDst | 6 => some setNwSrc | 7 => some setNwDst
  | 8 => some setNwTos | 9 => some setTpSrc | 10 => some setTpDst
  | 11 => some (if v = Openflow10.OFP_VERSION then enqueue else copyTtlOut)
  | 12 => some copyTtlIn | 15 => some setMplsTtl | 16 => some decMplsTtl | 17 => some pushVlan
  | 18 => some popVlan | 19 => some pushMpls | 20 => some popMpls | 21 => some setQueue | 22 => some group
  | 23 => some setNwTtl | 24 => some decNwTtl | 25 => some setField | 26 => some pushPbb | 27 => some popPbb
  | 0xffff => some (if v = Openflow10.OFP_VERSION then vendor else experimenter)
  | _ => none

/-- The versions in which `add_action_*()` does not throw. -/
def added (v : UInt8) : ActionClass → Bool
  | output => true
  | setVlanVid | setVlanPcp | stripVlan | setDlSrc | setDlDst | setNwSrc | setNwDst | setNwTos | setTpSrc | setTpDst
  | enqueue | vendor => v == Openflow10.OFP_VERSION
  | pushPbb | popPbb => Openflow13.OFP_VERSION ≤ v
  | _ => Openflow12.OFP_VERSION ≤ v

/-- `type` and `len`, `struct ofp_action`. -/
def header : Record.Layout := [.field 2, .field 2]

/-- What follows them, in `struct ofp_action_output` and its siblings. -/
def members (v : UInt8) : ActionClass → Record.Layout
  | output =>
    if v = Openflow10.OFP_VERSION then [.field 2, .field 2] else [.field 4, .field 2, .pad 6]
  | setVlanVid | setTpSrc | setTpDst | pushVlan | pushMpls | popMpls | pushPbb => [.field 2, .pad 2]
  | setVlanPcp | setNwTos | setMplsTtl | setNwTtl => [.field 1, .pad 3]
  | setDlSrc | setDlDst => [.field 6, .pad 6]
  | setNwSrc | setNwDst | setQueue | group | vendor | experimenter => [.field 4]
  | enqueue => [.field 2, .pad 6, .field 4]
  | stripVlan | copyTtlOut | copyTtlIn | decMplsTtl | popVlan | decNwTtl | setField | popPbb => [.pad 4]

/-- The versions in which `length()` does not throw. -/
def versions : ActionClass → List UInt8
  | output => [Openflow10.OFP_VERSION, Openflow12.OFP_VERSION, Openflow13.OFP_VERSION]
  | setVlanVid | setVlanPcp | stripVlan | setDlSrc | setDlDst | setNwSrc | setNwDst | setNwTos | setTpSrc | setTpDst
  | enqueue | vendor => [Openflow10.OFP_VERSION]
  | _ => [Openflow12.OFP_VERSION, Openflow13.OFP_VERSION]

/-- The structure. -/
def layout (v : UInt8) (c : ActionClass) : Option Record.Layout :=
  if v ∈ c.versions then some (header ++ c.members v) else none

end ActionClass

/-- The OXM of a set-field action: a `coxmatch`, or one of the classes derived from it. -/
inductive SetFieldOxm
  | oxm (id : OxmId)
  | derived (x : Coxmatch)
deriving DecidableEq, Repr

inductive Cofaction
  | output (portNo : UInt32) (maxLen : UInt16)
  | setVlanVid (vlanVid : UInt16)
  | setVlanPcp (vlanPcp : UInt8)
  | stripVlan
  | setDlSrc (macaddr : Fin (256 ^ 6))
  | setDlDst (macaddr : Fin (256 ^ 6))
  | setNwSrc (addr : UInt32)
  | setNwDst (addr : UInt32)
  | setNwTos (nwTos : UInt8)
  | setTpSrc (tpSrc : UInt16)
  | setTpDst (tpDst : UInt16)
  | enqueue (portNo : UInt16) (queueId : UInt32)
  | vendor (expId : UInt32) (expBody : List UInt8)
  | copyTtlOut
  | copyTtlIn
  | setMplsTtl (mplsTtl : UInt8)
  | decMplsTtl
  | pushVlan (ethType : UInt16)
  | popVlan
  | pushMpls (ethType : UInt16)
  | popMpls (ethType : UInt16)
  | setQueue (queueId : UInt32)
  | group (groupId : UInt32)
  | setNwTtl (nwTtl : UInt8)
  | decNwTtl
  | setField (oxm : SetFieldOxm)
  | pushPbb (ethType : UInt16)
  | popPbb
  | experimenter (expId : UInt32) (expBody : List UInt8)
deriving DecidableEq, Repr

/-- The object of a class without a body, from the fields of its structure. -/
def ActionClass.object (c : ActionClass) (vs : List ℕ) : Cofaction :=
  let a := vs.getD 0 0
  let b := vs.getD 1 0
  match c with
  | output => .output (.ofNat a) (.ofNat b)
  | setVlanVid => .setVlanVid (.ofNat a)
  | setVlanPcp => .setVlanPcp (.ofNat a)
  | stripVlan => .stripVlan
  | setDlSrc => .setDlSrc (Fin.ofNat _ a)
  | setDlDst => .setDlDst (Fin.ofNat _ a)
  | setNwSrc => .setNwSrc (.ofNat a)
  | setNwDst => .setNwDst (.ofNat a)
  | setNwTos => .setNwTos (.ofNat a)
  | setTpSrc => .setTpSrc (.ofNat a)
  | setTpDst => .setTpDst (.ofNat a)
  | enqueue => .enqueue (.ofNat a) (.ofNat b)
  | vendor => .vendor (.ofNat a) []
  | copyTtlOut => .copyTtlOut
  | copyTtlIn => .copyTtlIn
  | setMplsTtl => .setMplsTtl (.ofNat a)
  | decMplsTtl => .decMplsTtl
  | pushVlan => .pushVlan (.ofNat a)
  | popVlan => .popVlan
  | pushMpls => .pushMpls (.ofNat a)
  | popMpls => .popMpls (.ofNat a)
  | setQueue => .setQueue (.ofNat a)
  | group => .group (.ofNat a)
  | setNwTtl => .setNwTtl (.ofNat a)
  | decNwTtl => .decNwTtl
  | setField => .setField (.oxm ⟨0, 0, false, 0⟩)
  | pushPbb => .pushPbb (.ofNat a)
  | popPbb => .popPbb
  | experimenter => .experimenter (.ofNat a) []

/-! ## Unpacking -/

/-- `coxmatch_*::unpack` of the first `n` octets. -/
def Coxmatch.unpackAt (x : Coxmatch) (buf : List UInt8) (n : ℕ) : Unpacked Coxmatch :=
  if n < 4 then raise (.oxm .oxmBadLen)
  else do
    let id := OxmId.ofOctets (← read buf 0 4)
    match x.body with
    | .fixed w _ _ =>
      if n < 4 + w.length id.hasmask then raise (.oxm .oxmBadLen)
      else liftMatch (x.unpack (← read buf 0 (4 + w.length id.hasmask)))
    | .exp _ _ _ =>
      if n < 8 then raise (.oxm .oxmBadLen)
      else
        let header ← read buf 0 8
        let len := 4 + id.oxmLength.toNat
        if n < len then raise (.oxm .oxmBadLen)
        -- these throw before they look at the value
        else if len < 8 ∨ (id.hasmask = true ∧ len % 2 = 1) then liftMatch (x.unpack (header ++ .replicate (len - 8) 0))
        else liftMatch (x.unpack (← read buf 0 len))

namespace SetFieldOxm

/-- `coxmatch_8(0)` to `coxmatch_128(0)`. -/
def new (w : OxmWidth) : Coxmatch := ⟨⟨0, 0, false, 0⟩, .fixed w (w.store 0) w.ones⟩

/-- `coxmatch_exp()`. -/
def newExp : Coxmatch := ⟨⟨0, 0, false, 0⟩, .exp 0 [] []⟩

/-- The switches over the length: the class of the OXM, by its value and mask. -/
def widthOf (hasmask : Bool) (length : ℕ) : Option OxmWidth :=
  match hasmask, length with
  | true, 2 => some .u8
  | true, 4 => some .u16
  | true, 6 => some .u24
  | true, 8 => some .u32
  | true, 12 => some .u48
  | true, 16 => some .u64
  | true, 32 => some .u128
  | false, 1 => some .u8
  | false, 2 => some .u16
  | false, 3 => some .u24
  | false, 4 => some .u32
  | false, 6 => some .u48
  | false, 8 => some .u64
  | false, 16 => some .u128
  | _, _ => none

/-- The switches of `cofaction_set_field::unpack`. What they do not know leaves the object
as it was made. -/
def unpack (id : OxmId) (buf : List UInt8) (n : ℕ) : Unpacked SetFieldOxm :=
  if id.oxmClass ∈ [Openflow.OFPXMC_OPENFLOW_BASIC, Openflow.OFPXMC_PACKET_REGS] then
    if id.oxmLength = 0 then return .oxm (OxmId.ofOctets (← read buf 0 4))
    else
      match widthOf id.hasmask id.oxmLength.toNat with
      | some w => return .derived (← (new w).unpackAt buf n)
      | none => return .oxm ⟨0, 0, false, 0⟩
  else if id.oxmClass = Openflow.OFPXMC_EXPERIMENTER then return .derived (← newExp.unpackAt buf n)
  else return .oxm ⟨0, 0, false, 0⟩

end SetFieldOxm

namespace Cofaction

/-- `cofaction_set_field::unpack`, behind the header. -/
def unpackSetField (len : ℕ) (buf : List UInt8) (buflen : ℕ) : Unpacked Cofaction :=
  if buflen < len then raise .badActionBadLen
  else do
    let id := OxmId.ofOctets (← read buf 4 4)
    let oxmLen := 4 + id.oxmLength.toNat
    if len - 4 < oxmLen then raise .badActionBadLen
    else return .setField (← SetFieldOxm.unpack id (buf.drop 4) oxmLen)

/-- The octets behind the id of a vendor or an experimenter. -/
def unpackBody (len : ℕ) (buf : List UInt8) : Unpacked (List UInt8) :=
  if 8 < len then read buf 8 (len - 8) else .ok []

/-- `unpack` of a new object of the class, in a list of that version. -/
def unpack (v : UInt8) (c : ActionClass) (buf : List UInt8) (buflen : ℕ) : Unpacked Cofaction :=
  if c.added v = false then raise .badVersion
  else
    match c.layout v with
    | none => raise .badVersion
    | some l =>
      if buflen < Record.size l then raise .invalid
      else do
        let len := (← record ActionClass.header buf).getD 1 0
        if len < 4 then raise .badActionBadLen
        else
          let vs := (← record l buf).drop 2
          match c with
          | .setField => unpackSetField len buf buflen
          | .vendor => return .vendor (.ofNat (vs.getD 0 0)) (← unpackBody len buf)
          | .experimenter =>
            if buflen < len then raise .badActionBadLen
            else return .experimenter (.ofNat (vs.getD 0 0)) (← unpackBody len buf)
          | c => return c.object vs

/-! ## Staying within the action -/

end Cofaction

theorem liftMatch_ne_overrun {α : Type} (r : Except MatchException α) : liftMatch r ≠ .error .overrun := by
  cases r with
  | ok a => exact fun h => by cases h
  | error e => exact fun h => by cases h

theorem Coxmatch.within_unpackAt (x : Coxmatch) (n : ℕ) : Within n fun buf => x.unpackAt buf n := by
  intro buf hn
  unfold Coxmatch.unpackAt
  refine .ite (fun _ => .raise _) fun hfour => (KeepsTo.read hn (by omega)).bind fun hdr _ => ?_
  cases x.body with
  | fixed w value mask =>
    exact .ite (fun _ => .raise _) fun hlen =>
      (KeepsTo.read hn (by omega)).bind fun octets _ => .const (liftMatch_ne_overrun _)
  | exp expId value mask =>
    refine .ite (fun _ => .raise _) fun height => (KeepsTo.read hn (by omega)).bind fun header _ => ?_
    exact .ite (fun _ => .raise _) fun hlen => .ite (fun _ => .const (liftMatch_ne_overrun _)) fun _ =>
      (KeepsTo.read hn (by omega)).bind fun octets _ => .const (liftMatch_ne_overrun _)

theorem SetFieldOxm.within_unpack (id : OxmId) {n : ℕ} (hfour : 4 ≤ n) :
    Within n fun buf => SetFieldOxm.unpack id buf n := by
  intro buf hn
  unfold SetFieldOxm.unpack
  refine .ite (fun _ => .ite (fun _ => ?_) fun _ => ?_) fun _ => .ite (fun _ => ?_) fun _ => .ok _
  · exact (KeepsTo.read hn (by omega)).bind fun hdr _ => .ok _
  · cases widthOf id.hasmask id.oxmLength.toNat with
    | none => exact .ok _
    | some w => exact (Coxmatch.within_unpackAt _ n buf hn).bind fun x _ => .ok _
  · exact (Coxmatch.within_unpackAt _ n buf hn).bind fun x _ => .ok _

namespace Cofaction

variable {n : ℕ} {buf : List UInt8}

theorem keepsTo_unpackBody (hn : n ≤ buf.length) {len : ℕ} (hlen : len ≤ n) :
    KeepsTo n (fun buf => unpackBody len buf) buf :=
  .ite (fun _ => .read hn (by omega)) fun _ => .ok _

theorem keepsTo_unpackSetField (hn : n ≤ buf.length) {len buflen : ℕ} (height : 8 ≤ buflen) (hle : buflen ≤ n) :
    KeepsTo n (fun buf => unpackSetField len buf buflen) buf := by
  unfold unpackSetField
  refine .ite (fun _ => .raise _) fun hlen => (KeepsTo.read hn (by omega)).bind fun hdr _ => ?_
  refine .ite (fun _ => .raise _) fun hoxm => ?_
  have hwithin := SetFieldOxm.within_unpack (OxmId.ofOctets hdr)
    (Nat.le_add_right 4 (OxmId.ofOctets hdr).oxmLength.toNat)
  exact (hwithin.drop (by omega) buf hn).bind fun oxm _ => .ok _

/-- The header is read first. -/
theorem header_eq (h : 4 ≤ buf.length) :
    record ActionClass.header buf = (.ok [field buf 0 2, field buf 2 2] : Unpacked (List ℕ)) := by
  have hsize : Record.size ActionClass.header ≤ buf.length := h
  rw [record_eq hsize]
  simp [ActionClass.header, Record.read, field]

theorem eight_le_size {v : UInt8} {c : ActionClass} {l : Record.Layout} (h : c.layout v = some l) : 8 ≤ Record.size l := by
  have hmembers : 4 ≤ Record.size (c.members v) := by
    cases c <;> simp only [ActionClass.members] <;> (try split) <;> decide
  unfold ActionClass.layout at h
  split at h
  · cases h
    rw [ActionClass.header, List.cons_append, List.cons_append, List.nil_append, Record.size_cons, Record.size_cons]
    show 8 ≤ 2 + (2 + Record.size (c.members v))
    omega
  · cases h

/-- A decoder keeps to the length it is handed if that in the header does. -/
theorem keepsTo_unpack {v : UInt8} {c : ActionClass} (hn : n ≤ buf.length) {buflen : ℕ} (hle : buflen ≤ n)
    (hlen : field buf 2 2 ≤ n) : KeepsTo n (fun buf => unpack v c buf buflen) buf := by
  by_cases hadded : c.added v = false
  · simp only [unpack, if_pos hadded]
    exact .raise _
  cases hl : c.layout v with
  | none =>
    simp only [unpack, if_neg hadded, hl]
    exact .raise _
  | some l =>
    simp only [unpack, if_neg hadded, hl]
    have height := eight_le_size hl
    refine .ite (fun _ => .raise _) fun hsize => (KeepsTo.record hn ?_).bind fun hdr hhdr => ?_
    · show 4 ≤ n
      omega
    rw [header_eq (by omega)] at hhdr
    cases hhdr
    refine .ite (fun _ => .raise _) fun hfour => (KeepsTo.record hn (by omega)).bind fun vs _ => ?_
    cases c with
    | setField => exact keepsTo_unpackSetField hn (by omega) hle
    | vendor => exact (keepsTo_unpackBody hn hlen).bind fun body _ => .ok _
    | experimenter => exact .ite (fun _ => .raise _) fun _ => (keepsTo_unpackBody hn hlen).bind fun body _ => .ok _
    | _ => exact .ok _

end Cofaction
end RoflCommon
