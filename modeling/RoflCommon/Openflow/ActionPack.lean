/-
Packing actions: `length` and `pack` of `cofaction` and the classes derived from it, and of
`cofactions`.

The bodies of a vendor or an experimenter action and the OXM of a set-field action are
padded to a multiple of eight octets, which nobody writes.
-/
import RoflCommon.Openflow.Cofactions
import RoflCommon.Openflow.MatchEquality

namespace RoflCommon

open Octets Window

namespace SetFieldOxm

/-- What the OXM counts in the length of the action: a `coxmatch` is left out. -/
def length : SetFieldOxm → Unpacked ℕ
  | oxm _ => .ok 0
  | derived x => liftMatch x.length

/-- The OXM as `pack` leaves it. -/
def packed : SetFieldOxm → SetFieldOxm
  | oxm id => oxm id
  | derived x => derived x.packed

def pack (o : SetFieldOxm) (buf : List UInt8) (off : ℕ) : Unpacked (List UInt8) :=
  match o with
  | oxm id => write buf off id.toOctets
  | derived x => do
    let _ ← liftMatch x.length
    write buf off x.packed.image

end SetFieldOxm

namespace Cofaction

def actionClass : Cofaction → ActionClass
  | output .. => .output
  | setVlanVid .. => .setVlanVid
  | setVlanPcp .. => .setVlanPcp
  | stripVlan => .stripVlan
  | setDlSrc .. => .setDlSrc
  | setDlDst .. => .setDlDst
  | setNwSrc .. => .setNwSrc
  | setNwDst .. => .setNwDst
  | setNwTos .. => .setNwTos
  | setTpSrc .. => .setTpSrc
  | setTpDst .. => .setTpDst
  | enqueue .. => .enqueue
  | vendor .. => .vendor
  | copyTtlOut => .copyTtlOut
  | copyTtlIn => .copyTtlIn
  | setMplsTtl .. => .setMplsTtl
  | decMplsTtl => .decMplsTtl
  | pushVlan .. => .pushVlan
  | popVlan => .popVlan
  | pushMpls .. => .pushMpls
  | popMpls .. => .popMpls
  | setQueue .. => .setQueue
  | group .. => .group
  | setNwTtl .. => .setNwTtl
  | decNwTtl => .decNwTtl
  | setField .. => .setField
  | pushPbb .. => .pushPbb
  | popPbb => .popPbb
  | experimenter .. => .experimenter

/-- `get_type()`. -/
def type (a : Cofaction) : ℕ := a.actionClass.type

/-- `length()`, in a list of that version. -/
def length (v : UInt8) (a : Cofaction) : Unpacked ℕ :=
  match a.actionClass.layout v with
  | none => raise .badVersion
  | some l =>
    match a with
    | vendor _ expBody | experimenter _ expBody => .ok (padded (8 + expBody.length))
    | setField oxm => do return padded (4 + (← oxm.length))
    | _ => .ok (Record.size l)

/-- What follows type and length in the structure. In 1.0 a port has 16 bits. -/
def members (v : UInt8) : Cofaction → List ℕ
  | output portNo maxLen =>
    [if v = Openflow10.OFP_VERSION then portNo.toNat % 65536 else portNo.toNat, maxLen.toNat]
  | setVlanVid vlanVid => [vlanVid.toNat]
  | setVlanPcp vlanPcp => [vlanPcp.toNat]
  | setDlSrc macaddr | setDlDst macaddr => [macaddr]
  | setNwSrc addr | setNwDst addr => [addr.toNat]
  | setNwTos nwTos => [nwTos.toNat]
  | setTpSrc tpSrc => [tpSrc.toNat]
  | setTpDst tpDst => [tpDst.toNat]
  | enqueue portNo queueId => [portNo.toNat, queueId.toNat]
  | vendor expId _ | experimenter expId _ => [expId.toNat]
  | setMplsTtl mplsTtl => [mplsTtl.toNat]
  | pushVlan ethType | pushMpls ethType | popMpls ethType | pushPbb ethType => [ethType.toNat]
  | setQueue queueId => [queueId.toNat]
  | group groupId => [groupId.toNat]
  | setNwTtl nwTtl => [nwTtl.toNat]
  | stripVlan | copyTtlOut | copyTtlIn | decMplsTtl | popVlan | decNwTtl | setField _ | popPbb => []

/-- What is packed behind the structure, or over its padding. -/
def packBody (a : Cofaction) (buf : List UInt8) : Unpacked (List UInt8) :=
  match a with
  | vendor _ expBody | experimenter _ expBody => write buf 8 expBody
  | setField oxm => oxm.pack buf 4
  | _ => .ok buf

def pack (v : UInt8) (a : Cofaction) (buf : List UInt8) (buflen : ℕ) : Unpacked (List UInt8) :=
  if buflen = 0 then .ok buf
  else
    match a.actionClass.layout v with
    | none => raise .badVersion
    | some l => do
      let length ← a.length v
      if buflen < length then raise .invalid
      else do
        let buf ← writeRecord l (a.type :: length % 65536 :: a.members v) buf
        a.packBody buf

/-- The action as `pack` leaves it: the OXM gets its length. -/
def packed : Cofaction → Cofaction
  | setField oxm => setField oxm.packed
  | a => a

end Cofaction

namespace Cofactions

/-- `length()` of the actions of a list, one after another. -/
def totalLength (v : UInt8) (actions : List Cofaction) : Unpacked ℕ :=
  actions.foldlM (fun n a => do return n + (← a.length v)) 0

/-- The loop of `pack`, from the octet at which the list goes on. -/
def packFrom (v : UInt8) : List Cofaction → List UInt8 → Unpacked (List UInt8)
  | [], buf => .ok buf
  | a :: actions, buf => do
    let n ← a.length v
    let buf ← a.pack v buf n
    return buf.take n ++ (← packFrom v actions (buf.drop n))

def pack (v : UInt8) (actions : List Cofaction) (buf : List UInt8) (buflen : ℕ) : Unpacked (List UInt8) :=
  if buflen = 0 then .ok buf
  else do
    let n ← totalLength v actions
    if buflen < n then raise .invalid
    else packFrom v actions buf

end Cofactions

/-! ## OXMs that were packed -/

namespace SetFieldOxm

/-- What is packed of the OXM. -/
def image : SetFieldOxm → List UInt8
  | oxm id => id.toOctets
  | derived x => x.packed.image

/-- The id that is packed. -/
def packedId : SetFieldOxm → OxmId
  | oxm id => id
  | derived x => x.packed.oxmId

def content : SetFieldOxm → SetFieldOxm
  | oxm id => oxm id
  | derived x => derived x.content

abbrev known : List UInt16 := [Openflow.OFPXMC_OPENFLOW_BASIC, Openflow.OFPXMC_PACKET_REGS]

/-- The OXM as it was made, or one without a value; a value and a mask of so many octets as
they take; an experimenter's with its length. -/
def Survives : SetFieldOxm → Prop
  | oxm id => id = ⟨0, 0, false, 0⟩ ∨ id.oxmClass ∈ known ∧ id.oxmLength = 0
  | derived ⟨id, .fixed w value mask⟩ =>
    id.oxmClass ∈ known ∧ value.val < 256 ^ w.octets ∧ (id.hasmask = true → mask.val < 256 ^ w.octets)
  | derived ⟨id, .exp _ value mask⟩ =>
    id.oxmClass = Openflow.OFPXMC_EXPERIMENTER ∧
      4 + value.length + (if id.hasmask then mask.length else 0) = id.oxmLength.toNat

/-- What the decoder makes of it. -/
def reread : SetFieldOxm → SetFieldOxm
  | oxm id => oxm id
  | derived ⟨id, .fixed w value mask⟩ =>
    derived ⟨{ id with oxmLength := .ofNat (w.length id.hasmask) },
      .fixed w value (if id.hasmask then mask else w.unmasked w.ones)⟩
  | derived ⟨id, .exp expId value mask⟩ => derived ⟨id, .exp expId value (if id.hasmask then mask else [])⟩

variable {o : SetFieldOxm} {n : ℕ}

theorem ofOctets_image (o : SetFieldOxm) (rest : List UInt8) : OxmId.ofOctets (o.image ++ rest) = o.packedId := by
  cases o with
  | oxm id => exact OxmId.ofOctets_append id rest
  | derived x => exact x.packed.ofOctets_image rest

theorem four_le_image (o : SetFieldOxm) : 4 ≤ o.image.length := by
  cases o with
  | oxm id => exact Nat.le_refl 4
  | derived x =>
    show 4 ≤ x.packed.image.length
    unfold Coxmatch.image
    split <;> simp

theorem liftMatch_eq_ok {α : Type} {r : Except MatchException α} {a : α} : liftMatch r = .ok a ↔ r = .ok a := by
  cases r with
  | ok b => exact ⟨fun h => congrArg _ (Except.ok.inj h), fun h => congrArg _ (Except.ok.inj h)⟩
  | error e => exact ⟨fun h => (by cases h), fun h => by cases h⟩

/-- No OXM writes more than it counts. -/
theorem length_image_le (h : o.length = .ok n) : o.image.length ≤ max 4 n := by
  cases o with
  | oxm id => exact le_max_left 4 n
  | derived x =>
    obtain ⟨id, body⟩ := x
    have hx := liftMatch_eq_ok.mp h
    refine le_trans ?_ (le_max_right 4 n)
    cases body with
    | fixed w value mask =>
      cases hx
      by_cases hmask : id.hasmask = true <;>
        simp [image, Coxmatch.packed, Coxmatch.adjustOxmLength, Coxmatch.image, Coxmatch.hasmask, OxmWidth.length, hmask]
      omega
    | exp expId value mask =>
      obtain ⟨-, rfl⟩ := Coxmatch.length_exp.mp hx
      by_cases hmask : id.hasmask = true <;>
        simp [image, Coxmatch.packed, Coxmatch.image, Coxmatch.hasmask, hmask] <;> omega

theorem pack_eq (h : o.length = .ok n) {buf : List UInt8} (hbuf : 4 + o.image.length ≤ buf.length) :
    o.pack buf 4 = .ok (buf.take 4 ++ o.image ++ buf.drop (4 + o.image.length)) := by
  cases o with
  | oxm id => exact write_eq hbuf
  | derived x =>
    have hx := liftMatch_eq_ok.mp h
    rw [pack, hx]
    exact write_eq hbuf

/-- A value of a class is read up to its width. -/
theorem unpackAt_fixed (id : OxmId) (w : OxmWidth) (value mask : Fin w.capacity) (rest : List UInt8) :
    (new w).unpackAt (image (derived ⟨id, .fixed w value mask⟩) ++ rest) (4 + w.length id.hasmask) =
      .ok ⟨{ id with oxmLength := .ofNat (w.length id.hasmask) }, .fixed w (w.store (value % 256 ^ w.octets))
        (if id.hasmask then w.store (mask % 256 ^ w.octets) else w.unmasked w.ones)⟩ := by
  let y : Coxmatch := ⟨{ id with oxmLength := .ofNat (w.length id.hasmask) }, .fixed w (w.store (value % 256 ^ w.octets))
    (if id.hasmask then w.store (mask % 256 ^ w.octets) else w.unmasked w.ones)⟩
  have hval : ∀ v, (w.store (v % 256 ^ w.octets) : ℕ) = v % 256 ^ w.octets := fun v =>
    OxmWidth.val_store (Nat.mod_lt _ (Nat.pow_pos (by decide)))
  have hlt : ∀ v, (w.store (v % 256 ^ w.octets) : ℕ) < 256 ^ w.octets := fun v => by
    rw [hval]
    exact Nat.mod_lt _ (Nat.pow_pos (by decide))
  have himage : image (derived ⟨id, .fixed w value mask⟩) = y.image := by
    by_cases hmask : id.hasmask = true <;>
      simp [y, image, Coxmatch.packed, Coxmatch.adjustOxmLength, Coxmatch.bodyLength, Coxmatch.image, Coxmatch.hasmask,
        hmask, hval, octets_mod]
  have hdecoded : Coxmatch.Decoded (new w) y := by
    by_cases hmask : id.hasmask = true
    · simp only [y, hmask, if_true]
      exact .masked rfl (hlt _) (hlt _)
    · simp only [y, hmask]
      exact .plain rfl (hlt _)
  have hlen : y.image.length = 4 + w.length id.hasmask := by
    by_cases hmask : id.hasmask = true <;> simp [y, Coxmatch.image, Coxmatch.hasmask, OxmWidth.length, hmask]
    omega
  have hid : OxmId.ofOctets ((y.image ++ rest).take 4) = y.oxmId := by
    rw [OxmId.ofOctets_take (by rw [List.length_append]; omega) (Nat.le_refl 4), Coxmatch.ofOctets_image]
  have hunpack : (new w).unpack y.image = .ok y := by
    have h := Coxmatch.unpack_image hdecoded []
    rwa [List.append_nil] at h
  rw [himage, Coxmatch.unpackAt, if_neg (by omega), read_eq (by rw [List.length_append]; omega)]
  show (if 4 + w.length id.hasmask < 4 + w.length (OxmId.ofOctets ((y.image ++ rest).take 4)).hasmask then _ else
    read (y.image ++ rest) 0 (4 + w.length (OxmId.ofOctets ((y.image ++ rest).take 4)).hasmask) >>= fun octets =>
      liftMatch ((new w).unpack octets)) = _
  rw [hid, if_neg (Nat.lt_irrefl _), read_eq (by rw [List.length_append, Nat.zero_add, hlen]; exact Nat.le_add_right _ _)]
  show liftMatch ((new w).unpack (((y.image ++ rest).drop 0).take (4 + w.length id.hasmask))) = _
  rw [List.drop_zero, List.take_left' hlen, hunpack]
  rfl

/-- What is read of an experimenter's OXM has the length that its id tells. -/
theorem unpackAt_exp {id : OxmId} {buf : List UInt8} (hid : OxmId.ofOctets buf = id) (hbuf : 4 ≤ buf.length)
    {y : Coxmatch} (h : newExp.unpackAt buf (4 + id.oxmLength.toNat) = .ok y) :
    ∃ expId value mask, y = ⟨id, .exp expId value mask⟩ ∧ (id.hasmask = false → mask = []) ∧
      4 + value.length + mask.length = id.oxmLength.toNat := by
  have hunpack : ∃ l, OxmId.ofOctets l = id ∧ newExp.unpack l = .ok y := by
    have hread : OxmId.ofOctets ((buf.drop 0).take 4) = id := by
      rw [List.drop_zero, OxmId.ofOctets_take hbuf (Nat.le_refl 4), hid]
    rw [Coxmatch.unpackAt, if_neg (by omega), read_eq (by omega)] at h
    change (if 4 + id.oxmLength.toNat < 8 then _ else _) = _ at h
    split at h
    · cases h
    · obtain ⟨header, hheader, h⟩ := Except.bind_eq_ok.mp h
      have height : 8 ≤ buf.length := by
        by_contra hshort
        rw [read_short (by omega)] at hheader
        cases hheader
      rw [read_eq (by omega), List.drop_zero] at hheader
      cases hheader
      rw [hread] at h
      dsimp only at h
      rw [if_neg (Nat.lt_irrefl _)] at h
      split at h
      · refine ⟨_, ?_, liftMatch_eq_ok.mp h⟩
        rw [OxmId.ofOctets_extend (by rw [List.length_take]; omega), OxmId.ofOctets_take hbuf (by omega), hid]
      · obtain ⟨octets, hoctets, h⟩ := Except.bind_eq_ok.mp h
        have hlen : 4 + id.oxmLength.toNat ≤ buf.length := by
          by_contra hshort
          rw [read_short (by omega)] at hoctets
          cases hoctets
        rw [read_eq (by omega), List.drop_zero] at hoctets
        cases hoctets
        exact ⟨_, by rw [OxmId.ofOctets_take hbuf (by omega), hid], liftMatch_eq_ok.mp h⟩
  obtain ⟨l, hl, hy⟩ := hunpack
  have hdecoded := Coxmatch.decoded_of_unpack hy
  obtain ⟨value, mask, rfl⟩ := Coxmatch.unpack_exp hy
  rw [hl] at hdecoded ⊢
  cases hdecoded with
  | expMasked hmask hsame hlength =>
    refine ⟨_, _, _, rfl, fun h => ?_, hlength⟩
    rw [hmask] at h
    cases h
  | expPlain hmask hlength =>
    refine ⟨_, _, _, rfl, fun _ => rfl, ?_⟩
    rw [Cmemory.clear, List.length_nil, List.replicate_zero, List.length_nil]
    exact hlength

/-- An experimenter's OXM with the right length is read. -/
theorem unpackAt_exp_image {id : OxmId} {expId : UInt32} {value mask : List UInt8}
    (hlength : 4 + value.length + (if id.hasmask then mask.length else 0) = id.oxmLength.toNat)
    (hsame : id.hasmask = true → value.length = mask.length) (rest : List UInt8) :
    newExp.unpackAt (image (derived ⟨id, .exp expId value mask⟩) ++ rest) (4 + id.oxmLength.toNat) =
      .ok ⟨id, .exp expId value (if id.hasmask then mask else [])⟩ := by
  let y : Coxmatch := ⟨id, .exp expId value (if id.hasmask then mask else [])⟩
  have himage : image (derived ⟨id, .exp expId value mask⟩) = y.image := by
    by_cases hmask : id.hasmask = true <;> simp [y, image, Coxmatch.packed, Coxmatch.image, Coxmatch.hasmask, hmask]
  have hdecoded : Coxmatch.Decoded newExp y := by
    by_cases hmask : id.hasmask = true
    · rw [if_pos hmask] at hlength
      simp only [y, hmask, if_true]
      exact .expMasked hmask (hsame hmask) hlength
    · rw [if_neg hmask] at hlength
      simp only [y, hmask]
      have hplain : id.hasmask = false := by simpa using hmask
      exact @Coxmatch.Decoded.expPlain _ _ _ _ _ _ [] hplain hlength
  have hlen : y.image.length = 4 + id.oxmLength.toNat := by
    by_cases hmask : id.hasmask = true <;>
      simp [y, Coxmatch.image, Coxmatch.hasmask, hmask] at hlength ⊢ <;> omega
  have heven : ¬(4 + id.oxmLength.toNat < 8 ∨ id.hasmask = true ∧ (4 + id.oxmLength.toNat) % 2 = 1) := by
    rintro (hlt | ⟨hmask, hodd⟩)
    · omega
    · have hvalue := hsame hmask
      rw [if_pos hmask] at hlength
      omega
  have hread : ∀ k, k ≤ 4 + id.oxmLength.toNat →
      (read (y.image ++ rest) 0 k : Unpacked (List UInt8)) = .ok ((y.image ++ rest).take k) := fun k hk => by
    rw [read_eq (by rw [List.length_append]; omega), List.drop_zero]
  have hid : OxmId.ofOctets ((y.image ++ rest).take 4) = id := by
    rw [OxmId.ofOctets_take (by rw [List.length_append]; omega) (Nat.le_refl 4), Coxmatch.ofOctets_image]
  have hunpack : newExp.unpack y.image = .ok y := by
    have h := Coxmatch.unpack_image hdecoded []
    rwa [List.append_nil] at h
  rw [himage, Coxmatch.unpackAt, if_neg (by omega), hread 4 (by omega)]
  show (if 4 + id.oxmLength.toNat < 8 then _ else read (y.image ++ rest) 0 8 >>= fun header =>
    if 4 + id.oxmLength.toNat < 4 + (OxmId.ofOctets ((y.image ++ rest).take 4)).oxmLength.toNat then _ else
    if 4 + (OxmId.ofOctets ((y.image ++ rest).take 4)).oxmLength.toNat < 8 ∨
      (OxmId.ofOctets ((y.image ++ rest).take 4)).hasmask = true ∧
        (4 + (OxmId.ofOctets ((y.image ++ rest).take 4)).oxmLength.toNat) % 2 = 1 then _ else
      read (y.image ++ rest) 0 (4 + (OxmId.ofOctets ((y.image ++ rest).take 4)).oxmLength.toNat) >>= fun octets =>
        liftMatch (newExp.unpack octets)) = _
  rw [hid, if_neg (by omega), hread 8 (by omega)]
  show (if 4 + id.oxmLength.toNat < 4 + id.oxmLength.toNat then _ else
    if 4 + id.oxmLength.toNat < 8 ∨ id.hasmask = true ∧ (4 + id.oxmLength.toNat) % 2 = 1 then _ else
      read (y.image ++ rest) 0 (4 + id.oxmLength.toNat) >>= fun octets => liftMatch (newExp.unpack octets)) = _
  rw [if_neg (Nat.lt_irrefl _), if_neg heven, hread _ (Nat.le_refl _), List.take_left' hlen]
  show liftMatch (newExp.unpack y.image) = _
  rw [hunpack]
  rfl

theorem toNat_length (w : OxmWidth) (hasmask : Bool) : (UInt8.ofNat (w.length hasmask)).toNat = w.length hasmask := by
  cases w <;> cases hasmask <;> rfl

theorem widthOf_length (w : OxmWidth) (hasmask : Bool) : widthOf hasmask (w.length hasmask) = some w := by
  cases w <;> cases hasmask <;> rfl

theorem length_ne_zero (w : OxmWidth) (hasmask : Bool) : UInt8.ofNat (w.length hasmask) ≠ 0 := by
  cases w <;> cases hasmask <;> decide

theorem unpack_empty (id : OxmId) {buf : List UInt8} (hclass : id.oxmClass ∈ known) (hlength : id.oxmLength = 0)
    (hbuf : 4 ≤ buf.length) : unpack id buf n = .ok (oxm (OxmId.ofOctets buf)) := by
  rw [unpack, if_pos hclass, if_pos hlength, read_eq (by omega), List.drop_zero]
  show Except.ok (oxm (OxmId.ofOctets (buf.take 4))) = _
  rw [OxmId.ofOctets_take hbuf (Nat.le_refl 4)]

theorem unpack_width (id : OxmId) (hclass : id.oxmClass ∈ known) (hlength : id.oxmLength ≠ 0) (buf : List UInt8) :
    unpack id buf n =
      match widthOf id.hasmask id.oxmLength.toNat with
      | some w => derived <$> (new w).unpackAt buf n
      | none => .ok (oxm ⟨0, 0, false, 0⟩) := by
  rw [unpack, if_pos hclass, if_neg hlength]
  cases widthOf id.hasmask id.oxmLength.toNat <;> rfl

theorem unpack_exp (id : OxmId) (hclass : id.oxmClass = Openflow.OFPXMC_EXPERIMENTER) (buf : List UInt8) :
    unpack id buf n = derived <$> newExp.unpackAt buf n := by
  have hnot : id.oxmClass ∉ known := by
    rw [hclass]
    decide
  rw [unpack, if_neg hnot, if_pos hclass]
  rfl

theorem unpack_other (id : OxmId) (hclass : id.oxmClass ∉ known) (hexp : id.oxmClass ≠ Openflow.OFPXMC_EXPERIMENTER)
    (buf : List UInt8) : unpack id buf n = .ok (oxm ⟨0, 0, false, 0⟩) := by
  rw [unpack, if_neg hclass, if_neg hexp]
  rfl

/-- A class that holds numbers is read by its width. -/
theorem unpack_fixed {id : OxmId} (hclass : id.oxmClass ∈ known) (w : OxmWidth) (value mask : Fin w.capacity)
    (rest : List UInt8) :
    unpack { id with oxmLength := .ofNat (w.length id.hasmask) } (image (derived ⟨id, .fixed w value mask⟩) ++ rest)
      (4 + w.length id.hasmask) =
      .ok (derived ⟨{ id with oxmLength := .ofNat (w.length id.hasmask) }, .fixed w (w.store (value % 256 ^ w.octets))
        (if id.hasmask then w.store (mask % 256 ^ w.octets) else w.unmasked w.ones)⟩) := by
  rw [unpack_width { id with oxmLength := .ofNat (w.length id.hasmask) } hclass (length_ne_zero w id.hasmask)]
  dsimp only
  rw [toNat_length, widthOf_length]
  dsimp only
  rw [unpackAt_fixed]
  rfl

/-- An OXM that survives is read as it was. -/
theorem unpack_image (hn : o.length = .ok n) (ho : o.Survives) (rest : List UInt8) :
    unpack o.packedId (o.image ++ rest) (4 + o.packedId.oxmLength.toNat) = .ok o.reread := by
  cases o with
  | oxm id =>
    rcases ho with rfl | ⟨hclass, hzero⟩
    · rfl
    · have hbuf : 4 ≤ (id.toOctets ++ rest).length := by
        rw [List.length_append]
        exact Nat.le_add_right 4 _
      show unpack id (id.toOctets ++ rest) _ = _
      rw [unpack_empty id hclass hzero hbuf, OxmId.ofOctets_append]
      rfl
  | derived x =>
    obtain ⟨id, body⟩ := x
    cases body with
    | fixed w value mask =>
      obtain ⟨hclass, hvalue, hmask⟩ := ho
      have hstore : ∀ v : Fin w.capacity, v.val < 256 ^ w.octets → w.store (v % 256 ^ w.octets) = v := fun v hv => by
        rw [Nat.mod_eq_of_lt hv, OxmWidth.store_val]
      show unpack { id with oxmLength := .ofNat (w.length id.hasmask) } _
        (4 + (UInt8.ofNat (w.length id.hasmask)).toNat) = _
      rw [toNat_length, unpack_fixed hclass, hstore value hvalue, reread]
      by_cases h : id.hasmask = true
      · rw [if_pos h, if_pos h, hstore mask (hmask h)]
      · rw [if_neg h, if_neg h]
    | exp expId value mask =>
      obtain ⟨hclass, hlength⟩ := ho
      have hsame := (Coxmatch.length_exp.mp (liftMatch_eq_ok.mp hn)).1
      show unpack id _ (4 + id.oxmLength.toNat) = _
      rw [unpack_exp id hclass, unpackAt_exp_image hlength hsame]
      rfl

/-- Reading an OXM keeps what it says. -/
theorem content_reread (o : SetFieldOxm) : o.reread.content = o.packed.content := by
  cases o with
  | oxm id => rfl
  | derived x =>
    obtain ⟨id, body⟩ := x
    cases body with
    | fixed w value mask =>
      by_cases h : id.hasmask = true <;>
        simp [reread, packed, content, Coxmatch.content, Coxmatch.packed, Coxmatch.adjustOxmLength, Coxmatch.bodyLength,
          Coxmatch.hasmask, h]
    | exp expId value mask =>
      by_cases h : id.hasmask = true <;>
        simp [reread, packed, content, Coxmatch.content, Coxmatch.packed, Coxmatch.hasmask, h]

theorem unpackAt_new {w : OxmWidth} {buf : List UInt8} {y : Coxmatch} (h : (new w).unpackAt buf n = .ok y) :
    ∃ id value mask, y = ⟨id, .fixed w value mask⟩ := by
  rw [Coxmatch.unpackAt] at h
  split at h
  · cases h
  · obtain ⟨octets, _, h⟩ := Except.bind_eq_ok.mp h
    simp only [new] at h
    split at h
    · cases h
    · obtain ⟨value, _, h⟩ := Except.bind_eq_ok.mp h
      obtain ⟨v, m, rfl⟩ := Coxmatch.unpack_fixed (liftMatch_eq_ok.mp h)
      exact ⟨_, v, m, rfl⟩

/-- The class shows in what the OXM says. -/
def isExp : SetFieldOxm → Bool
  | derived ⟨_, .exp _ _ _⟩ => true
  | _ => false

theorem isExp_content (o : SetFieldOxm) : o.content.isExp = o.isExp := by
  cases o with
  | oxm id => rfl
  | derived x =>
    obtain ⟨id, body⟩ := x
    cases body <;> by_cases h : id.hasmask = true <;> simp [content, Coxmatch.content, Coxmatch.hasmask, isExp, h]

theorem lt_of_store {w : OxmWidth} {v : Fin w.capacity} (h : w.store (v % 256 ^ w.octets) = v) :
    v.val < 256 ^ w.octets := by
  have hpos : 0 < 256 ^ w.octets := Nat.pow_pos (by decide)
  have hmod : v.val % 256 ^ w.octets = v.val := by
    have hval := congrArg Fin.val h
    rwa [OxmWidth.val_store (Nat.mod_lt _ hpos)] at hval
  rw [← hmod]
  exact Nat.mod_lt _ hpos

theorem derived_eq_ok {r : Unpacked Coxmatch} {p : SetFieldOxm} (h : derived <$> r = .ok p) :
    ∃ y, r = .ok y ∧ p = derived y := by
  cases r with
  | error e => cases h
  | ok y =>
    cases h
    exact ⟨y, rfl, rfl⟩

/-- One that is read with the same content does. -/
theorem survives_of_unpack {rest : List UInt8} {o' : SetFieldOxm}
    (h : unpack o.packedId (o.image ++ rest) (4 + o.packedId.oxmLength.toNat) = .ok o')
    (hcontent : o'.content = o.packed.content) : o.Survives := by
  have hfour : 4 ≤ (o.image ++ rest).length := by
    rw [List.length_append]
    exact o.four_le_image.trans (Nat.le_add_right _ _)
  have hkind : o'.isExp = o.packed.isExp := by rw [← isExp_content, hcontent, isExp_content]
  cases o with
  | oxm id =>
    change unpack id _ (4 + id.oxmLength.toNat) = _ at h
    by_cases hclass : id.oxmClass ∈ known
    · by_cases hzero : id.oxmLength = 0
      · exact .inr ⟨hclass, hzero⟩
      · rw [unpack_width id hclass hzero] at h
        split at h
        · obtain ⟨y, _, rfl⟩ := derived_eq_ok h
          cases hcontent
        · cases h
          exact .inl (SetFieldOxm.oxm.inj hcontent).symm
    · by_cases hexp : id.oxmClass = Openflow.OFPXMC_EXPERIMENTER
      · rw [unpack_exp id hexp] at h
        obtain ⟨y, _, rfl⟩ := derived_eq_ok h
        cases hcontent
      · rw [unpack_other id hclass hexp] at h
        cases h
        exact .inl (SetFieldOxm.oxm.inj hcontent).symm
  | derived x =>
    obtain ⟨id, body⟩ := x
    cases body with
    | fixed w value mask =>
      change unpack { id with oxmLength := .ofNat (w.length id.hasmask) } _
        (4 + (UInt8.ofNat (w.length id.hasmask)).toNat) = _ at h
      by_cases hclass : id.oxmClass ∈ known
      · rw [toNat_length, unpack_fixed hclass] at h
        cases h
        by_cases hmask : id.hasmask = true
        · simp only [content, Coxmatch.content, Coxmatch.hasmask, packed, Coxmatch.packed, Coxmatch.adjustOxmLength, hmask,
            if_true, derived.injEq, Coxmatch.mk.injEq, OxmBody.fixed.injEq, heq_eq_eq, true_and] at hcontent
          exact ⟨hclass, lt_of_store hcontent.2.1, fun _ => lt_of_store hcontent.2.2⟩
        · simp only [content, Coxmatch.content, Coxmatch.hasmask, packed, Coxmatch.packed, Coxmatch.adjustOxmLength, hmask,
            Bool.false_eq_true, if_false, derived.injEq, Coxmatch.mk.injEq, OxmBody.fixed.injEq, heq_eq_eq,
            true_and] at hcontent
          exact ⟨hclass, lt_of_store hcontent.2.1, fun h => absurd h hmask⟩
      · by_cases hexp : id.oxmClass = Openflow.OFPXMC_EXPERIMENTER
        · rw [unpack_exp { id with oxmLength := .ofNat (w.length id.hasmask) } hexp] at h
          obtain ⟨y, hy, rfl⟩ := derived_eq_ok h
          obtain ⟨expId', value', mask', rfl, _⟩ := unpackAt_exp
            (ofOctets_image (derived ⟨id, .fixed w value mask⟩) rest) hfour hy
          cases hkind
        · rw [unpack_other { id with oxmLength := .ofNat (w.length id.hasmask) } hclass hexp] at h
          cases h
          cases hcontent
    | exp expId value mask =>
      change unpack id _ (4 + id.oxmLength.toNat) = _ at h
      by_cases hclass : id.oxmClass ∈ known
      · by_cases hzero : id.oxmLength = 0
        · rw [unpack_empty id hclass hzero hfour] at h
          cases h
          cases hcontent
        · rw [unpack_width id hclass hzero] at h
          split at h
          · obtain ⟨y, hy, rfl⟩ := derived_eq_ok h
            obtain ⟨id', value', mask', rfl⟩ := unpackAt_new hy
            cases hkind
          · cases h
            cases hkind
      · by_cases hexp : id.oxmClass = Openflow.OFPXMC_EXPERIMENTER
        · rw [unpack_exp id hexp] at h
          obtain ⟨y, hy, rfl⟩ := derived_eq_ok h
          obtain ⟨expId', value', mask', rfl, hempty, hlength⟩ :=
            unpackAt_exp (ofOctets_image (derived ⟨id, .exp expId value mask⟩) rest) hfour hy
          refine ⟨hexp, ?_⟩
          change (id.hasmask = false → mask' = []) at hempty
          change 4 + value'.length + mask'.length = id.oxmLength.toNat at hlength
          by_cases hmask : id.hasmask = true
          · simp only [content, Coxmatch.content, Coxmatch.hasmask, packed, Coxmatch.packed, packedId, hmask, if_true,
              derived.injEq, Coxmatch.mk.injEq, OxmBody.exp.injEq, true_and] at hcontent
            rw [if_pos hmask, ← hcontent.2.1, ← hcontent.2.2]
            exact hlength
          · simp only [content, Coxmatch.content, Coxmatch.hasmask, packed, Coxmatch.packed, packedId, hmask,
              Bool.false_eq_true, if_false, derived.injEq, Coxmatch.mk.injEq, OxmBody.exp.injEq, true_and] at hcontent
            have hnil : mask' = [] := hempty (by simpa using hmask)
            rw [hnil, List.length_nil, Nat.add_zero] at hlength
            rw [if_neg hmask, Nat.add_zero]
            rw [← hcontent.2.1]
            exact hlength
        · rw [unpack_other id hclass hexp] at h
          cases h
          cases hcontent

/-- An OXM that survives has the length in its id. -/
theorem length_image (ho : o.Survives) : o.image.length = 4 + o.packedId.oxmLength.toNat := by
  cases o with
  | oxm id =>
    rcases ho with rfl | ⟨_, hzero⟩
    · rfl
    · show 4 = 4 + id.oxmLength.toNat
      rw [hzero]
      rfl
  | derived x =>
    obtain ⟨id, body⟩ := x
    cases body with
    | fixed w value mask =>
      show _ = 4 + (UInt8.ofNat (w.length id.hasmask)).toNat
      rw [toNat_length]
      by_cases hmask : id.hasmask = true <;>
        simp [image, Coxmatch.packed, Coxmatch.adjustOxmLength, Coxmatch.image, Coxmatch.hasmask, OxmWidth.length, hmask]
      omega
    | exp expId value mask =>
      obtain ⟨-, hlength⟩ := ho
      show _ = 4 + id.oxmLength.toNat
      rw [← hlength]
      by_cases hmask : id.hasmask = true <;> simp [image, Coxmatch.packed, Coxmatch.image, Coxmatch.hasmask, hmask]
      omega

end SetFieldOxm

/-! ## Actions that were packed -/

namespace Cofaction

variable {v : UInt8} {a : Cofaction} {l : Record.Layout} {n : ℕ} {slot : List UInt8}

def content : Cofaction → Cofaction
  | setField oxm => setField oxm.content
  | a => a

/-- What the decoder makes of it. -/
def reread : Cofaction → Cofaction
  | setField oxm => setField oxm.reread
  | a => a

/-- The version knows the action, and its length fits; in 1.0 the port does as well. The
body of an experimenter's needs no padding, and an OXM is read as it was. -/
def Survives (v : UInt8) (a : Cofaction) : Prop :=
  a.actionClass.added v = true ∧ (∃ n, a.length v = .ok n ∧ n < 65536) ∧
    match a with
    | output portNo _ => v = Openflow10.OFP_VERSION → portNo.toNat < 65536
    | vendor _ expBody | experimenter _ expBody => expBody.length % 8 = 0
    | setField oxm => oxm.Survives
    | _ => True

/-- Nothing is packed behind the structure. -/
def plain : Cofaction → Bool
  | vendor _ _ | experimenter _ _ | setField _ => false
  | _ => true

/-- Where something is packed, and what. -/
def bodyOffset : Cofaction → ℕ
  | vendor _ _ | experimenter _ _ => 8
  | _ => 4

def bodyImage : Cofaction → List UInt8
  | vendor _ expBody | experimenter _ expBody => expBody
  | setField oxm => oxm.image
  | _ => []

/-- The fields of the structure. -/
def fields (v : UInt8) (a : Cofaction) (n : ℕ) : List ℕ := a.type :: n % 65536 :: a.members v

/-- What `pack` leaves of `n` octets. -/
def frame (v : UInt8) (a : Cofaction) (n : ℕ) (slot : List UInt8) : List UInt8 :=
  let head := Record.write (ActionClass.header ++ a.actionClass.members v) (a.fields v n) slot
  head.take a.bodyOffset ++ a.bodyImage ++ head.drop (a.bodyOffset + a.bodyImage.length)

theorem content_reread (a : Cofaction) : a.reread.content = a.packed.content := by
  cases a with
  | setField oxm => exact congrArg setField oxm.content_reread
  | _ => rfl

theorem layout_eq {c : ActionClass} (h : c.layout v = some l) : v ∈ c.versions ∧ l = ActionClass.header ++ c.members v := by
  unfold ActionClass.layout at h
  split at h
  · next hv => exact ⟨hv, (Option.some.inj h).symm⟩
  · cases h

theorem layout_of_length (h : a.length v = .ok n) :
    a.actionClass.layout v = some (ActionClass.header ++ a.actionClass.members v) := by
  unfold length at h
  split at h
  · cases h
  · next l hl =>
    obtain ⟨_, rfl⟩ := layout_eq hl
    exact hl

/-- The switch finds the class. -/
theorem ofType_type (h : a.length v = .ok n) : ActionClass.ofType v a.type = some a.actionClass := by
  have hv := (layout_eq (layout_of_length h)).1
  cases a with
  | enqueue | vendor =>
    cases List.mem_singleton.mp hv
    rfl
  | copyTtlOut | experimenter =>
    have hne : v ≠ Openflow10.OFP_VERSION := fun h => by
      change v ∈ [Openflow12.OFP_VERSION, Openflow13.OFP_VERSION] at hv
      rw [h] at hv
      exact absurd hv (by decide)
    simp [actionClass, type, ActionClass.type, ActionClass.ofType, hne]
  | _ => rfl

theorem type_lt (a : Cofaction) : a.type < 256 ^ 2 := by
  unfold type
  cases a.actionClass <;> decide

theorem fits (v : UInt8) (a : Cofaction) (n : ℕ) :
    Record.Fits (ActionClass.header ++ a.actionClass.members v) (a.fields v n) := by
  refine ⟨a.type_lt, Nat.mod_lt _ (by decide), ?_⟩
  cases a with
  | output portNo maxLen =>
    by_cases hv : v = Openflow10.OFP_VERSION
    · subst hv
      exact ⟨Nat.mod_lt _ (by decide), maxLen.toNat_lt, rfl⟩
    · simp only [actionClass, ActionClass.members, members, hv, if_false]
      exact ⟨portNo.toNat_lt, maxLen.toNat_lt, rfl⟩
  | setDlSrc x | setDlDst x => exact ⟨x.isLt, rfl⟩
  | setVlanVid x | setTpSrc x | setTpDst x | pushVlan x | pushMpls x | popMpls x | pushPbb x => exact ⟨x.toNat_lt, rfl⟩
  | setVlanPcp x | setNwTos x | setMplsTtl x | setNwTtl x => exact ⟨x.toNat_lt, rfl⟩
  | setNwSrc x | setNwDst x | setQueue x | group x | vendor x | experimenter x => exact ⟨x.toNat_lt, rfl⟩
  | enqueue x y => exact ⟨x.toNat_lt, y.toNat_lt, rfl⟩
  | _ => rfl

theorem length_plain (ha : a.plain = true) (hl : a.actionClass.layout v = some l) : a.length v = .ok (Record.size l) := by
  rw [length, hl]
  cases a <;> first | rfl | cases ha

theorem length_body {expId : UInt32} {expBody : List UInt8} (ha : a = vendor expId expBody ∨ a = experimenter expId expBody)
    (hl : a.actionClass.layout v = some l) : a.length v = .ok (padded (8 + expBody.length)) := by
  rw [length, hl]
  rcases ha with rfl | rfl <;> rfl

theorem length_setField {oxm : SetFieldOxm} (h : (setField oxm).length v = .ok n) :
    ∃ k, oxm.length = .ok k ∧ n = padded (4 + k) := by
  have hl := layout_of_length h
  rw [length, hl] at h
  obtain ⟨k, hk, h⟩ := Except.bind_eq_ok.mp h
  exact ⟨k, hk, (Except.ok.inj h).symm⟩

/-- An action without a body, with one, and with an OXM. -/
theorem plain_or (a : Cofaction) :
    a.plain = true ∨ (∃ expId expBody, a = vendor expId expBody ∨ a = experimenter expId expBody) ∨
      ∃ oxm, a = setField oxm := by
  cases a with
  | vendor expId expBody => exact .inr (.inl ⟨_, _, .inl rfl⟩)
  | experimenter expId expBody => exact .inr (.inl ⟨_, _, .inr rfl⟩)
  | setField oxm => exact .inr (.inr ⟨oxm, rfl⟩)
  | _ => exact .inl rfl

theorem body_of_plain (ha : a.plain = true) : a.bodyOffset = 4 ∧ a.bodyImage = [] := by
  cases a <;> first | exact ⟨rfl, rfl⟩ | cases ha

/-- Structure and body have room in it. -/
theorem size_le (h : a.length v = .ok n) :
    Record.size (ActionClass.header ++ a.actionClass.members v) ≤ n ∧ a.bodyOffset + a.bodyImage.length ≤ n := by
  have hl := layout_of_length h
  have height := eight_le_size hl
  rcases a.plain_or with ha | ⟨expId, expBody, ha⟩ | ⟨oxm, rfl⟩
  · rw [length_plain ha hl] at h
    cases h
    rw [(body_of_plain ha).1, (body_of_plain ha).2]
    exact ⟨le_rfl, by rw [List.length_nil]; omega⟩
  · rw [length_body ha hl] at h
    cases h
    have hle := le_padded (8 + expBody.length)
    rcases ha with rfl | rfl <;> exact ⟨(Nat.le_add_right 8 _).trans hle, hle⟩
  · obtain ⟨k, hk, rfl⟩ := length_setField h
    have hle := le_padded (4 + k)
    have hmod := padded_mod (4 + k)
    have himage := oxm.length_image_le hk
    constructor
    · show 8 ≤ _
      omega
    · show 4 + oxm.image.length ≤ _
      omega

theorem length_head (h : a.length v = .ok n) (hslot : slot.length = n) :
    (Record.write (ActionClass.header ++ a.actionClass.members v) (a.fields v n) slot).length = n := by
  rw [Record.length_write (fits v a n) (by rw [hslot]; exact (size_le h).1), hslot]

theorem length_frame (h : a.length v = .ok n) (hslot : slot.length = n) : (a.frame v n slot).length = n := by
  have hbody := (size_le h).2
  have hhead := length_head h hslot
  rw [frame, List.length_append, List.length_append, List.length_take, List.length_drop, hhead]
  omega

theorem packBody_eq (h : a.length v = .ok n) {buf : List UInt8} (hbuf : n ≤ buf.length) :
    a.packBody buf = .ok (buf.take a.bodyOffset ++ a.bodyImage ++ buf.drop (a.bodyOffset + a.bodyImage.length)) := by
  have hbody := (size_le h).2
  rcases a.plain_or with ha | ⟨expId, expBody, ha⟩ | ⟨oxm, rfl⟩
  · rw [(body_of_plain ha).1, (body_of_plain ha).2, List.append_nil, List.length_nil, Nat.add_zero, List.take_append_drop]
    cases a <;> first | rfl | cases ha
  · rcases ha with rfl | rfl <;> exact write_eq (hbody.trans hbuf)
  · obtain ⟨k, hk, _⟩ := length_setField h
    exact oxm.pack_eq hk (hbody.trans hbuf)

/-- An action keeps to its length. -/
theorem pack_eq (h : a.length v = .ok n) {buf : List UInt8} (hbuf : n ≤ buf.length) :
    a.pack v buf n = .ok (a.frame v n (buf.take n) ++ buf.drop n) := by
  have hl := layout_of_length h
  obtain ⟨hsize, hbody⟩ := size_le h
  have height := eight_le_size hl
  have hslot : (buf.take n).length = n := List.length_take_of_le hbuf
  have hhead := length_head h hslot
  have hwrite : Record.write (ActionClass.header ++ a.actionClass.members v) (a.fields v n) buf =
      Record.write (ActionClass.header ++ a.actionClass.members v) (a.fields v n) (buf.take n) ++ buf.drop n := by
    rw [← Record.write_append _ (by rw [hslot]; exact hsize), List.take_append_drop]
  have hrecord : (writeRecord (ActionClass.header ++ a.actionClass.members v) (a.fields v n) buf : Unpacked (List UInt8)) =
      .ok (Record.write (ActionClass.header ++ a.actionClass.members v) (a.fields v n) buf) :=
    if_pos (hsize.trans hbuf)
  rw [pack, if_neg (by omega), hl]
  dsimp only
  rw [h]
  show (if n < n then _ else writeRecord _ (a.fields v n) buf >>= a.packBody) = _
  rw [if_neg (lt_irrefl n), hrecord, hwrite]
  show a.packBody _ = _
  rw [packBody_eq h (by rw [List.length_append, hhead]; exact Nat.le_add_right n _), frame,
    List.take_append_of_le_length (by omega), List.drop_append_of_le_length (by omega)]
  simp only [List.append_assoc]

theorem four_le_bodyOffset (a : Cofaction) : 4 ≤ a.bodyOffset := by
  cases a <;> first | exact Nat.le_refl 4 | exact Nat.le_add_left 4 4

theorem frame_plain (ha : a.plain = true) :
    a.frame v n slot = Record.write (ActionClass.header ++ a.actionClass.members v) (a.fields v n) slot := by
  rw [frame, (body_of_plain ha).1, (body_of_plain ha).2, List.append_nil, List.length_nil, Nat.add_zero,
    List.take_append_drop]

theorem take_frame (h : a.length v = .ok n) (hslot : slot.length = n) {k : ℕ} (hk : k ≤ a.bodyOffset)
    (rest : List UInt8) : (a.frame v n slot ++ rest).take k =
      (Record.write (ActionClass.header ++ a.actionClass.members v) (a.fields v n) slot).take k := by
  have hbody := (size_le h).2
  have hhead := length_head h hslot
  have hlen : ((Record.write (ActionClass.header ++ a.actionClass.members v) (a.fields v n) slot).take
      a.bodyOffset).length = a.bodyOffset := List.length_take_of_le (by omega)
  rw [frame, List.append_assoc, List.append_assoc, List.take_append_of_le_length (by omega), List.take_take,
    Nat.min_eq_left hk]

/-- It begins with the type and the length, as far as that fits. -/
theorem frame_eq (h : a.length v = .ok n) (hslot : slot.length = n) (rest : List UInt8) :
    a.frame v n slot ++ rest =
      octets 2 a.type ++ (octets 2 (n % 65536) ++ (a.frame v n slot ++ rest).drop 4) := by
  have hhead : ∀ m : Record.Layout,
      (Record.write (ActionClass.header ++ m) (a.fields v n) slot).take 4 = octets 2 a.type ++ octets 2 (n % 65536) := by
    intro m
    show (octets 2 a.type ++ (octets 2 (n % 65536) ++ _)).take 4 = _
    rw [← List.append_assoc, List.take_left' (by rw [List.length_append, length_octets, length_octets])]
  rw [← List.append_assoc, ← hhead (a.actionClass.members v), ← take_frame h hslot a.four_le_bodyOffset rest,
    List.take_append_drop]

theorem field_type (h : a.length v = .ok n) (hslot : slot.length = n) (rest : List UInt8) :
    field (a.frame v n slot ++ rest) 0 2 = a.type := by
  rw [frame_eq h hslot, field_octets_of_lt a.type_lt]

theorem field_length (h : a.length v = .ok n) (hslot : slot.length = n) (rest : List UInt8) :
    field (a.frame v n slot ++ rest) 2 2 = n % 65536 := by
  have hlt : n % 65536 < 256 ^ 2 := Nat.mod_lt n (by decide)
  rw [frame_eq h hslot, field_append_right (Nat.le_of_eq (length_octets 2 _)), length_octets, Nat.sub_self,
    field_octets_of_lt hlt]

/-- The structure is read as it was written. -/
theorem read_frame (h : a.length v = .ok n) (hslot : slot.length = n)
    (ha : a.plain = true ∨ Record.size (ActionClass.header ++ a.actionClass.members v) = a.bodyOffset)
    (rest : List UInt8) : Record.read (ActionClass.header ++ a.actionClass.members v) (a.frame v n slot ++ rest) =
      a.fields v n := by
  have hsize := (size_le h).1
  have hhead := length_head h hslot
  have hread := Record.read_write (fits v a n) (by rw [hslot]; exact hsize)
  rcases ha with ha | ha
  · rw [frame_plain ha, Record.read_append (by rw [hhead]; exact hsize), hread]
  · have hlen : ((Record.write (ActionClass.header ++ a.actionClass.members v) (a.fields v n) slot).take
        a.bodyOffset).length = a.bodyOffset := List.length_take_of_le (by omega)
    rw [← hread, ← List.take_append_drop a.bodyOffset (a.frame v n slot ++ rest),
      take_frame h hslot le_rfl rest, Record.read_append (by omega)]
    conv_rhs => rw [← List.take_append_drop a.bodyOffset
      (Record.write (ActionClass.header ++ a.actionClass.members v) (a.fields v n) slot),
      Record.read_append (by omega)]

/-- What the decoder does behind the structure. -/
def unpackRest (a : Cofaction) (len : ℕ) (vs : List ℕ) (buf : List UInt8) : Unpacked Cofaction :=
  match a.actionClass with
  | .setField => unpackSetField len buf len
  | .vendor => vendor (.ofNat (vs.getD 0 0)) <$> unpackBody len buf
  | .experimenter => experimenter (.ofNat (vs.getD 0 0)) <$> unpackBody len buf
  | c => .ok (c.object vs)

theorem unpack_frame (h : a.length v = .ok n) (hslot : slot.length = n) (rest : List UInt8) :
    unpack v a.actionClass (a.frame v n slot ++ rest) (n % 65536) =
      if a.actionClass.added v = false then raise .badVersion
      else if n % 65536 < Record.size (ActionClass.header ++ a.actionClass.members v) then raise .invalid
      else a.unpackRest (n % 65536)
        ((Record.read (ActionClass.header ++ a.actionClass.members v) (a.frame v n slot ++ rest)).drop 2)
        (a.frame v n slot ++ rest) := by
  have hl := layout_of_length h
  have height := eight_le_size hl
  have hsize := (size_le h).1
  have hlen : n ≤ (a.frame v n slot ++ rest).length := by
    rw [List.length_append, length_frame h hslot]
    exact Nat.le_add_right n _
  rw [unpack, hl]
  split
  · rfl
  dsimp only
  split
  · rfl
  · next hlt =>
    rw [header_eq (by omega), record_eq (hsize.trans hlen), field_length h hslot]
    show (if n % 65536 < 4 then _ else _) = _
    rw [if_neg (by omega), unpackRest]
    cases a.actionClass with
    | experimenter =>
      show (if n % 65536 < n % 65536 then _ else _) = _
      rw [if_neg (lt_irrefl _)]
      rfl
    | _ => rfl

/-- The members are read as they were, but for a port above 16 bits. -/
theorem object_members (ha : a.plain = true) : a.actionClass.object (a.members v) = a ↔
    ∀ portNo maxLen, a = output portNo maxLen → v = Openflow10.OFP_VERSION → portNo.toNat < 65536 := by
  cases a with
  | output portNo maxLen =>
    show output (.ofNat (if v = Openflow10.OFP_VERSION then portNo.toNat % 65536 else portNo.toNat))
      (.ofNat maxLen.toNat) = _ ↔ _
    rw [UInt16.ofNat_toNat]
    by_cases hv : v = Openflow10.OFP_VERSION
    · rw [if_pos hv]
      constructor
      · intro h p m hp _
        cases hp
        have hport := congrArg UInt32.toNat (Cofaction.output.inj h).1
        rw [UInt32.toNat_ofNat_of_lt' ((Nat.mod_lt _ (by decide)).trans (by decide))] at hport
        rw [← hport]
        exact Nat.mod_lt _ (by decide)
      · intro h
        rw [Nat.mod_eq_of_lt (h portNo maxLen rfl hv), UInt32.ofNat_toNat]
    · rw [if_neg hv, UInt32.ofNat_toNat]
      exact ⟨fun _ _ _ _ h => absurd h hv, fun _ => rfl⟩
  | vendor | experimenter | setField => cases ha
  | _ =>
    refine ⟨fun _ _ _ h => (by cases h), fun _ => ?_⟩
    simp [actionClass, ActionClass.object, members]

theorem drop_frame (h : a.length v = .ok n) (hslot : slot.length = n) (rest : List UInt8) :
    ∃ tail, (a.frame v n slot ++ rest).drop a.bodyOffset = a.bodyImage ++ tail := by
  have hbody := (size_le h).2
  have hhead := length_head h hslot
  have hlen : ((Record.write (ActionClass.header ++ a.actionClass.members v) (a.fields v n) slot).take
      a.bodyOffset).length = a.bodyOffset := List.length_take_of_le (by omega)
  rw [frame, List.append_assoc, List.append_assoc, List.drop_left' hlen]
  exact ⟨_, rfl⟩

/-- Behind the OXM nobody writes. -/
theorem drop_setField {oxm : SetFieldOxm} (h : (setField oxm).length v = .ok n) (hslot : slot.length = n) {k : ℕ}
    (hk : 4 + oxm.image.length ≤ k) : ((setField oxm).frame v n slot).drop k = slot.drop k := by
  obtain ⟨hsize, hbody⟩ := size_le h
  have hhead := length_head h hslot
  have hfour := oxm.four_le_image
  have hwrite := Record.drop_write (fits v (setField oxm) n) (hsize.trans hslot.ge)
  change (Record.write _ _ slot).drop 8 = slot.drop 8 at hwrite
  change 4 + oxm.image.length ≤ n at hbody
  have hlen : ((Record.write (ActionClass.header ++ (setField oxm).actionClass.members v) ((setField oxm).fields v n)
      slot).take 4 ++ oxm.image).length = 4 + oxm.image.length := by
    rw [List.length_append, List.length_take_of_le (by omega)]
  show ((Record.write _ _ slot).take 4 ++ oxm.image ++ (Record.write _ _ slot).drop (4 + oxm.image.length)).drop k = _
  rw [List.drop_append, List.drop_eq_nil_of_le (by omega), List.nil_append, hlen, List.drop_drop,
    show 4 + oxm.image.length + (k - (4 + oxm.image.length)) = 8 + (k - 8) by omega, ← List.drop_drop, hwrite,
    List.drop_drop, show 8 + (k - 8) = k by omega]

theorem size_lt (h : a.actionClass.layout v = some l) : Record.size l < 65536 := by
  obtain ⟨_, rfl⟩ := layout_eq h
  have hmembers : Record.size (a.actionClass.members v) ≤ 12 := by
    cases a.actionClass <;> simp only [ActionClass.members] <;> (try split) <;> decide
  rw [ActionClass.header, List.cons_append, List.cons_append, List.nil_append, Record.size_cons, Record.size_cons]
  show 2 + (2 + Record.size (a.actionClass.members v)) < 65536
  omega

/-- Structures are read as they were written. -/
theorem unpack_plain (ha : a.plain = true) (hadded : a.actionClass.added v = true) (h : a.length v = .ok n)
    (hslot : slot.length = n) (rest : List UInt8) :
    unpack v a.actionClass (a.frame v n slot ++ rest) (n % 65536) = .ok (a.actionClass.object (a.members v)) := by
  have hl := layout_of_length h
  have hn : n = Record.size (ActionClass.header ++ a.actionClass.members v) := by
    rw [length_plain ha hl] at h
    exact (Except.ok.inj h).symm
  have hmod : n % 65536 = Record.size (ActionClass.header ++ a.actionClass.members v) := by
    rw [hn, Nat.mod_eq_of_lt (size_lt hl)]
  rw [unpack_frame h hslot, if_neg (by rw [hadded]; decide), if_neg (by omega), read_frame h hslot (.inl ha)]
  cases a <;> first | rfl | cases ha

/-- The action with another body. -/
def withBody : Cofaction → List UInt8 → Cofaction
  | vendor expId _, expBody => vendor expId expBody
  | experimenter expId _, expBody => experimenter expId expBody
  | a, _ => a

/-- A body is read with its padding. -/
theorem unpack_body {expId : UInt32} {expBody : List UInt8}
    (ha : a = vendor expId expBody ∨ a = experimenter expId expBody) (hadded : a.actionClass.added v = true)
    (h : a.length v = .ok n) (height : 8 ≤ n % 65536) (hslot : slot.length = n) (rest : List UInt8) :
    unpack v a.actionClass (a.frame v n slot ++ rest) (n % 65536) =
      .ok (a.withBody (((a.frame v n slot ++ rest).drop 8).take (n % 65536 - 8))) := by
  have hsize : Record.size (ActionClass.header ++ a.actionClass.members v) = 8 := by rcases ha with rfl | rfl <;> rfl
  have hoff : a.bodyOffset = 8 := by rcases ha with rfl | rfl <;> rfl
  have hlen : n ≤ (a.frame v n slot ++ rest).length := by
    rw [List.length_append, length_frame h hslot]
    exact Nat.le_add_right n _
  have hbody : unpackBody (n % 65536) (a.frame v n slot ++ rest) =
      .ok (((a.frame v n slot ++ rest).drop 8).take (n % 65536 - 8)) := by
    unfold unpackBody
    split
    · exact read_eq (by have := Nat.mod_le n 65536; omega)
    · rw [show n % 65536 - 8 = 0 by omega, List.take_zero]
  rw [unpack_frame h hslot, if_neg (by rw [hadded]; decide), if_neg (by omega),
    read_frame h hslot (.inr (hsize.trans hoff.symm))]
  rcases ha with rfl | rfl
  · show vendor (.ofNat expId.toNat) <$> unpackBody _ _ = _
    rw [hbody, UInt32.ofNat_toNat]
    rfl
  · show experimenter (.ofNat expId.toNat) <$> unpackBody _ _ = _
    rw [hbody, UInt32.ofNat_toNat]
    rfl

theorem unpack_setField {oxm : SetFieldOxm} (hadded : (setField oxm).actionClass.added v = true)
    (h : (setField oxm).length v = .ok n) (height : 8 ≤ n % 65536) (hslot : slot.length = n) (rest : List UInt8) :
    ∃ tail, unpack v .setField ((setField oxm).frame v n slot ++ rest) (n % 65536) =
      if n % 65536 - 4 < 4 + oxm.packedId.oxmLength.toNat then raise .badActionBadLen
      else setField <$> SetFieldOxm.unpack oxm.packedId (oxm.image ++ tail) (4 + oxm.packedId.oxmLength.toNat) := by
  obtain ⟨tail, htail⟩ := drop_frame h hslot rest
  change ((setField oxm).frame v n slot ++ rest).drop 4 = oxm.image ++ tail at htail
  have hsize : Record.size (ActionClass.header ++ (setField oxm).actionClass.members v) = 8 := rfl
  have hfour := oxm.four_le_image
  have hlen : n ≤ ((setField oxm).frame v n slot ++ rest).length := by
    rw [List.length_append, length_frame h hslot]
    exact Nat.le_add_right n _
  have hid : OxmId.ofOctets ((((setField oxm).frame v n slot ++ rest).drop 4).take 4) = oxm.packedId := by
    rw [htail, OxmId.ofOctets_take (by rw [List.length_append]; omega) (Nat.le_refl 4), SetFieldOxm.ofOctets_image]
  have hread : (read ((setField oxm).frame v n slot ++ rest) 4 4 : Unpacked (List UInt8)) =
      .ok ((((setField oxm).frame v n slot ++ rest).drop 4).take 4) :=
    read_eq (by have := Nat.mod_le n 65536; omega)
  have hframe := unpack_frame h hslot rest
  rw [if_neg (by rw [hadded]; decide), if_neg (by omega)] at hframe
  refine ⟨tail, hframe.trans ?_⟩
  show unpackSetField _ _ _ = _
  rw [unpackSetField, if_neg (lt_irrefl _), hread]
  show (if n % 65536 - 4 < 4 + (OxmId.ofOctets _).oxmLength.toNat then _ else _) = _
  rw [hid, htail]
  rfl

/-- An action that survives is read as it was. -/
theorem unpack_survives (ha : a.Survives v) (h : a.length v = .ok n) (hslot : slot.length = n) (rest : List UInt8) :
    n % 65536 = n ∧ 8 ≤ n ∧ unpack v a.actionClass (a.frame v n slot ++ rest) (n % 65536) = .ok a.reread := by
  obtain ⟨hadded, ⟨m, hm, hlt⟩, hkind⟩ := ha
  obtain rfl : n = m := Except.ok.inj (h.symm.trans hm)
  have hmod : n % 65536 = n := Nat.mod_eq_of_lt hlt
  have height := (eight_le_size (layout_of_length h)).trans (size_le h).1
  refine ⟨hmod, height, ?_⟩
  rcases a.plain_or with ha | ⟨expId, expBody, ha⟩ | ⟨oxm, rfl⟩
  · rw [unpack_plain ha hadded h hslot, (object_members ha).mpr]
    · cases a <;> first | rfl | cases ha
    · rintro portNo maxLen rfl hv
      exact hkind hv
  · obtain ⟨tail, htail⟩ := drop_frame h hslot rest
    have hn : n - 8 = expBody.length := by
      rw [length_body ha (layout_of_length h)] at h
      have hbody : expBody.length % 8 = 0 := by rcases ha with rfl | rfl <;> exact hkind
      rw [← Except.ok.inj h, padded, if_neg (by omega)]
      omega
    rw [unpack_body ha hadded h (by omega) hslot]
    rcases ha with rfl | rfl
    · change (_ : List UInt8).drop 8 = expBody ++ tail at htail
      rw [htail, hmod, List.take_left' hn.symm]
      rfl
    · change (_ : List UInt8).drop 8 = expBody ++ tail at htail
      rw [htail, hmod, List.take_left' hn.symm]
      rfl
  · obtain ⟨k, hk, rfl⟩ := length_setField h
    obtain ⟨tail, htail⟩ := unpack_setField hadded h (by omega) hslot rest
    have himage := SetFieldOxm.length_image hkind
    have hbody : 4 + oxm.image.length ≤ padded (4 + k) := (size_le h).2
    show unpack v .setField _ _ = _
    rw [htail, if_neg (by omega), SetFieldOxm.unpack_image hk hkind]
    rfl

/-- A structure that is read with the same content. -/
theorem survives_of_unpack_plain (ha : a.plain = true) (hadded : a.actionClass.added v = true) (h : a.length v = .ok n)
    (hslot : slot.length = n) {rest : List UInt8} {a' : Cofaction}
    (hunpack : unpack v a.actionClass (a.frame v n slot ++ rest) (n % 65536) = .ok a')
    (hcontent : a'.content = a.packed.content) : a.Survives v := by
  have hl := layout_of_length h
  have hsurvive : a.actionClass.object (a.members v) = a := by
    rw [unpack_plain ha hadded h hslot] at hunpack
    have ha' := Except.ok.inj hunpack
    cases a <;> first | exact (congrArg content ha').trans hcontent | cases ha
  have hlt : n < 65536 := by
    rw [length_plain ha hl] at h
    rw [← Except.ok.inj h]
    exact size_lt hl
  refine ⟨hadded, ⟨n, h, hlt⟩, ?_⟩
  have hport := (object_members ha).mp hsurvive
  cases a <;> first | exact hport _ _ rfl | trivial

/-- A body that is read with the same content has no padding, and room for its length. -/
theorem survives_of_unpack_body {expId : UInt32} {expBody : List UInt8}
    (ha : a = vendor expId expBody ∨ a = experimenter expId expBody) (hadded : a.actionClass.added v = true)
    (h : a.length v = .ok n) (height : 8 ≤ n % 65536) (hslot : slot.length = n) {rest : List UInt8} {a' : Cofaction}
    (hunpack : unpack v a.actionClass (a.frame v n slot ++ rest) (n % 65536) = .ok a')
    (hcontent : a'.content = a.packed.content) : a.Survives v := by
  have hlen : n ≤ (a.frame v n slot ++ rest).length := by
    rw [List.length_append, length_frame h hslot]
    exact Nat.le_add_right n _
  have hle := Nat.mod_le n 65536
  have hread : (((a.frame v n slot ++ rest).drop 8).take (n % 65536 - 8)).length = n % 65536 - 8 := by
    rw [List.length_take_of_le]
    rw [List.length_drop]
    omega
  rw [unpack_body ha hadded h height hslot] at hunpack
  have ha' := Except.ok.inj hunpack
  have hbody : ((a.frame v n slot ++ rest).drop 8).take (n % 65536 - 8) = expBody := by
    rcases ha with rfl | rfl
    · exact (vendor.inj ((congrArg content ha').trans hcontent)).2
    · exact (experimenter.inj ((congrArg content ha').trans hcontent)).2
  rw [hbody] at hread
  have hn := h
  rw [length_body ha (layout_of_length h)] at hn
  have hpadded := padded_mod (8 + expBody.length)
  rw [Except.ok.inj hn] at hpadded
  have heven : expBody.length % 8 = 0 := by omega
  have hfit : n < 65536 := by
    have hsum := Except.ok.inj hn
    rw [padded, if_neg (by omega)] at hsum
    omega
  refine ⟨hadded, ⟨n, h, hfit⟩, ?_⟩
  rcases ha with rfl | rfl <;> exact heven

/-- What was read of a set-field action is the OXM. -/
theorem unpacks_setField {oxm : SetFieldOxm} (hadded : (setField oxm).actionClass.added v = true)
    (h : (setField oxm).length v = .ok n) (height : 8 ≤ n % 65536) (hslot : slot.length = n) {rest : List UInt8}
    {a' : Cofaction} (hunpack : unpack v .setField ((setField oxm).frame v n slot ++ rest) (n % 65536) = .ok a')
    (hcontent : a'.content = (setField oxm).packed.content) :
    oxm.Survives ∧ 4 + oxm.packedId.oxmLength.toNat ≤ n % 65536 - 4 := by
  obtain ⟨tail, htail⟩ := unpack_setField hadded h height hslot rest
  rw [htail] at hunpack
  split at hunpack
  · cases hunpack
  · next hroom =>
    cases hoxm : SetFieldOxm.unpack oxm.packedId (oxm.image ++ tail) (4 + oxm.packedId.oxmLength.toNat) with
    | error e =>
      rw [hoxm] at hunpack
      cases hunpack
    | ok oxm' =>
      rw [hoxm] at hunpack
      obtain rfl := Except.ok.inj hunpack
      exact ⟨SetFieldOxm.survives_of_unpack hoxm (setField.inj hcontent), Nat.le_of_not_lt hroom⟩

/-- One that is read with the same content survives, or is a set-field action that is too
long for its length. -/
theorem survives_or_of_unpack (h : a.length v = .ok n) (hslot : slot.length = n) {rest : List UInt8} {a' : Cofaction}
    (hunpack : unpack v a.actionClass (a.frame v n slot ++ rest) (n % 65536) = .ok a')
    (hcontent : a'.content = a.packed.content) :
    a.Survives v ∨ 65536 ≤ n ∧ ∃ oxm, a = setField oxm ∧ oxm.Survives ∧ 4 + oxm.image.length ≤ n % 65536 := by
  have height := eight_le_size (layout_of_length h)
  have hadded : a.actionClass.added v = true := by
    cases hadded : a.actionClass.added v with
    | true => rfl
    | false =>
      rw [unpack_frame h hslot, if_pos hadded] at hunpack
      cases hunpack
  have hsize : Record.size (ActionClass.header ++ a.actionClass.members v) ≤ n % 65536 := by
    by_contra hlt
    rw [unpack_frame h hslot, if_neg (by rw [hadded]; decide), if_pos (by omega)] at hunpack
    cases hunpack
  rcases a.plain_or with ha | ⟨expId, expBody, ha⟩ | ⟨oxm, rfl⟩
  · exact .inl (survives_of_unpack_plain ha hadded h hslot hunpack hcontent)
  · exact .inl (survives_of_unpack_body ha hadded h (height.trans hsize) hslot hunpack hcontent)
  · obtain ⟨hoxm, hroom⟩ := unpacks_setField hadded h (height.trans hsize) hslot hunpack hcontent
    by_cases hfit : n < 65536
    · exact .inl ⟨hadded, ⟨n, h, hfit⟩, hoxm⟩
    · have himage := SetFieldOxm.length_image hoxm
      exact .inr ⟨by omega, oxm, rfl, hoxm, by omega⟩

end Cofaction

/-! ## Lists that were packed -/

namespace Cofactions

variable {v : UInt8} {a : Cofaction} {xs : List Cofaction} {n m k : ℕ} {buf slot : List UInt8}

/-- A list packed into as many octets as it takes, whatever they were, is read as it was. -/
def RoundTrips (v : UInt8) (xs : List Cofaction) : Prop :=
  ∃ n, totalLength v xs = .ok n ∧ ∀ buf : List UInt8, buf.length = n → ∃ out ys,
    pack v xs buf n = .ok out ∧ unpack v [] out n = .ok ys ∧
      ys.map Cofaction.content = (xs.map Cofaction.packed).map Cofaction.content

theorem totalLength_cons : totalLength v (a :: xs) = .ok n ↔
    ∃ m k, a.length v = .ok m ∧ totalLength v xs = .ok k ∧ n = m + k := foldlM_add_cons

theorem packFrom_cons (h : a.length v = .ok m) (hbuf : m ≤ buf.length) {out : List UInt8} :
    packFrom v (a :: xs) buf = .ok out ↔
      ∃ out', packFrom v xs (buf.drop m) = .ok out' ∧ out = a.frame v m (buf.take m) ++ out' := by
  have hframe : (a.frame v m (buf.take m)).length = m := Cofaction.length_frame h (List.length_take_of_le hbuf)
  rw [packFrom, h]
  show (a.pack v buf m >>= fun b => _) = _ ↔ _
  rw [Cofaction.pack_eq h hbuf]
  show (packFrom v xs ((a.frame v m (buf.take m) ++ buf.drop m).drop m) >>= fun out' =>
    Except.ok ((a.frame v m (buf.take m) ++ buf.drop m).take m ++ out')) = _ ↔ _
  rw [List.drop_left' hframe, List.take_left' hframe, Except.bind_eq_ok]
  constructor
  · rintro ⟨out', hout', h⟩
    exact ⟨out', hout', (Except.ok.inj h).symm⟩
  · rintro ⟨out', hout', rfl⟩
    exact ⟨out', hout', rfl⟩

/-- Packing fills as many octets as the list takes, in front of any rest. -/
theorem packFrom_eq (h : totalLength v xs = .ok n) (hslot : slot.length = n) :
    ∃ out, out.length = n ∧ ∀ rest, packFrom v xs (slot ++ rest) = .ok (out ++ rest) := by
  induction xs generalizing n slot with
  | nil =>
    cases h
    rw [List.eq_nil_of_length_eq_zero hslot]
    exact ⟨[], rfl, fun rest => rfl⟩
  | cons a xs ih =>
    obtain ⟨m, k, hm, hk, rfl⟩ := totalLength_cons.mp h
    have htake : (slot.take m).length = m := List.length_take_of_le (by omega)
    have hdrop : (slot.drop m).length = k := by
      rw [List.length_drop]
      omega
    obtain ⟨out, hout, hpack⟩ := ih hk hdrop
    refine ⟨a.frame v m (slot.take m) ++ out, ?_, fun rest => ?_⟩
    · rw [List.length_append, Cofaction.length_frame hm htake, hout]
    · rw [packFrom_cons hm (by rw [List.length_append]; omega), List.drop_append_of_le_length (by omega),
        List.take_append_of_le_length (by omega)]
      exact ⟨_, hpack rest, List.append_assoc _ _ _⟩

/-- A turn takes an action by the length in its header. -/
theorem turn_frame (h : a.length v = .ok m) (hslot : slot.length = m) (acc : List Cofaction) (rest : List UInt8) (n : ℕ) :
    turn v acc (a.frame v m slot ++ rest) n =
      if n < 8 ∨ m % 65536 < 8 then .ok none
      else if n < m % 65536 then raise .badActionBadLen
      else (fun a' => some (acc ++ [a'], m % 65536)) <$>
        Cofaction.unpack v a.actionClass (a.frame v m slot ++ rest) (m % 65536) := by
  have height := (Cofaction.eight_le_size (Cofaction.layout_of_length h)).trans (Cofaction.size_le h).1
  have hlen : m ≤ (a.frame v m slot ++ rest).length := by
    rw [List.length_append, Cofaction.length_frame h hslot]
    exact Nat.le_add_right m _
  rw [turn]
  by_cases hn : n < 8
  · rw [if_pos hn, if_pos (.inl hn)]
  rw [if_neg hn, numberAt_eq (by omega), numberAt_eq (by omega), Cofaction.field_type h hslot,
    Cofaction.field_length h hslot]
  show (if m % 65536 < 8 then _ else _) = _
  by_cases hshort : m % 65536 < 8
  · rw [if_pos hshort, if_pos (.inr hshort)]
    rfl
  rw [if_neg hshort, if_neg (not_or.mpr ⟨hn, hshort⟩)]
  by_cases hlong : n < m % 65536
  · rw [if_pos hlong, if_pos hlong]
  · rw [if_neg hlong, if_neg hlong, Cofaction.ofType_type h]
    dsimp only
    cases Cofaction.unpack v a.actionClass (a.frame v m slot ++ rest) (m % 65536) <;> rfl

/-- Actions that survive are taken off one by one, in front of any rest. -/
theorem loop_packed (hxs : ∀ a ∈ xs, a.Survives v) (h : totalLength v xs = .ok n) (hslot : slot.length = n)
    {out : List UInt8} (hpack : packFrom v xs slot = .ok out) (acc : List Cofaction) (rest : List UInt8) (m : ℕ) :
    loop (turn v) acc (out ++ rest) (n + m) = loop (turn v) (acc ++ xs.map Cofaction.reread) rest m := by
  induction xs generalizing n slot out acc with
  | nil =>
    cases h
    rw [List.eq_nil_of_length_eq_zero hslot] at hpack
    cases hpack
    rw [List.nil_append, Nat.zero_add, List.map_nil, List.append_nil]
  | cons a xs ih =>
    obtain ⟨j, k, hj, hk, rfl⟩ := totalLength_cons.mp h
    have htake : (slot.take j).length = j := List.length_take_of_le (by omega)
    have hdrop : (slot.drop j).length = k := by
      rw [List.length_drop]
      omega
    obtain ⟨out, hout, rfl⟩ := (packFrom_cons hj (by omega)).mp hpack
    obtain ⟨hmod, height, hread⟩ := Cofaction.unpack_survives (hxs a List.mem_cons_self) hj htake (out ++ rest)
    have hturn : turn v acc (a.frame v j (slot.take j) ++ (out ++ rest)) (j + k + m) =
        .ok (some (acc ++ [a.reread], j)) := by
      rw [turn_frame hj htake, if_neg (by omega), if_neg (by omega), hread, hmod]
      rfl
    rw [List.append_assoc, loop_next advances_turn hturn, List.drop_left' (Cofaction.length_frame hj htake),
      show j + k + m - j = k + m by omega, ih (fun b hb => hxs b (List.mem_cons_of_mem a hb)) hk hdrop hout,
      List.map_cons, List.append_assoc]
    rfl

/-- The loop appends. -/
theorem prefix_of_turn {acc acc' : List Cofaction} (h : turn v acc buf n = .ok (some (acc', m))) : acc <+: acc' := by
  unfold turn at h
  split at h
  · cases h
  · obtain ⟨type, _, h⟩ := Except.bind_eq_ok.mp h
    obtain ⟨len, _, h⟩ := Except.bind_eq_ok.mp h
    split at h
    · cases h
    · split at h
      · cases h
      · split at h
        · cases h
          exact List.prefix_rfl
        · obtain ⟨a, _, h⟩ := Except.bind_eq_ok.mp h
          cases h
          exact List.prefix_append acc _

theorem prefix_of_loop {acc ys : List Cofaction} (h : loop (turn v) acc buf n = .ok ys) : acc <+: ys := by
  have hstep : ∀ s b j s' i, acc <+: s → turn v s b j = .ok (some (s', i)) → acc <+: s' :=
    fun s b j s' i hs ht => hs.trans (prefix_of_turn ht)
  obtain ⟨_, hys⟩ := loop_rule (P := fun s _ => acc <+: s) hstep List.prefix_rfl h
  exact hys

/-- An action that is not there at the end was not packed. -/
theorem head_of_leading {acc ys xs : List Cofaction} {a' : Cofaction} (h : acc ++ [a'] <+: ys)
    (hys : ys.map Cofaction.content = acc.map Cofaction.content ++ xs.map fun a => a.packed.content) :
    (xs.map fun a => a.packed.content).head? = some a'.content := by
  obtain ⟨rest, rfl⟩ := h
  rw [List.map_append, List.map_append, List.append_assoc] at hys
  rw [← List.append_cancel_left hys]
  rfl

/-- What the first turn leaves of octets of our choice. -/
def FirstTurn (v : UInt8) (acc : List Cofaction) (a : Cofaction) (xs : List Cofaction) (m k : ℕ) : Prop :=
  ∀ slot rest : List UInt8, slot.length = m → rest.length = k → ∃ out a' ys,
    packFrom v xs rest = .ok out ∧
    Cofaction.unpack v a.actionClass (a.frame v m slot ++ out) (m % 65536) = .ok a' ∧
    loop (turn v) (acc ++ [a']) ((a.frame v m slot ++ out).drop (m % 65536)) (m + k - m % 65536) = .ok ys ∧
    ys.map Cofaction.content = acc.map Cofaction.content ++ (a :: xs).map fun a => a.packed.content

theorem FirstTurn.head {acc : List Cofaction} {a' : Cofaction} {ys : List Cofaction} {b : List UInt8} {j : ℕ}
    (hloop : loop (turn v) (acc ++ [a']) b j = .ok ys)
    (hys : ys.map Cofaction.content = acc.map Cofaction.content ++ (a :: xs).map fun a => a.packed.content) :
    a'.content = a.packed.content :=
  (Option.some.inj (head_of_leading (prefix_of_loop hloop) hys)).symm

/-- Behind a length that is too small the octets that nobody writes are read: an action may
stand there. -/
theorem FirstTurn.fits {acc : List Cofaction} {oxm : SetFieldOxm} (hm : (Cofaction.setField oxm).length v = .ok m)
    (hlong : 65536 ≤ m) (hin : 4 + oxm.image.length ≤ m % 65536) : ¬FirstTurn v acc (.setField oxm) xs m k := by
  intro hfirst
  obtain ⟨q, hq⟩ : ∃ q, (xs.map fun a => a.packed.content).head? ≠ some (Cofaction.setQueue q) := by
    by_cases hzero : (xs.map fun a => a.packed.content).head? = some (Cofaction.setQueue 0)
    · exact ⟨1, by rw [hzero]; decide⟩
    · exact ⟨0, hzero⟩
  have hv : v ∈ [Openflow12.OFP_VERSION, Openflow13.OFP_VERSION] := (Cofaction.layout_eq (Cofaction.layout_of_length hm)).1
  have hqueue : (Cofaction.setQueue q).length v = .ok 8 := by
    rcases List.mem_pair.mp hv with rfl | rfl <;> rfl
  have hsurvives : (Cofaction.setQueue q).Survives v := by
    refine ⟨?_, ⟨8, hqueue, by decide⟩, trivial⟩
    rcases List.mem_pair.mp hv with rfl | rfl <;> rfl
  have hzeros : (List.replicate 8 (0 : UInt8)).length = 8 := rfl
  let queue := (Cofaction.setQueue q).frame v 8 (.replicate 8 0)
  have hlen : queue.length = 8 := Cofaction.length_frame hqueue hzeros
  let slot := List.replicate (m % 65536) 0 ++ (queue ++ List.replicate (m - m % 65536 - 8) 0)
  have hslot : slot.length = m := by
    simp only [slot, List.length_append, List.length_replicate, hlen]
    omega
  obtain ⟨out, a', ys, _, hread, hloop, hys⟩ := hfirst slot (.replicate k 0) hslot List.length_replicate
  have hcontent := head hloop hys
  have hdrop : ((Cofaction.setField oxm).frame v m slot ++ out).drop (m % 65536) =
      queue ++ (List.replicate (m - m % 65536 - 8) 0 ++ out) := by
    rw [List.drop_append_of_le_length (by rw [Cofaction.length_frame hm hslot]; exact Nat.mod_le m _),
      Cofaction.drop_setField hm hslot hin, List.drop_left' List.length_replicate, List.append_assoc]
  obtain ⟨_, _, hunpack⟩ := Cofaction.unpack_survives hsurvives hqueue hzeros (List.replicate (m - m % 65536 - 8) 0 ++ out)
  have hturn : turn v (acc ++ [a']) (queue ++ (List.replicate (m - m % 65536 - 8) 0 ++ out)) (m + k - m % 65536) =
      .ok (some (acc ++ [a'] ++ [Cofaction.setQueue q], 8)) := by
    rw [turn_frame hqueue hzeros, if_neg (by omega), if_neg (by omega), hunpack]
    rfl
  rw [hdrop, loop_next advances_turn hturn] at hloop
  refine hq (head_of_leading (prefix_of_loop hloop) (hys.trans ?_))
  rw [List.map_append, List.append_assoc, List.map_cons, ← hcontent]
  rfl

/-- A list that is read as it was has actions that survive. -/
theorem survives_of_loop (h : totalLength v xs = .ok n) (acc : List Cofaction)
    (hall : ∀ buf : List UInt8, buf.length = n → ∃ out ys, packFrom v xs buf = .ok out ∧
      loop (turn v) acc out n = .ok ys ∧
      ys.map Cofaction.content = acc.map Cofaction.content ++ xs.map fun a => a.packed.content) :
    ∀ a ∈ xs, a.Survives v := by
  induction xs generalizing acc n with
  | nil => exact fun a ha => by cases ha
  | cons a xs ih =>
    obtain ⟨m, k, hm, hk, rfl⟩ := totalLength_cons.mp h
    have hfirst : FirstTurn v acc a xs m k := by
      intro slot rest hslot hrest
      obtain ⟨out', ys, hpack, hloop, hys⟩ := hall (slot ++ rest) (by rw [List.length_append, hslot, hrest])
      have hlen : m ≤ (slot ++ rest).length := by rw [List.length_append]; omega
      obtain ⟨out, hout, rfl⟩ := (packFrom_cons hm hlen).mp hpack
      rw [List.drop_left' hslot] at hout
      rw [List.take_left' hslot] at hloop
      have hturn := turn_frame hm hslot acc out (m + k)
      have hmod := Nat.mod_le m 65536
      by_cases hshort : m + k < 8 ∨ m % 65536 < 8
      · rw [if_pos hshort] at hturn
        rw [loop_end hturn] at hloop
        cases hloop
        have hlength := congrArg List.length hys
        rw [List.length_append, List.length_map, List.length_map, List.length_cons] at hlength
        omega
      · rw [if_neg hshort, if_neg (by omega)] at hturn
        cases ha' : Cofaction.unpack v a.actionClass (a.frame v m slot ++ out) (m % 65536) with
        | error e =>
          rw [ha'] at hturn
          rw [loop_error hturn] at hloop
          cases hloop
        | ok a' =>
          rw [ha'] at hturn
          rw [loop_next advances_turn hturn] at hloop
          exact ⟨out, a', ys, hout, ha', hloop, hys⟩
    have hsurvives : a.Survives v := by
      obtain ⟨out, a', ys, _, hread, hloop, hys⟩ := hfirst (.replicate m 0) (.replicate k 0) List.length_replicate
        List.length_replicate
      have hhead := FirstTurn.head hloop hys
      rcases Cofaction.survives_or_of_unpack hm List.length_replicate hread hhead with hs | ⟨hlong, oxm, rfl, _, hin⟩
      · exact hs
      · exact absurd hfirst (FirstTurn.fits hm hlong hin)
    intro b hb
    rcases List.mem_cons.mp hb with rfl | hb
    · exact hsurvives
    · refine ih hk (acc ++ [a.reread]) (fun buf hbuf => ?_) b hb
      obtain ⟨out, a', ys, hpack, hread, hloop, hys⟩ := hfirst (.replicate m 0) buf List.length_replicate hbuf
      obtain ⟨hmod, _, hread'⟩ := Cofaction.unpack_survives hsurvives hm (List.length_replicate (a := 0)) out
      rw [hread'] at hread
      cases hread
      rw [hmod, List.drop_left' (Cofaction.length_frame hm List.length_replicate), Nat.add_sub_cancel_left] at hloop
      refine ⟨out, ys, hpack, hloop, hys.trans ?_⟩
      rw [List.map_append, List.append_assoc, List.map_cons, ← Cofaction.content_reread]
      rfl

theorem totalLength_cases (h : totalLength v xs = .ok n) : n = 0 ∧ xs = [] ∨ 8 ≤ n := by
  cases xs with
  | nil => exact .inl ⟨(Except.ok.inj h).symm, rfl⟩
  | cons a xs =>
    obtain ⟨m, k, hm, _, rfl⟩ := totalLength_cons.mp h
    have height := (Cofaction.eight_le_size (Cofaction.layout_of_length hm)).trans (Cofaction.size_le hm).1
    exact .inr (by omega)

theorem pack_total (h : totalLength v xs = .ok n) (buf : List UInt8) : pack v xs buf n = packFrom v xs buf := by
  rcases totalLength_cases h with ⟨rfl, rfl⟩ | height
  · rfl
  · rw [pack, if_neg (by omega), h]
    exact if_neg (lt_irrefl n)

theorem unpack_total (h : totalLength v xs = .ok n) (buf : List UInt8) :
    unpack v [] buf n = loop (turn v) [] buf n := by
  rcases totalLength_cases h with ⟨rfl, rfl⟩ | height
  · rfl
  · rw [unpack, if_neg (by omega), if_neg (by omega)]

theorem totalLength_of_survives (hxs : ∀ a ∈ xs, a.Survives v) : ∃ n, totalLength v xs = .ok n := by
  induction xs with
  | nil => exact ⟨0, rfl⟩
  | cons a xs ih =>
    obtain ⟨_, ⟨m, hm, _⟩, _⟩ := hxs a List.mem_cons_self
    obtain ⟨k, hk⟩ := ih fun b hb => hxs b (List.mem_cons_of_mem a hb)
    exact ⟨m + k, totalLength_cons.mpr ⟨m, k, hm, hk, rfl⟩⟩

theorem roundTrips_iff_survives : RoundTrips v xs ↔ ∀ a ∈ xs, a.Survives v := by
  constructor
  · rintro ⟨n, hn, hall⟩
    refine survives_of_loop hn [] fun buf hbuf => ?_
    obtain ⟨out, ys, hpack, hunpack, hys⟩ := hall buf hbuf
    rw [pack_total hn] at hpack
    rw [unpack_total hn] at hunpack
    exact ⟨out, ys, hpack, hunpack, hys.trans List.map_map⟩
  · intro hxs
    obtain ⟨n, hn⟩ := totalLength_of_survives hxs
    refine ⟨n, hn, fun buf hbuf => ?_⟩
    obtain ⟨out, hout, hpack⟩ := packFrom_eq hn hbuf
    have hpack := hpack []
    rw [List.append_nil, List.append_nil] at hpack
    have hread := loop_packed hxs hn hbuf hpack [] [] 0
    rw [List.append_nil, Nat.add_zero, List.nil_append] at hread
    refine ⟨out, xs.map Cofaction.reread, ?_, ?_, ?_⟩
    · rw [pack_total hn, hpack]
    · rw [unpack_total hn, hread]
      rfl
    · rw [List.map_map, List.map_map]
      exact List.map_congr_left fun a _ => a.content_reread

/-! ## Octets that are all decoded -/

/-- Actions one behind another, each of them decoded from all that its length takes. -/
inductive Decoded (v : UInt8) : List UInt8 → List Cofaction → Prop
  | nil : Decoded v [] []
  | cons {buf : List UInt8} {c : ActionClass} {a : Cofaction} {as : List Cofaction} (hlen : 8 ≤ field buf 2 2)
      (hin : field buf 2 2 ≤ buf.length) (hc : ActionClass.ofType v (field buf 0 2) = some c)
      (ha : Cofaction.unpack v c (buf.take (field buf 2 2)) (field buf 2 2) = .ok a)
      (hrest : Decoded v (buf.drop (field buf 2 2)) as) : Decoded v buf (a :: as)

/-- Nothing is dropped: it throws, or the actions are all that is there. -/
def Covers (v : UInt8) (buf : List UInt8) : Prop :=
  Throws (unpack v [] buf buf.length) ∨ ∃ ys, unpack v [] buf buf.length = .ok ys ∧ Decoded v buf ys

/-- Whole actions of types that are known, to the end. -/
inductive Whole (v : UInt8) : List UInt8 → Prop
  | nil : Whole v []
  | cons {buf : List UInt8} (hlen : 8 ≤ field buf 2 2) (hin : field buf 2 2 ≤ buf.length)
      (hc : ActionClass.ofType v (field buf 0 2) ≠ none) (hrest : Whole v (buf.drop (field buf 2 2))) : Whole v buf

theorem Decoded.whole {ys : List Cofaction} (h : Decoded v buf ys) : Whole v buf := by
  induction h with
  | nil => exact .nil
  | cons hlen hin hc _ _ ih => exact .cons hlen hin (by rw [hc]; exact Option.some_ne_none _) ih

theorem Whole.loop (h : Whole v buf) (acc : List Cofaction) :
    Throws (loop (turn v) acc buf buf.length) ∨
      ∃ ys, Window.loop (turn v) acc buf buf.length = .ok (acc ++ ys) ∧ Decoded v buf ys := by
  induction h generalizing acc with
  | nil => exact .inr ⟨[], by rw [List.append_nil]; rfl, .nil⟩
  | @cons buf hlen hin hc _ ih =>
    obtain ⟨c, hc⟩ := Option.ne_none_iff_exists'.mp hc
    have hkeeps : KeepsTo (field buf 2 2) (fun b => Cofaction.unpack v c b (field buf 2 2)) buf :=
      Cofaction.keepsTo_unpack hin (Nat.le_refl _) (Nat.le_refl _)
    have hturn : turn v acc buf buf.length =
        (fun a => some (acc ++ [a], field buf 2 2)) <$> Cofaction.unpack v c buf (field buf 2 2) := by
      rw [turn, if_neg (by omega), numberAt_eq (by omega), numberAt_eq (by omega)]
      show (if field buf 2 2 < 8 then _ else _) = _
      rw [if_neg (by omega), if_neg (by omega), hc]
      dsimp only
      cases Cofaction.unpack v c buf (field buf 2 2) <;> rfl
    cases ha : Cofaction.unpack v c buf (field buf 2 2) with
    | error e =>
      rw [ha] at hturn
      rw [loop_error hturn]
      cases e with
      | thrown e => exact .inl ⟨e, rfl⟩
      | overrun => exact absurd ha hkeeps.inside
    | ok a =>
      rw [ha] at hturn
      rw [loop_next advances_turn hturn, ← List.length_drop]
      refine (ih (acc ++ [a])).imp_right ?_
      rintro ⟨ys, hys, hdecoded⟩
      exact ⟨a :: ys, by rw [hys, List.append_assoc]; rfl, .cons hlen hin hc (hkeeps.take.trans ha) hdecoded⟩

theorem covers_iff : Covers v buf ↔ 0 < buf.length ∧ buf.length < 8 ∨ Rejected v buf.length buf ∨ Whole v buf := by
  by_cases hzero : buf.length = 0
  · obtain rfl := List.eq_nil_of_length_eq_zero hzero
    exact ⟨fun _ => .inr (.inr .nil), fun _ => .inr ⟨[], rfl, .nil⟩⟩
  by_cases hshort : buf.length < 8
  · have hthrows : Throws (unpack v [] buf buf.length) := by
      rw [unpack, if_neg hzero, if_pos hshort]
      exact throws_raise _
    exact ⟨fun _ => .inl ⟨by omega, hshort⟩, fun _ => .inl hthrows⟩
  have hunpack : unpack v [] buf buf.length = loop (turn v) [] buf buf.length := by
    rw [unpack, if_neg hzero, if_neg hshort]
  rw [Covers, hunpack, loop_throws_iff]
  constructor
  · rintro (h | ⟨ys, _, h⟩)
    · exact .inr (.inl h)
    · exact .inr (.inr h.whole)
  · rintro (h | h | h)
    · exact absurd h.2 hshort
    · exact .inl h
    · rw [← loop_throws_iff []]
      exact h.loop []

/-- Which actions come back from the wire, and of which octets nothing is dropped. -/
theorem codec_iff (v : UInt8) (xs : List Cofaction) (buf : List UInt8) :
    (RoundTrips v xs ↔ ∀ a ∈ xs, a.Survives v) ∧
      (Covers v buf ↔ 0 < buf.length ∧ buf.length < 8 ∨ Rejected v buf.length buf ∨ Whole v buf) :=
  ⟨roundTrips_iff_survives, covers_iff⟩

/-- A body of one octet comes back with seven more, and the octet behind an action that
pops a tag is dropped. -/
theorem padded_body_and_trailing_octet :
    ¬RoundTrips Openflow13.OFP_VERSION [.experimenter 1 [1]] ∧
      ¬Covers Openflow13.OFP_VERSION [0, 18, 0, 8, 0, 0, 0, 0, 1] := by
  constructor
  · rintro ⟨n, hn, hall⟩
    obtain rfl : 16 = n := Except.ok.inj hn
    obtain ⟨out, ys, hpack, hunpack, hys⟩ := hall (.replicate 16 0) rfl
    obtain rfl : [255, 255, 0, 16, 0, 0, 0, 1, 1, 0, 0, 0, 0, 0, 0, 0] = out := Except.ok.inj hpack
    have hread : unpack Openflow13.OFP_VERSION [] [255, 255, 0, 16, 0, 0, 0, 1, 1, 0, 0, 0, 0, 0, 0, 0] 16 =
        .ok [.experimenter 1 [1, 0, 0, 0, 0, 0, 0, 0]] := by decide
    obtain rfl := Except.ok.inj (hread.symm.trans hunpack)
    cases hys
  · have hread : unpack Openflow13.OFP_VERSION [] [0, 18, 0, 8, 0, 0, 0, 0, 1] 9 = .ok [.popVlan] := by decide
    rintro (⟨e, he⟩ | ⟨ys, hys, h⟩)
    · cases hread.symm.trans he
    · obtain rfl := Except.ok.inj (hread.symm.trans hys)
      cases h with
      | cons _ _ _ _ hrest => cases hrest

end Cofactions
end RoflCommon
