/-
`coxmatch` and its classes: one OXM with its value and mask.

A class of fixed width keeps value and mask as numbers, in members that may be
wider than what goes on the wire (`OxmWidth.capacity`), and sets the length in
`oxm_id` when it packs. `coxmatch_exp` keeps them as memory of any size, and
sets the length when they are set.
-/
import RoflCommon.Openflow
import RoflCommon.Lib.Octets

namespace RoflCommon

open Octets

/-- The exceptions of the match classes. -/
inductive MatchException
  | oxmBadLen
  | oxmInval
  /-- The `eSysCall` of `cmemory`, which is thrown as a `rofl::exception`. -/
  | sysCall
  | badMatchBadLen
  | badMatchBadType
  | badMatchBadPrereq
  | badCast
  | invalid
deriving DecidableEq, Repr

/-! ## `oxm_id` -/

namespace Openflow

def OFPXMC_OPENFLOW_BASIC : UInt16 := 0x8000
def OFPXMC_PACKET_REGS : UInt16 := 0x8001
def OFPXMC_EXPERIMENTER : UInt16 := 0xffff

end Openflow

/-- The seven bits of the field. -/
abbrev OxmField := Fin 128

instance (n : ℕ) : OfNat OxmField n := ⟨⟨n % 128, Nat.mod_lt n (by decide)⟩⟩

/-- The 32 bits of `oxm_id`, from the highest to the lowest. -/
structure OxmId where
  oxmClass : UInt16
  oxmField : OxmField
  hasmask : Bool
  oxmLength : UInt8
deriving DecidableEq, Repr

namespace OxmId

/-- `OXM_ROFL_TYPE`: class and field where they stand, the other bits zero. -/
def type (id : OxmId) : ℕ := id.oxmClass.toNat * 65536 + id.oxmField * 512

def toOctets (id : OxmId) : List UInt8 :=
  htobe16 id.oxmClass.toNat ++ [UInt8.ofNat (id.oxmField * 2 + id.hasmask.toNat), id.oxmLength]

/-- `be32toh` of the first four octets of a buffer. -/
def ofOctets : List UInt8 → OxmId
  | hi :: lo :: f :: l :: _ =>
    ⟨UInt16.ofNat (be16toh hi lo), ⟨f.toNat / 2, by have := f.toNat_lt; omega⟩, f.toNat % 2 == 1, l⟩
  | _ => ⟨0, 0, false, 0⟩

@[simp] theorem length_toOctets (id : OxmId) : id.toOctets.length = 4 := rfl

theorem ofOctets_append (id : OxmId) (rest : List UInt8) : ofOctets (id.toOctets ++ rest) = id := by
  obtain ⟨c, f, h, l⟩ := id
  have hc : UInt16.ofNat (be16toh (UInt8.ofNat (c.toNat / 256)) (UInt8.ofNat c.toNat)) = c := by
    have := c.toNat_lt
    apply UInt16.toNat_inj.mp
    simp only [be16toh, UInt16.toNat_ofNat', UInt8.toNat_ofNat']
    omega
  have hf : (UInt8.ofNat (f * 2 + h.toNat)).toNat = f * 2 + h.toNat := by
    have := f.isLt
    have := h.toNat_lt
    rw [UInt8.toNat_ofNat']
    omega
  have hfield : (f * 2 + h.toNat : ℕ) / 2 = f := by
    have := h.toNat_lt
    omega
  have hmask : (f * 2 + h.toNat : ℕ) % 2 = h.toNat := by
    have := h.toNat_lt
    omega
  simp only [toOctets, htobe16, List.cons_append, List.nil_append, ofOctets, hc, hf, hfield, hmask]
  cases h <;> rfl

theorem type_inj {id id' : OxmId} : id.type = id'.type ↔ id.oxmClass = id'.oxmClass ∧ id.oxmField = id'.oxmField := by
  have hlt := id.oxmField.isLt
  have hlt' := id'.oxmField.isLt
  unfold type
  rw [← UInt16.toNat_inj, Fin.ext_iff]
  omega

end OxmId

/-! ## The classes -/

/-- `coxmatch_8` to `coxmatch_128`. -/
inductive OxmWidth
  | u8 | u16 | u24 | u32 | u48 | u64 | u128
deriving DecidableEq, Repr

namespace OxmWidth

/-- What the value takes on the wire. -/
def octets : OxmWidth → ℕ
  | u8 => 1
  | u16 => 2
  | u24 => 3
  | u32 => 4
  | u48 => 6
  | u64 => 8
  | u128 => 16

/-- The numbers that `value` and `mask` hold: those of 24 and 48 bits are kept in
32 and 64, and an IPv6 address in 16 octets. -/
def capacity : OxmWidth → ℕ
  | u8 => 256
  | u16 => 65536
  | u24 => 4294967296
  | u32 => 4294967296
  | u48 => 18446744073709551616
  | u64 => 18446744073709551616
  | u128 => 340282366920938463463374607431768211456

/-- The numbers that can be set: `coxmatches` hands link layer addresses to
`coxmatch_48`, the others take what they hold. -/
def parameter : OxmWidth → ℕ
  | u48 => 281474976710656
  | w => w.capacity

theorem capacity_pos (w : OxmWidth) : 0 < w.capacity := by cases w <;> decide

/-- Assignment to `value` or `mask`. -/
def store (w : OxmWidth) (v : ℕ) : Fin w.capacity := ⟨v % w.capacity, Nat.mod_lt _ w.capacity_pos⟩

/-- Assignment of an argument. -/
def arg (w : OxmWidth) (v : ℕ) : Fin w.capacity := w.store (v % w.parameter)

/-- The mask the constructors start with. -/
def ones (w : OxmWidth) : Fin w.capacity := w.store (256 ^ w.octets - 1)

/-- The mask `unpack` leaves where there is none on the wire: `coxmatch_48` sets all
the 64 bits, `coxmatch_128` keeps what there was. -/
def unmasked (w : OxmWidth) (mask : Fin w.capacity) : Fin w.capacity :=
  match w with
  | u48 => u48.store 18446744073709551615
  | u128 => mask
  | w => w.ones

theorem pow_octets_le (w : OxmWidth) : 256 ^ w.octets ≤ w.capacity := by cases w <;> decide

@[simp] theorem store_val {w : OxmWidth} (v : Fin w.capacity) : w.store v = v :=
  Fin.ext (Nat.mod_eq_of_lt v.isLt)

theorem val_store {w : OxmWidth} {v : ℕ} (h : v < 256 ^ w.octets) : (w.store v : ℕ) = v :=
  Nat.mod_eq_of_lt (h.trans_le w.pow_octets_le)

/-- The body of the TLV. -/
def length (w : OxmWidth) (hasmask : Bool) : ℕ := if hasmask then 2 * w.octets else w.octets

end OxmWidth

/-- What the classes add to `oxm_id`. -/
inductive OxmBody
  | fixed (w : OxmWidth) (value mask : Fin w.capacity)
  | exp (expId : UInt32) (value mask : List UInt8)
deriving DecidableEq, Repr

structure Coxmatch where
  oxmId : OxmId
  body : OxmBody
deriving DecidableEq, Repr

/-- `cmemory::assign`, for callers that have seen that there are `n` octets to copy. A length
that has wrapped is more than the 48 bits of addresses there are, and `realloc` fails. -/
def Cmemory.assign (src : List UInt8) (n : ℕ) : Except MatchException (List UInt8) :=
  if n < 281474976710656 then .ok (src.take n) else .error .sysCall

/-- `cmemory::clear`: the size stays. -/
def Cmemory.clear (mem : List UInt8) : List UInt8 := .replicate mem.length 0

namespace Coxmatch

def hasmask (x : Coxmatch) : Bool := x.oxmId.hasmask

/-- The octets the length in `oxm_id` counts. -/
def bodyLength (x : Coxmatch) : ℕ :=
  match x.body with
  | .fixed w _ _ => w.length x.hasmask
  | .exp _ value mask => 4 + value.length + if x.hasmask then mask.length else 0

/-- `adjust_oxm_length()`. -/
def adjustOxmLength (x : Coxmatch) : Coxmatch :=
  { x with oxmId := { x.oxmId with oxmLength := UInt8.ofNat x.bodyLength } }

def length (x : Coxmatch) : Except MatchException ℕ :=
  match x.body with
  | .fixed w _ _ => .ok (4 + w.length x.hasmask)
  | .exp _ value mask =>
    if x.hasmask ∧ value.length ≠ mask.length then .error .oxmInval else .ok (8 + value.length + mask.length)

/-- What `pack` makes of the object before it writes. -/
def packed (x : Coxmatch) : Coxmatch :=
  match x.body with
  | .fixed .. => x.adjustOxmLength
  | .exp .. => x

/-- What `pack` writes. -/
def image (x : Coxmatch) : List UInt8 :=
  match x.body with
  | .fixed w value mask =>
    x.oxmId.toOctets ++ octets w.octets value ++ if x.hasmask then octets w.octets mask else []
  | .exp expId value mask =>
    x.oxmId.toOctets ++ octets 4 expId.toNat ++ value ++ if x.hasmask then mask else []

def pack (x : Coxmatch) (buf : List UInt8) : Except MatchException (Coxmatch × List UInt8) := do
  let n ← x.packed.length
  if buf.length < n then throw .oxmBadLen
  return (x.packed, x.packed.image ++ buf.drop x.packed.image.length)

def unpack (x : Coxmatch) (buf : List UInt8) : Except MatchException Coxmatch :=
  let id := OxmId.ofOctets buf
  match x.body with
  | .fixed w _ mask =>
    if buf.length < 4 then .error .oxmBadLen
    else if buf.length < 4 + w.length id.hasmask then .error .oxmBadLen
    else
      let value := w.store (number ((buf.drop 4).take w.octets))
      let mask :=
        if id.hasmask then w.store (number ((buf.drop (4 + w.octets)).take w.octets)) else w.unmasked mask
      .ok ⟨id, .fixed w value mask⟩
  | .exp _ _ mask =>
    if buf.length < 4 then .error .oxmBadLen
    else if buf.length < 8 then .error .oxmBadLen
    else if buf.length < 4 + id.oxmLength.toNat then .error .oxmBadLen
    else do
      let expId := UInt32.ofNat (number ((buf.drop 4).take 4))
      -- `size_t` wraps below four
      let bodylen := (id.oxmLength.toNat + 18446744073709551612) % 18446744073709551616
      if !id.hasmask then
        let value ← Cmemory.assign (buf.drop 8) bodylen
        return ⟨id, .exp expId value (Cmemory.clear mask)⟩
      else if bodylen % 2 ≠ 0 then
        throw .oxmBadLen
      else
        let value ← Cmemory.assign (buf.drop 8) (bodylen / 2)
        let mask ← Cmemory.assign (buf.drop (8 + bodylen / 2)) (bodylen / 2)
        return ⟨id, .exp expId value mask⟩

/-! ### The setters -/

/-- `set_u8value` to `set_u128value`. -/
def setValue (x : Coxmatch) (v : ℕ) : Coxmatch :=
  match x.body with
  | .fixed w _ mask => { x with body := .fixed w (w.arg v) mask }
  | .exp .. => x

/-- `set_u8mask` to `set_u128mask`. -/
def setMask (x : Coxmatch) (m : ℕ) : Coxmatch :=
  match x.body with
  | .fixed w value _ => ⟨{ x.oxmId with hasmask := true }, .fixed w value (w.arg m)⟩
  | .exp .. => x

/-- The setters of `coxmatch_exp`, each of which replaces the value. -/
def setExpValue (x : Coxmatch) (value : List UInt8) : Coxmatch :=
  match x.body with
  | .fixed .. => x
  | .exp expId _ mask => adjustOxmLength { x with body := .exp expId value mask }

def setExpMask (x : Coxmatch) (mask : List UInt8) : Coxmatch :=
  match x.body with
  | .fixed .. => x
  | .exp expId value _ => adjustOxmLength ⟨{ x.oxmId with hasmask := true }, .exp expId value mask⟩

/-! ### The getters of `coxmatch_exp` -/

/-- `get_u8value` to `get_u64value`, of `n` octets. -/
def getExpValue (x : Coxmatch) (n : ℕ) : Except MatchException ℕ :=
  match x.body with
  | .fixed .. => .error .badCast
  | .exp _ value _ => if value.length < n then .error .oxmInval else .ok (number (value.take n))

/-- `get_u8mask` to `get_u64mask`: ones where there are too few octets. -/
def getExpMask (x : Coxmatch) (n : ℕ) : Except MatchException ℕ :=
  match x.body with
  | .fixed .. => .error .badCast
  | .exp _ _ mask => .ok (if mask.length < n then 256 ^ n - 1 else number (mask.take n))

/-! ### What `unpack` yields

`Decoded x y` holds of the objects `y` that `x.unpack` can make (`decoded_of_unpack`),
and each of them is what `x.unpack` makes of the image of `y`
(`unpack_image`). -/

inductive Decoded : Coxmatch → Coxmatch → Prop
  | masked {id id' : OxmId} {w : OxmWidth} {value value' mask mask' : Fin w.capacity} (hmask : id'.hasmask = true)
      (hvalue' : (value' : ℕ) < 256 ^ w.octets) (hmask' : (mask' : ℕ) < 256 ^ w.octets) :
      Decoded ⟨id, .fixed w value mask⟩ ⟨id', .fixed w value' mask'⟩
  | plain {id id' : OxmId} {w : OxmWidth} {value value' mask : Fin w.capacity} (hmask : id'.hasmask = false)
      (hvalue' : (value' : ℕ) < 256 ^ w.octets) :
      Decoded ⟨id, .fixed w value mask⟩ ⟨id', .fixed w value' (w.unmasked mask)⟩
  | expMasked {id id' : OxmId} {expId expId' : UInt32} {value value' mask mask' : List UInt8}
      (hmask : id'.hasmask = true) (hsame : value'.length = mask'.length)
      (hlength : 4 + value'.length + mask'.length = id'.oxmLength.toNat) :
      Decoded ⟨id, .exp expId value mask⟩ ⟨id', .exp expId' value' mask'⟩
  | expPlain {id id' : OxmId} {expId expId' : UInt32} {value value' mask : List UInt8}
      (hmask : id'.hasmask = false) (hlength : 4 + value'.length = id'.oxmLength.toNat) :
      Decoded ⟨id, .exp expId value mask⟩ ⟨id', .exp expId' value' (Cmemory.clear mask)⟩

theorem length_exp {id : OxmId} {expId : UInt32} {value mask : List UInt8} {n : ℕ} :
    length ⟨id, .exp expId value mask⟩ = .ok n ↔
      (id.hasmask = true → value.length = mask.length) ∧ 8 + value.length + mask.length = n := by
  change (if id.hasmask = true ∧ value.length ≠ mask.length then Except.error MatchException.oxmInval
    else .ok (8 + value.length + mask.length)) = .ok n ↔ _
  by_cases h : id.hasmask = true ∧ value.length ≠ mask.length
  · rw [if_pos h]
    exact ⟨fun he => (by cases he), fun hn => absurd (hn.1 h.1) h.2⟩
  · rw [if_neg h, Except.ok.injEq]
    exact (and_iff_right fun hm => by_contra fun hne => h ⟨hm, hne⟩).symm

theorem number_take_lt (l : List UInt8) (n : ℕ) : number (l.take n) < 256 ^ n :=
  (number_lt _).trans_le (Nat.pow_le_pow_right (by decide) (List.length_take_le n l))

theorem assign_eq_ok {src mem : List UInt8} {n : ℕ} :
    Cmemory.assign src n = .ok mem ↔ n < 281474976710656 ∧ src.take n = mem := by
  unfold Cmemory.assign
  split <;> simp_all

theorem decoded_of_unpack {x y : Coxmatch} {buf : List UInt8} (h : x.unpack buf = .ok y) : Decoded x y := by
  obtain ⟨id, body⟩ := x
  cases body with
  | fixed w value mask =>
    simp only [unpack] at h
    split_ifs at h with hshort hlen hmask
    · cases h
      refine .masked hmask ?_ ?_
      · rw [OxmWidth.val_store (number_take_lt _ _)]
        exact number_take_lt _ _
      · rw [OxmWidth.val_store (number_take_lt _ _)]
        exact number_take_lt _ _
    · cases h
      refine .plain (by simpa using hmask) ?_
      rw [OxmWidth.val_store (number_take_lt _ _)]
      exact number_take_lt _ _
  | exp expId value mask =>
    simp only [unpack] at h
    have hlt := (OxmId.ofOctets buf).oxmLength.toNat_lt
    split_ifs at h with hshort hheader hlen hmask hodd
    · obtain ⟨value', hvalue, h⟩ := Except.bind_eq_ok.mp h
      obtain ⟨hn, rfl⟩ := assign_eq_ok.mp hvalue
      cases h
      refine .expPlain (by simpa using hmask) ?_
      rw [List.length_take, List.length_drop]
      omega
    · obtain ⟨value', hvalue, h⟩ := Except.bind_eq_ok.mp h
      obtain ⟨mask', hmask', h⟩ := Except.bind_eq_ok.mp h
      obtain ⟨hn, rfl⟩ := assign_eq_ok.mp hvalue
      obtain ⟨-, rfl⟩ := assign_eq_ok.mp hmask'
      cases h
      refine .expMasked (by simpa using hmask) ?_ ?_
      · rw [List.length_take, List.length_take, List.length_drop, List.length_drop]
        omega
      · rw [List.length_take, List.length_take, List.length_drop, List.length_drop]
        omega

theorem unpack_fixed {id : OxmId} {w : OxmWidth} {value mask : Fin w.capacity} {y : Coxmatch} {buf : List UInt8}
    (h : unpack ⟨id, .fixed w value mask⟩ buf = .ok y) :
    ∃ value' mask', y = ⟨OxmId.ofOctets buf, .fixed w value' mask'⟩ := by
  simp only [unpack] at h
  split_ifs at h with hshort hlen hmask
  · cases h
    exact ⟨_, _, rfl⟩
  · cases h
    exact ⟨_, _, rfl⟩

theorem unpack_exp {id : OxmId} {expId : UInt32} {value mask : List UInt8} {y : Coxmatch} {buf : List UInt8}
    (h : unpack ⟨id, .exp expId value mask⟩ buf = .ok y) :
    ∃ value' mask', y = ⟨OxmId.ofOctets buf, .exp (UInt32.ofNat (number ((buf.drop 4).take 4))) value' mask'⟩ := by
  simp only [unpack] at h
  split_ifs at h with hshort hheader hlen hmask hodd
  · obtain ⟨value', -, h⟩ := Except.bind_eq_ok.mp h
    cases h
    exact ⟨_, _, rfl⟩
  · obtain ⟨value', -, h⟩ := Except.bind_eq_ok.mp h
    obtain ⟨mask', -, h⟩ := Except.bind_eq_ok.mp h
    cases h
    exact ⟨_, _, rfl⟩

theorem ofOctets_image (x : Coxmatch) (rest : List UInt8) : OxmId.ofOctets (x.image ++ rest) = x.oxmId := by
  obtain ⟨id, body⟩ := x
  cases body with
  | fixed w value mask => simp only [image, List.append_assoc, OxmId.ofOctets_append]
  | exp expId value mask => simp only [image, List.append_assoc, OxmId.ofOctets_append]

theorem drop_id (id : OxmId) (rest : List UInt8) : (id.toOctets ++ rest).drop 4 = rest := List.drop_left' rfl

theorem drop_id_append (id : OxmId) {bs : List UInt8} {n : ℕ} (h : bs.length = n) (rest : List UInt8) :
    (id.toOctets ++ (bs ++ rest)).drop (4 + n) = rest := by
  rw [← List.append_assoc]
  exact List.drop_left' (by simp [h])

theorem drop_exp (id : OxmId) (expId : UInt32) (rest : List UInt8) :
    (id.toOctets ++ (octets 4 expId.toNat ++ rest)).drop 8 = rest :=
  drop_id_append id (length_octets 4 _) rest

theorem drop_exp_append (id : OxmId) (expId : UInt32) (bs rest : List UInt8) :
    (id.toOctets ++ (octets 4 expId.toNat ++ (bs ++ rest))).drop (8 + bs.length) = rest := by
  rw [← List.drop_drop, drop_exp, List.drop_left]

theorem expId_octets (expId : UInt32) : UInt32.ofNat (number (octets 4 expId.toNat)) = expId := by
  rw [number_octets_of_lt expId.toNat_lt, UInt32.ofNat_toNat]

theorem unpack_image {x y : Coxmatch} (h : Decoded x y) (rest : List UInt8) :
    x.unpack (y.image ++ rest) = .ok y := by
  cases h with
  | @masked id id' w value value' mask mask' hmask hvalue' hmask' =>
    have htake : ∀ (v : ℕ) r, (octets w.octets v ++ r).take w.octets = octets w.octets v := fun v r =>
      List.take_left' (length_octets _ _)
    simp only [unpack, image, hasmask, hmask, if_true, List.append_assoc, OxmId.ofOctets_append, drop_id,
      drop_id_append _ (length_octets _ _), htake, number_octets_of_lt hvalue', number_octets_of_lt hmask',
      OxmWidth.store_val]
    have hlen : ¬ (id'.toOctets ++ (octets w.octets value' ++ (octets w.octets mask' ++ rest))).length <
        4 + w.length true := by
      simp [OxmWidth.length]
      omega
    rw [if_neg (by omega), if_neg hlen]
  | @plain id id' w value value' mask hmask hvalue' =>
    have htake : ∀ r, (octets w.octets value' ++ r).take w.octets = octets w.octets value' := fun r =>
      List.take_left' (length_octets _ _)
    simp only [unpack, image, hasmask, hmask, Bool.false_eq_true, if_false, List.append_nil, List.append_assoc,
      OxmId.ofOctets_append, drop_id, htake, number_octets_of_lt hvalue', OxmWidth.store_val]
    have hlen : ¬ (id'.toOctets ++ (octets w.octets value' ++ rest)).length < 4 + w.length false := by
      simp [OxmWidth.length]
    rw [if_neg (by omega), if_neg hlen]
  | @expMasked id id' expId expId' value value' mask mask' hmask hsame hlength =>
    have hlt := id'.oxmLength.toNat_lt
    have hbody : (id'.oxmLength.toNat + 18446744073709551612) % 18446744073709551616 = 2 * value'.length := by
      omega
    have hhalf : 2 * value'.length / 2 = value'.length := by omega
    have hvalue : Cmemory.assign (value' ++ (mask' ++ rest)) value'.length = .ok value' :=
      assign_eq_ok.mpr ⟨by omega, List.take_left' rfl⟩
    have hmask' : Cmemory.assign (mask' ++ rest) value'.length = .ok mask' :=
      assign_eq_ok.mpr ⟨by omega, List.take_left' hsame.symm⟩
    have hlen : ¬ (id'.toOctets ++ (octets 4 expId'.toNat ++ (value' ++ (mask' ++ rest)))).length <
        4 + id'.oxmLength.toNat := by
      simp
      omega
    simp only [unpack, image, hasmask, hmask, if_true, List.append_assoc, OxmId.ofOctets_append, drop_id,
      List.take_left' (length_octets 4 _), expId_octets, hbody, hhalf, drop_exp, drop_exp_append, hvalue, hmask']
    rw [if_neg (by omega), if_neg (by omega), if_neg hlen, if_neg (by simp), if_neg (by omega)]
    rfl
  | @expPlain id id' expId expId' value value' mask hmask hlength =>
    have hlt := id'.oxmLength.toNat_lt
    have hbody : (id'.oxmLength.toNat + 18446744073709551612) % 18446744073709551616 = value'.length := by
      omega
    have hvalue : Cmemory.assign (value' ++ rest) value'.length = .ok value' :=
      assign_eq_ok.mpr ⟨by omega, List.take_left' rfl⟩
    have hlen : ¬ (id'.toOctets ++ (octets 4 expId'.toNat ++ (value' ++ rest))).length <
        4 + id'.oxmLength.toNat := by
      simp
      omega
    simp only [unpack, image, hasmask, hmask, Bool.false_eq_true, if_false, List.append_nil, List.append_assoc,
      OxmId.ofOctets_append, drop_id, List.take_left' (length_octets 4 _), expId_octets, hbody, drop_exp, hvalue]
    rw [if_neg (by omega), if_neg (by omega), if_neg hlen, if_pos (by simp)]
    rfl

end Coxmatch
end RoflCommon
