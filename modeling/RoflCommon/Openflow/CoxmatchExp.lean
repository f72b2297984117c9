/-
`coxmatch_exp` as an object: its constructors, the setters, and `unpack` with what it leaves
when it throws.

The length in `oxm_id` is set by the setters alone, and nothing shortens a mask: `unpack`
clears the octets of both memories, not their size, and puts the new `oxm_id` in before it
looks at the rest. `inStep_apply_iff` says after which calls the object and its `oxm_id`
belong together, whatever came before.
-/
import RoflCommon.Openflow.Coxmatch
import RoflCommon.Lib.Runs

namespace RoflCommon

open Octets

structure CoxmatchExp where
  oxmId : OxmId
  expId : UInt32
  value : List UInt8
  mask : List UInt8
deriving DecidableEq, Repr

/-- The numbers of `set_u8value` to `set_u64value`. -/
inductive ExpWidth
  | u8 | u16 | u32 | u48 | u64
deriving DecidableEq, Repr

namespace ExpWidth

def octets : ExpWidth → ℕ
  | u8 => 1
  | u16 => 2
  | u32 => 4
  | u48 => 6
  | u64 => 8

theorem octets_le (w : ExpWidth) : w.octets ≤ 8 := by cases w <;> decide

end ExpWidth

namespace CoxmatchExp

/-- The object as one of the match classes. -/
def oxm (x : CoxmatchExp) : Coxmatch := ⟨x.oxmId, .exp x.expId x.value x.mask⟩

/-! ## Setters -/

def adjustOxmLength (x : CoxmatchExp) : CoxmatchExp :=
  let n := 4 + x.value.length + if x.oxmId.hasmask then x.mask.length else 0
  { x with oxmId := { x.oxmId with oxmLength := UInt8.ofNat n } }

def setValue (x : CoxmatchExp) (value : List UInt8) : CoxmatchExp := adjustOxmLength { x with value }

def setMask (x : CoxmatchExp) (mask : List UInt8) : CoxmatchExp :=
  adjustOxmLength { x with mask, oxmId := { x.oxmId with hasmask := true } }

/-- `set_u8value` to `set_u64value`. -/
def setUnsignedValue (x : CoxmatchExp) (w : ExpWidth) (value : ℕ) : CoxmatchExp := x.setValue (octets w.octets value)

/-- `set_u8mask` to `set_u64mask`. -/
def setUnsignedMask (x : CoxmatchExp) (w : ExpWidth) (mask : ℕ) : CoxmatchExp := x.setMask (octets w.octets mask)

/-! ## Constructors -/

/-- `coxmatch_exp()`. -/
def new : CoxmatchExp := ⟨⟨0, 0, false, 0⟩, 0, [], []⟩

/-- `coxmatch_exp(oxm_id, exp_id)`. -/
def ofIds (oxmId : OxmId) (expId : UInt32) : CoxmatchExp := ⟨oxmId, expId, [], []⟩

def ofValue (oxmId : OxmId) (expId : UInt32) (w : ExpWidth) (value : ℕ) : CoxmatchExp :=
  (ofIds oxmId expId).setUnsignedValue w value

def ofMasked (oxmId : OxmId) (expId : UInt32) (w : ExpWidth) (value mask : ℕ) : CoxmatchExp :=
  ((ofIds oxmId expId).setUnsignedValue w value).setUnsignedMask w mask

/-! ## `unpack` -/

/-- `oxm_length` without the experimenter id, as a `size_t`. -/
def bodylen (id : OxmId) : ℕ := (id.oxmLength.toNat + 18446744073709551612) % 18446744073709551616

/-- Value and mask, behind the header. Where `assign` throws, the size of the memory stays, of
which there is none any more. -/
def unpackBody (x : CoxmatchExp) (buf : List UInt8) (bodylen : ℕ) : CoxmatchExp × Option MatchException :=
  if !x.oxmId.hasmask then
    match Cmemory.assign (buf.drop 8) bodylen with
    | .error e => (x, some e)
    | .ok value => ({ x with value }, none)
  else if bodylen % 2 ≠ 0 then (x, some .oxmBadLen)
  else
    match Cmemory.assign (buf.drop 8) (bodylen / 2) with
    | .error e => (x, some e)
    | .ok value =>
      match Cmemory.assign (buf.drop (8 + bodylen / 2)) (bodylen / 2) with
      | .error e => ({ x with value }, some e)
      | .ok mask => ({ x with value, mask }, none)

/-- What is left, and what is thrown. -/
def unpack (x : CoxmatchExp) (buf : List UInt8) : CoxmatchExp × Option MatchException :=
  let x := { x with value := Cmemory.clear x.value, mask := Cmemory.clear x.mask }
  if buf.length < 4 then (x, some .oxmBadLen)
  else
    let x := { x with oxmId := .ofOctets buf }
    if buf.length < 8 then (x, some .oxmBadLen)
    else
      let x := { x with expId := UInt32.ofNat (number ((buf.drop 4).take 4)) }
      if buf.length < 4 + x.oxmId.oxmLength.toNat then (x, some .oxmBadLen)
      else x.unpackBody buf (bodylen x.oxmId)

/-- It is the `unpack` of the match classes. -/
theorem unpack_oxm (x : CoxmatchExp) (buf : List UInt8) :
    x.oxm.unpack buf = match (x.unpack buf).2 with
      | none => .ok (x.unpack buf).1.oxm
      | some e => .error e := by
  obtain ⟨id, expId, value, mask⟩ := x
  simp only [oxm, Coxmatch.unpack, unpack]
  have hbodylen : ((OxmId.ofOctets buf).oxmLength.toNat + 18446744073709551612) % 18446744073709551616 =
    bodylen (.ofOctets buf) := rfl
  rw [hbodylen]
  generalize bodylen (.ofOctets buf) = bodylen
  unfold unpackBody
  split_ifs
  · rfl
  · rfl
  · rfl
  · cases Cmemory.assign (buf.drop 8) bodylen <;> rfl
  · rfl
  · cases Cmemory.assign (buf.drop 8) (bodylen / 2) with
    | error e => rfl
    | ok value => cases Cmemory.assign (buf.drop (8 + bodylen / 2)) (bodylen / 2) <;> rfl

theorem oxm_inj {x y : CoxmatchExp} (h : x.oxm = y.oxm) : x = y := by
  obtain ⟨id, expId, value, mask⟩ := x
  obtain ⟨id', expId', value', mask'⟩ := y
  simp only [oxm, Coxmatch.mk.injEq, OxmBody.exp.injEq] at h
  obtain ⟨rfl, rfl, rfl, rfl⟩ := h
  rfl

/-- The buffer holds a TLV of this class, all of it. -/
structure Holds (buf : List UInt8) : Prop where
  header : 8 ≤ buf.length
  body : 4 + (OxmId.ofOctets buf).oxmLength.toNat ≤ buf.length
  expId : 4 ≤ (OxmId.ofOctets buf).oxmLength.toNat
  even : (OxmId.ofOctets buf).hasmask = true → (OxmId.ofOctets buf).oxmLength.toNat % 2 = 0

instance (buf : List UInt8) : Decidable (Holds buf) :=
  decidable_of_iff (8 ≤ buf.length ∧ 4 + (OxmId.ofOctets buf).oxmLength.toNat ≤ buf.length ∧
    4 ≤ (OxmId.ofOctets buf).oxmLength.toNat ∧
    ((OxmId.ofOctets buf).hasmask = true → (OxmId.ofOctets buf).oxmLength.toNat % 2 = 0))
    ⟨fun h => ⟨h.1, h.2.1, h.2.2.1, h.2.2.2⟩, fun h => ⟨h.header, h.body, h.expId, h.even⟩⟩

variable {x y : CoxmatchExp} {buf : List UInt8}

theorem bodylen_of_le {id : OxmId} (h : 4 ≤ id.oxmLength.toNat) : bodylen id = id.oxmLength.toNat - 4 := by
  have := id.oxmLength.toNat_lt
  unfold bodylen
  omega

theorem bodylen_of_lt {id : OxmId} (h : id.oxmLength.toNat < 4) : 562949953421312 ≤ bodylen id := by
  unfold bodylen
  omega

/-- Behind the checks. -/
theorem unpack_eq (hheader : 8 ≤ buf.length) (hbody : 4 + (OxmId.ofOctets buf).oxmLength.toNat ≤ buf.length)
    (x : CoxmatchExp) : x.unpack buf = unpackBody ⟨.ofOctets buf, UInt32.ofNat (number ((buf.drop 4).take 4)),
      Cmemory.clear x.value, Cmemory.clear x.mask⟩ buf (bodylen (.ofOctets buf)) := by
  have hshort : ¬buf.length < 4 := by omega
  simp only [unpack, if_neg hshort, if_neg (not_lt.mpr hheader), if_neg (not_lt.mpr hbody)]

/-- What is taken out of such a buffer. -/
theorem unpack_of_holds (h : Holds buf) : ∃ value mask, (∀ x : CoxmatchExp, x.unpack buf =
    (⟨.ofOctets buf, UInt32.ofNat (number ((buf.drop 4).take 4)), value,
      if (OxmId.ofOctets buf).hasmask then mask else Cmemory.clear x.mask⟩, none)) ∧
    4 + value.length + (if (OxmId.ofOctets buf).hasmask then mask.length else 0) =
      (OxmId.ofOctets buf).oxmLength.toNat ∧
    ((OxmId.ofOctets buf).hasmask = true → value.length = mask.length) := by
  obtain ⟨hheader, hbody, hexp, heven⟩ := h
  have hlt := (OxmId.ofOctets buf).oxmLength.toNat_lt
  cases hmask : (OxmId.ofOctets buf).hasmask with
  | false =>
    have hassign : Cmemory.assign (buf.drop 8) ((OxmId.ofOctets buf).oxmLength.toNat - 4) =
        .ok ((buf.drop 8).take ((OxmId.ofOctets buf).oxmLength.toNat - 4)) :=
      Coxmatch.assign_eq_ok.mpr ⟨by omega, rfl⟩
    refine ⟨(buf.drop 8).take ((OxmId.ofOctets buf).oxmLength.toNat - 4), [], fun x => ?_, ?_, by simp⟩
    · rw [unpack_eq hheader hbody, bodylen_of_le hexp]
      simp [unpackBody, hmask, hassign]
    · rw [List.length_take, List.length_drop]
      simp
      omega
  | true =>
    have heven := heven hmask
    have hvalue : ∀ n, n < 256 → Cmemory.assign (buf.drop 8) n = .ok ((buf.drop 8).take n) := fun n hn =>
      Coxmatch.assign_eq_ok.mpr ⟨by omega, rfl⟩
    have hmask' : ∀ n, n < 256 → Cmemory.assign (buf.drop (8 + n)) n = .ok ((buf.drop (8 + n)).take n) :=
      fun n hn => Coxmatch.assign_eq_ok.mpr ⟨by omega, rfl⟩
    have heven' : ((OxmId.ofOctets buf).oxmLength.toNat - 4) % 2 = 0 := by omega
    generalize hhalf : ((OxmId.ofOctets buf).oxmLength.toNat - 4) / 2 = half
    refine ⟨(buf.drop 8).take half, (buf.drop (8 + half)).take half, fun x => ?_, ?_, fun _ => ?_⟩
    · rw [unpack_eq hheader hbody, bodylen_of_le hexp]
      simp [unpackBody, hmask, heven', hhalf, hvalue half (by omega), hmask' half (by omega)]
    · rw [List.length_take, List.length_drop, List.length_take, List.length_drop]
      simp
      omega
    · rw [List.length_take, List.length_drop, List.length_take, List.length_drop]
      omega

theorem assign_eq_error {src : List UInt8} {n : ℕ} (h : 281474976710656 ≤ n) :
    Cmemory.assign src n = .error .sysCall := by
  unfold Cmemory.assign
  rw [if_neg (not_lt.mpr h)]

@[simp] theorem length_clear (mem : List UInt8) : (Cmemory.clear mem).length = mem.length := List.length_replicate

/-- What is left of an object that `unpack` throws out of: memory of the same sizes, and an
`oxm_id` off the wire where there was one. -/
structure Leaves (x : CoxmatchExp) (buf : List UInt8) (y : CoxmatchExp) : Prop where
  oxmId : y.oxmId = if buf.length < 4 then x.oxmId else .ofOctets buf
  value : y.value.length = x.value.length
  mask : y.mask.length = x.mask.length

theorem Leaves.cleared (h : ¬buf.length < 4) (hid : y.oxmId = .ofOctets buf) (hvalue : y.value = Cmemory.clear x.value)
    (hmask : y.mask = Cmemory.clear x.mask) : Leaves x buf y where
  oxmId := by rw [hid, if_neg h]
  value := by rw [hvalue, length_clear]
  mask := by rw [hmask, length_clear]

/-- A length that has wrapped, or that is odd and there is a mask. -/
theorem unpackBody_throws {bodylen : ℕ} (h : 562949953421312 ≤ bodylen ∨ x.oxmId.hasmask = true ∧ bodylen % 2 ≠ 0) :
    ∃ e, x.unpackBody buf bodylen = (x, some e) := by
  unfold unpackBody
  by_cases hodd : x.oxmId.hasmask = true ∧ bodylen % 2 ≠ 0
  · rw [if_neg (by simp [hodd.1]), if_pos hodd.2]
    exact ⟨_, rfl⟩
  · have hhuge := h.resolve_right hodd
    have hvalue : Cmemory.assign (buf.drop 8) bodylen = .error .sysCall := assign_eq_error (by omega)
    have hhalf : Cmemory.assign (buf.drop 8) (bodylen / 2) = .error .sysCall := assign_eq_error (by omega)
    rw [hvalue, hhalf]
    split_ifs
    · exact ⟨_, rfl⟩
    · exact ⟨_, rfl⟩
    · exact ⟨_, rfl⟩

theorem unpack_of_not_holds (h : ¬Holds buf) (x : CoxmatchExp) :
    (x.unpack buf).2 ≠ none ∧ Leaves x buf (x.unpack buf).1 := by
  by_cases hshort : buf.length < 4
  · simp only [unpack, if_pos hshort]
    exact ⟨by simp, by simp [hshort], length_clear _, length_clear _⟩
  · by_cases hheader : buf.length < 8
    · simp only [unpack, if_neg hshort, if_pos hheader]
      exact ⟨by simp, .cleared hshort rfl rfl rfl⟩
    · by_cases hbody : buf.length < 4 + (OxmId.ofOctets buf).oxmLength.toNat
      · simp only [unpack, if_neg hshort, if_neg hheader, if_pos hbody]
        exact ⟨by simp, .cleared hshort rfl rfl rfl⟩
      · have hbad : 562949953421312 ≤ bodylen (.ofOctets buf) ∨
            (OxmId.ofOctets buf).hasmask = true ∧ bodylen (.ofOctets buf) % 2 ≠ 0 := by
          by_cases hexp : 4 ≤ (OxmId.ofOctets buf).oxmLength.toNat
          · refine .inr ?_
            rw [bodylen_of_le hexp]
            by_contra heven
            refine h ⟨by omega, by omega, hexp, fun hmask => ?_⟩
            have heven : ((OxmId.ofOctets buf).oxmLength.toNat - 4) % 2 = 0 :=
              by_contra fun hodd => heven ⟨hmask, hodd⟩
            omega
          · exact .inl (bodylen_of_lt (by omega))
        rw [unpack_eq (by omega) (by omega)]
        obtain ⟨e, he⟩ := unpackBody_throws (x := ⟨.ofOctets buf, UInt32.ofNat (number ((buf.drop 4).take 4)),
          Cmemory.clear x.value, Cmemory.clear x.mask⟩) hbad
        rw [he]
        exact ⟨by simp, .cleared hshort rfl rfl rfl⟩

/-! ## The object and its `oxm_id` -/

/-- The length in `oxm_id` is that of the object, and the object comes back from the octets
that it packs to. -/
structure InStep (x : CoxmatchExp) : Prop where
  length : x.oxm.length = .ok (4 + x.oxmId.oxmLength.toNat)
  packs : ∃ img, img.length = 4 + x.oxmId.oxmLength.toNat ∧ new.unpack img = (x, none) ∧
    ∀ buf : List UInt8, img.length ≤ buf.length → x.oxm.pack buf = .ok (x.oxm, img ++ buf.drop img.length)

/-- A value and a mask of one size, or no mask, and their length in `oxm_id`. -/
structure Lengths (id : OxmId) (value mask : ℕ) : Prop where
  same : id.hasmask = true → value = mask
  unmasked : id.hasmask = false → mask = 0
  length : 4 + value + mask = id.oxmLength.toNat

theorem lengths_iff {id : OxmId} {value mask : ℕ} : Lengths id value mask ↔
    (if id.hasmask then value = mask else mask = 0) ∧ 4 + value + mask = id.oxmLength.toNat := by
  constructor
  · intro h
    refine ⟨?_, h.length⟩
    split_ifs with hmask
    · exact h.same hmask
    · exact h.unmasked (Bool.eq_false_of_not_eq_true hmask)
  · intro h
    refine ⟨fun hmask => ?_, fun hmask => ?_, h.2⟩
    · simpa [hmask] using h.1
    · simpa [hmask] using h.1

theorem InStep.lengths (h : x.InStep) : Lengths x.oxmId x.value.length x.mask.length := by
  obtain ⟨hsame, hlen⟩ := Coxmatch.length_exp.mp h.length
  obtain ⟨img, himg, hunpack, -⟩ := h.packs
  refine ⟨hsame, fun hplain => ?_, by omega⟩
  -- a new object has no mask, and gets none
  have hholds : Holds img := by
    by_contra hnot
    have hthrown := (unpack_of_not_holds hnot new).1
    rw [hunpack] at hthrown
    exact hthrown rfl
  obtain ⟨value, mask, hall, -, -⟩ := unpack_of_holds hholds
  rw [hall new, Prod.mk.injEq] at hunpack
  have hid : x.oxmId = .ofOctets img := by rw [← hunpack.1]
  have hmask : x.mask = Cmemory.clear [] := by
    rw [← hunpack.1, ← hid, hplain]
    rfl
  rw [hmask, length_clear, List.length_nil]

theorem inStep_of_lengths (h : Lengths x.oxmId x.value.length x.mask.length) : x.InStep := by
  have hlength : x.oxm.length = .ok (4 + x.oxmId.oxmLength.toNat) := by
    refine Coxmatch.length_exp.mpr ⟨h.same, ?_⟩
    have := h.length
    omega
  have himage : x.oxm.image.length = 4 + x.oxmId.oxmLength.toNat := by
    have hlen := h.length
    have hoxm : x.oxm.image =
        x.oxmId.toOctets ++ octets 4 x.expId.toNat ++ x.value ++ if x.oxmId.hasmask then x.mask else [] := rfl
    rw [hoxm]
    simp only [List.length_append, OxmId.length_toOctets, length_octets]
    by_cases hmask : x.oxmId.hasmask = true
    · rw [if_pos hmask]
      omega
    · have := h.unmasked (Bool.eq_false_of_not_eq_true hmask)
      rw [if_neg hmask, List.length_nil]
      omega
  have hdecoded : Coxmatch.Decoded new.oxm x.oxm := by
    have hlen := h.length
    cases hmask : x.oxmId.hasmask with
    | false =>
      have hnil : x.mask = Cmemory.clear [] := List.eq_nil_of_length_eq_zero (h.unmasked hmask)
      have hnone : x.mask.length = 0 := h.unmasked hmask
      rw [oxm, oxm, hnil]
      exact .expPlain hmask (by omega)
    | true => exact .expMasked hmask (h.same hmask) (by omega)
  refine ⟨hlength, x.oxm.image, himage, ?_, fun buf hbuf => ?_⟩
  · have hback := Coxmatch.unpack_image hdecoded []
    rw [List.append_nil, unpack_oxm] at hback
    cases hthrown : (new.unpack x.oxm.image).2 with
    | some e =>
      rw [hthrown] at hback
      cases hback
    | none =>
      rw [hthrown] at hback
      refine Prod.ext ?_ hthrown
      exact oxm_inj (Except.ok.inj hback)
  · have hlen : ¬buf.length < 4 + x.oxmId.oxmLength.toNat := by omega
    unfold Coxmatch.pack
    refine Except.bind_eq_ok.mpr ⟨_, hlength, ?_⟩
    rw [if_neg hlen]
    rfl

theorem inStep_iff : x.InStep ↔ Lengths x.oxmId x.value.length x.mask.length := ⟨InStep.lengths, inStep_of_lengths⟩

/-! ## Every call -/

/-- The object a constructor makes. -/
inductive Ctor
  | default
  | ids (oxmId : OxmId) (expId : UInt32)
  | value (oxmId : OxmId) (expId : UInt32) (w : ExpWidth) (v : ℕ)
  | masked (oxmId : OxmId) (expId : UInt32) (w : ExpWidth) (v m : ℕ)

def Ctor.object : Ctor → CoxmatchExp
  | .default => new
  | .ids oxmId expId => ofIds oxmId expId
  | .value oxmId expId w v => ofValue oxmId expId w v
  | .masked oxmId expId w v m => ofMasked oxmId expId w v m

inductive Call
  | setValue (value : List UInt8)
  | setMask (mask : List UInt8)
  | setUnsignedValue (w : ExpWidth) (value : ℕ)
  | setUnsignedMask (w : ExpWidth) (mask : ℕ)
  | unpack (buf : List UInt8)

def apply (x : CoxmatchExp) : Call → CoxmatchExp
  | .setValue value => x.setValue value
  | .setMask mask => x.setMask mask
  | .setUnsignedValue w value => x.setUnsignedValue w value
  | .setUnsignedMask w mask => x.setUnsignedMask w mask
  | .unpack buf => (x.unpack buf).1

/-- What a call is to leave: an object in step, with nothing of the TLV that it held when
another has been unpacked; a TLV that is too short for the experimenter id is refused. -/
structure Keeps (x : CoxmatchExp) (call : Call) : Prop where
  inStep : (x.apply call).InStep
  nothingLeft : ∀ buf, call = .unpack buf → (x.unpack buf).2 = none → (x.unpack buf).1 = (new.unpack buf).1
  refused : ∀ buf, call = .unpack buf → 4 ≤ buf.length → (OxmId.ofOctets buf).oxmLength.toNat < 4 →
    (x.unpack buf).2 = some .oxmBadLen

/-- A value of so many octets is as long as the mask, or there is no mask, and their length
is an octet. -/
def ValueFits (x : CoxmatchExp) (n : ℕ) : Prop :=
  (if x.oxmId.hasmask then n = x.mask.length else x.mask = []) ∧ 4 + n + x.mask.length < 256

def MaskFits (x : CoxmatchExp) (n : ℕ) : Prop := x.value.length = n ∧ 4 + x.value.length + n < 256

/-- A TLV is unpacked that has a mask, or into an object without octets of one; or what throws
leaves an `oxm_id` for the memory that is there. -/
def Ok (x : CoxmatchExp) : Call → Prop
  | .setValue value => x.ValueFits value.length
  | .setMask mask => x.MaskFits mask.length
  | .setUnsignedValue w _ => x.ValueFits w.octets
  | .setUnsignedMask w _ => x.MaskFits w.octets
  | .unpack buf =>
    if Holds buf then (OxmId.ofOctets buf).hasmask = true ∨ x.mask = []
    else Lengths (if buf.length < 4 then x.oxmId else .ofOctets buf) x.value.length x.mask.length

theorem inStep_setValue_iff (value : List UInt8) : (x.setValue value).InStep ↔ x.ValueFits value.length := by
  have hhas : (x.setValue value).oxmId.hasmask = x.oxmId.hasmask := rfl
  have hlen : (x.setValue value).oxmId.oxmLength =
      UInt8.ofNat (4 + value.length + if x.oxmId.hasmask then x.mask.length else 0) := rfl
  have hvalue : (x.setValue value).value = value := rfl
  have hmask : (x.setValue value).mask = x.mask := rfl
  rw [inStep_iff, lengths_iff, hhas, hlen, hvalue, hmask, ValueFits, UInt8.toNat_ofNat', ← List.length_eq_zero_iff]
  split_ifs
  · omega
  · omega

theorem inStep_setMask_iff (mask : List UInt8) : (x.setMask mask).InStep ↔ x.MaskFits mask.length := by
  have hhas : (x.setMask mask).oxmId.hasmask = true := rfl
  have hlen : (x.setMask mask).oxmId.oxmLength = UInt8.ofNat (4 + x.value.length + mask.length) := rfl
  have hvalue : (x.setMask mask).value = x.value := rfl
  have hmask : (x.setMask mask).mask = mask := rfl
  rw [inStep_iff, lengths_iff, hhas, hlen, hvalue, hmask, MaskFits, UInt8.toNat_ofNat', if_pos rfl]
  omega

theorem keeps_of_inStep {call : Call} (hcall : ∀ buf, call ≠ .unpack buf) : x.Keeps call ↔ (x.apply call).InStep :=
  ⟨fun h => h.inStep, fun h => ⟨h, fun buf hbuf => absurd hbuf (hcall buf), fun buf hbuf => absurd hbuf (hcall buf)⟩⟩

theorem keeps_unpack_iff (buf : List UInt8) : x.Keeps (.unpack buf) ↔ x.Ok (.unpack buf) := by
  simp only [Ok]
  by_cases hholds : Holds buf
  · obtain ⟨value, mask, hall, hlen, hsame⟩ := unpack_of_holds hholds
    have hshort : ¬(OxmId.ofOctets buf).oxmLength.toNat < 4 := not_lt.mpr hholds.expId
    rw [if_pos hholds]
    constructor
    · intro h
      by_cases hmask : (OxmId.ofOctets buf).hasmask = true
      · exact .inl hmask
      · refine .inr ?_
        have hnone := h.inStep.lengths.unmasked (by simpa [apply, hall] using hmask)
        simpa [apply, hall, hmask] using hnone
    · intro h
      have hfresh : (x.unpack buf).1 = (new.unpack buf).1 := by
        rw [hall, hall]
        rcases h with hmask | hnil
        · simp [hmask]
        · rw [hnil]
          rfl
      refine ⟨inStep_iff.mpr (lengths_iff.mpr ?_), fun b hb _ => ?_, fun b hb _ hlt => ?_⟩
      · change (if (x.unpack buf).1.oxmId.hasmask then _ else _) ∧ _
        rw [apply, hfresh, hall new]
        by_cases hmask : (OxmId.ofOctets buf).hasmask = true
        · rw [if_pos hmask] at hlen
          simpa [hmask, hlen] using hsame hmask
        · rw [if_neg hmask] at hlen
          simpa [hmask, new] using hlen
      · obtain rfl := Call.unpack.inj hb
        exact hfresh
      · obtain rfl := Call.unpack.inj hb
        exact absurd hlt hshort
  · obtain ⟨hthrown, hid, hvalue, hmask⟩ := unpack_of_not_holds hholds x
    rw [if_neg hholds, ← hid, ← hvalue, ← hmask]
    refine ⟨fun h => inStep_iff.mp h.inStep, fun h => ⟨inStep_iff.mpr h, fun b hb hnone => ?_, fun b hb hfour hlt => ?_⟩⟩
    · obtain rfl := Call.unpack.inj hb
      exact absurd hnone hthrown
    · obtain rfl := Call.unpack.inj hb
      have hlen := h.length
      rw [hid, if_neg (not_lt.mpr hfour)] at hlen
      omega

/-- **After any call the object is in step exactly when** the call fits what was there. -/
theorem keeps_iff_ok (x : CoxmatchExp) (call : Call) : x.Keeps call ↔ x.Ok call := by
  cases call with
  | setValue value => exact (keeps_of_inStep (by simp)).trans (inStep_setValue_iff value)
  | setMask mask => exact (keeps_of_inStep (by simp)).trans (inStep_setMask_iff mask)
  | setUnsignedValue w value =>
    rw [keeps_of_inStep (by simp), apply, setUnsignedValue, inStep_setValue_iff, length_octets]
    rfl
  | setUnsignedMask w mask =>
    rw [keeps_of_inStep (by simp), apply, setUnsignedMask, inStep_setMask_iff, length_octets]
    rfl
  | unpack buf => exact keeps_unpack_iff buf

/-! ## Every run -/

/-- The identifiers are those of a TLV without a body, there is a value and no flag for a mask,
or a value and a mask. -/
def Ctor.Ok : Ctor → Prop
  | .default => False
  | .ids oxmId _ => oxmId.oxmLength = 4
  | .value oxmId _ _ _ => oxmId.hasmask = false
  | .masked _ _ _ _ _ => True

theorem inStep_object_iff (c : Ctor) : c.object.InStep ↔ c.Ok := by
  cases c with
  | default => exact iff_of_false (fun h => absurd h.lengths.length (by decide)) id
  | ids oxmId expId =>
    rw [Ctor.object, inStep_iff, lengths_iff, Ctor.Ok, ← UInt8.toNat_inj]
    change (if oxmId.hasmask then 0 = 0 else 0 = 0) ∧ 4 + 0 + 0 = oxmId.oxmLength.toNat ↔ oxmId.oxmLength.toNat = 4
    split_ifs <;> omega
  | value oxmId expId w v =>
    have := w.octets_le
    rw [Ctor.object, ofValue, setUnsignedValue, inStep_setValue_iff, ValueFits, length_octets, Ctor.Ok]
    cases w <;> simp [ofIds, ExpWidth.octets]
  | masked oxmId expId w v m =>
    have := w.octets_le
    rw [Ctor.object, ofMasked, setUnsignedMask, inStep_setMask_iff, MaskFits, length_octets, Ctor.Ok]
    refine iff_of_true ⟨length_octets _ _, ?_⟩ trivial
    change 4 + (octets w.octets v).length + w.octets < 256
    rw [length_octets]
    omega

def step (x : CoxmatchExp) (call : Call) : Option CoxmatchExp := some (x.apply call)

theorem run_step (x : CoxmatchExp) (calls : List Call) : Runs.run step x calls = some (calls.foldl apply x) := by
  induction calls generalizing x with
  | nil => rfl
  | cons call calls ih => exact ih (x.apply call)

/-- **Every object and every call after it keeps in step exactly when** constructor and calls
fit. -/
theorem keeps_iff_fit (c : Ctor) (calls : List Call) :
    (c.object.InStep ∧ Runs.Along step (fun x call _ => x.Keeps call) c.object calls) ↔
      (c.Ok ∧ Runs.Meets step Ok c.object calls) := by
  rw [inStep_object_iff]
  refine and_congr_right fun _ => ?_
  exact Runs.along_iff_meets (I := fun _ => True) (fun _ _ _ _ _ => trivial) (fun x call _ _ _ => keeps_iff_ok x call)
    trivial (run_step c.object calls)

/-- A TLV without a mask, into an object that has one: two octets of a mask stay, and `length`
is two more than `oxm_id` says. -/
theorem unpack_over_mask :
    ((Ctor.masked ⟨0xffff, 1, true, 8⟩ 7 .u16 1 0xffff).object.unpack [255, 255, 2, 6, 0, 0, 0, 7, 0, 80]) =
        (⟨⟨0xffff, 1, false, 6⟩, 7, [0, 80], [0, 0]⟩, none) ∧
      ¬(Ctor.masked ⟨0xffff, 1, true, 8⟩ 7 .u16 1 0xffff).object.Keeps
        (.unpack [255, 255, 2, 6, 0, 0, 0, 7, 0, 80]) := by
  have hunpack : ((Ctor.masked ⟨0xffff, 1, true, 8⟩ 7 .u16 1 0xffff).object.unpack [255, 255, 2, 6, 0, 0, 0, 7, 0, 80]) =
      (⟨⟨0xffff, 1, false, 6⟩, 7, [0, 80], [0, 0]⟩, none) := by
    decide
  refine ⟨hunpack, fun h => ?_⟩
  have hlength := h.inStep.length
  rw [apply, hunpack] at hlength
  exact absurd hlength (by decide)

end CoxmatchExp
end RoflCommon
