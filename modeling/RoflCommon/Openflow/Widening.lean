/-
Whether a list of OXM TLVs is decoded in full.

The list is what stands between the header of a match and its padding. A match
that lacks a field of the list matches more packets than its sender asked for,
so a list is to be rejected or all of it is to be in the map. `neverWidens_iff`
says when it is: what the switches do not know has no place in the map, and an
OXM that is longer or shorter than its field is read without looking at that.
-/
import RoflCommon.Openflow.OxmTlvs
import Mathlib.Data.List.Find
import Mathlib.Data.List.Induction

namespace RoflCommon

open Octets

namespace Coxmatches

/-- The places of the TLVs: the padding is not looked at. -/
def tlvs (t : List UInt8) (pad : ℕ) : List (List UInt8) :=
  (walker.elements (t ++ .replicate pad 0)).filter fun l => pad < l.length

/-- The TLV ends where the list does, or before. -/
def Complete (pad : ℕ) (l : List UInt8) : Prop := walker.size l + pad ≤ l.length

/-- An object of the map stands for the TLV: class, field, value and mask. -/
def Represented (x : Coxmatches) (l : List UInt8) : Prop :=
  ∃ o, x.find? (tlvKey l) = some o ∧ o.image = l.take (walker.size l) ∧ MaskSet o

/-- The last TLV with a key, which is the one that stays. -/
def lastTlv (ls : List (List UInt8)) (k : ℕ) : Option (List UInt8) := ls.reverse.find? fun l => tlvKey l = k

/-- A TLV that is read for what it is: a standard field is as long as it has to be, and the
ROFL fields for addresses, which are added with a mask, have one. -/
def ExactAs (k : ℕ) (id : OxmId) : Prop :=
  if id.oxmClass = Openflow.OFPXMC_EXPERIMENTER then
    id.hasmask = true ∨ k ≠ OfxField.nwSrc.key ∧ k ≠ OfxField.nwDst.key
  else
    match OfbField.ofKey id.type with
    | some f => id.oxmLength.toNat = f.width.length id.hasmask
    | none => False

def Exact (l : List UInt8) : Prop := ExactAs (tlvKey l) (OxmId.ofOctets l)

instance (l : List UInt8) : Decidable (Exact l) := by
  unfold Exact ExactAs
  cases OfbField.ofKey (OxmId.ofOctets l).type <;> infer_instance

instance (pad : ℕ) (l : List UInt8) : Decidable (Complete pad l) := by
  unfold Complete
  infer_instance

end Coxmatches

namespace Cofmatch

/-- A match with these TLVs. -/
def frame (t : List UInt8) (pad : ℕ) : List UInt8 :=
  htobe16 Openflow.OFPMT_OXM.toNat ++ htobe16 (4 + t.length) ++ (t ++ .replicate pad 0)

/-- If the match is accepted no TLV runs past its end, and for every field of the list there
is a TLV that the map represents. -/
def NeverWidens (t : List UInt8) (pad : ℕ) : Prop :=
  ∀ m m' : Cofmatch, m.unpackOf13 (frame t pad) = .ok m' → ∀ l ∈ Coxmatches.tlvs t pad,
    Coxmatches.Complete pad l ∧
      ∃ l' ∈ Coxmatches.tlvs t pad, Coxmatches.tlvKey l' = Coxmatches.tlvKey l ∧ Coxmatches.Represented m'.oxms l'

end Cofmatch

namespace Coxmatches

/-! ## The reads, one after another -/

theorem not_rejected {ls : List (List UInt8)} {x x' : Coxmatches} (h : ls.foldlM readOxm x = .ok x') :
    ∀ l ∈ ls, rejection l = none := by
  induction ls generalizing x with
  | nil => exact fun l hl => by cases hl
  | cons d ls ih =>
    obtain ⟨y, hy, h⟩ := Except.bind_eq_ok.mp h
    intro l hl
    rcases List.mem_cons.mp hl with rfl | hl
    · cases hr : rejection l with
      | none => rfl
      | some e =>
        rw [readOxm_rejected hr] at hy
        cases hy
    · exact ih h l hl

theorem exists_foldlM {ls : List (List UInt8)} (h : ∀ l ∈ ls, rejection l = none) (x : Coxmatches) :
    ∃ x', ls.foldlM readOxm x = .ok x' := by
  induction ls generalizing x with
  | nil => exact ⟨x, rfl⟩
  | cons d ls ih =>
    obtain ⟨y, hy, -⟩ := readOxm_ok (h d (by simp)) x
    obtain ⟨x', hx'⟩ := ih (fun l hl => h l (by simp [hl])) y
    exact ⟨x', Except.bind_eq_ok.mpr ⟨y, hy, hx'⟩⟩

theorem find?_unknown {ls : List (List UInt8)} {x x' : Coxmatches} (h : ls.foldlM readOxm x = .ok x') {k : ℕ}
    (hk : ¬KnownKey k) : x'.find? k = x.find? k := by
  induction ls generalizing x with
  | nil =>
    cases h
    rfl
  | cons d ls ih =>
    have hnot := not_rejected h d (by simp)
    obtain ⟨y, hy, h⟩ := Except.bind_eq_ok.mp h
    obtain ⟨z, hz, hother, -⟩ := readOxm_ok hnot x
    cases hy.symm.trans hz
    rw [ih h, hother k (.inr hk)]

/-- The last TLV with a known key stays. -/
theorem find?_lastTlv {ls : List (List UInt8)} {x x' : Coxmatches} (h : ls.foldlM readOxm x = .ok x') {k : ℕ}
    (hk : KnownKey k) {l : List UInt8} (hl : lastTlv ls k = some l) : ∃ o, ReadsAs l o ∧ x'.find? k = some o := by
  induction ls using List.reverseRecOn generalizing x' with
  | nil => cases hl
  | append_singleton ls d ih =>
    have hnot := not_rejected h d (by simp)
    rw [List.foldlM_append] at h
    obtain ⟨y, hy, h⟩ := Except.bind_eq_ok.mp h
    obtain ⟨z, hz, h⟩ := Except.bind_eq_ok.mp h
    cases h
    obtain ⟨w, hw, hother, hself⟩ := readOxm_ok hnot y
    cases hz.symm.trans hw
    rw [lastTlv, List.reverse_append, List.reverse_singleton, List.singleton_append, List.find?_cons] at hl
    by_cases hkey : tlvKey d = k
    · subst hkey
      simp only [decide_true, Option.some.injEq] at hl
      subst hl
      exact hself hk
    · simp only [hkey, decide_false] at hl
      rw [hother k (.inl hkey)]
      exact ih hy hl

/-! ## What a TLV is read into -/

theorem ReadsAs.oxmId_eq {l : List UInt8} {o : Coxmatch} (h : ReadsAs l o) : o.oxmId = OxmId.ofOctets l := by
  obtain ⟨o₀, -, ho⟩ := h
  exact Coxmatch.oxmId_of_unpack ho

theorem ReadsAs.fromWire {l : List UInt8} {o : Coxmatch} (h : ReadsAs l o) : FromWire (tlvKey l, o) := by
  obtain ⟨o₀, hadded, ho⟩ := h
  exact fromWire_of_unpack hadded ho

theorem exp_exact {id : OxmId} {expId : UInt32} {value mask : List UInt8} {o₀ : Coxmatch}
    (h : o₀.Decoded ⟨id, .exp expId value mask⟩) :
    (Coxmatch.image ⟨id, .exp expId value mask⟩).length = 4 + id.oxmLength.toNat := by
  cases h with
  | expMasked hmask hsame hlength =>
    simp only [Coxmatch.image, Coxmatch.hasmask, hmask, if_true, List.length_append, OxmId.length_toOctets,
      length_octets]
    omega
  | expPlain hmask hlength =>
    simp only [Coxmatch.image, Coxmatch.hasmask, hmask, Bool.false_eq_true, if_false, List.length_append,
      OxmId.length_toOctets, length_octets, List.length_nil]
    omega

theorem exp_maskSet {id id₀ : OxmId} {expId expId₀ : UInt32} {value mask value₀ mask₀ : List UInt8}
    (h : Coxmatch.Decoded ⟨id₀, .exp expId₀ value₀ mask₀⟩ ⟨id, .exp expId value mask⟩) :
    MaskSet ⟨id, .exp expId value mask⟩ ↔ id.hasmask = true ∨ mask₀ = [] := by
  change (id.hasmask = false → mask = []) ↔ _
  cases h with
  | expMasked hmask hsame hlength => simp [hmask]
  | expPlain hmask hlength => simp [hmask, Cmemory.clear]

/-- An object stands for TLVs of its length, if it has been read for what it is. -/
theorem FromWire.exactAs_iff {k : ℕ} {o : Coxmatch} (h : FromWire (k, o)) :
    ExactAs k o.oxmId ↔ o.image.length = 4 + o.oxmId.oxmLength.toNat ∧ MaskSet o := by
  cases h with
  | @ofb f id value mask hclass htype h =>
    have himage : (Coxmatch.image ⟨id, .fixed f.width value mask⟩).length = 4 + f.width.length id.hasmask := by
      cases hmask : id.hasmask with
      | false => simp [Coxmatch.image, Coxmatch.hasmask, hmask, OxmWidth.length]
      | true =>
        simp [Coxmatch.image, Coxmatch.hasmask, hmask, OxmWidth.length]
        omega
    have hexact : ExactAs f.key id ↔ id.oxmLength.toNat = f.width.length id.hasmask := by
      simp [ExactAs, hclass, basic_ne_experimenter, htype]
    rw [himage]
    refine hexact.trans ⟨fun h => ⟨by rw [h], trivial⟩, fun h => ?_⟩
    have hlen : 4 + f.width.length id.hasmask = 4 + id.oxmLength.toNat := h.1
    omega
  | @ofx f id expId value mask hclass hkey h =>
    obtain ⟨id₀, value₀, mask₀, hnew, hnil⟩ := mask_new f
    have hexact : ExactAs f.key id ↔
        id.hasmask = true ∨ f.key ≠ OfxField.nwSrc.key ∧ f.key ≠ OfxField.nwDst.key := by
      simp only [ExactAs, hclass, if_true]
    have himage := exp_exact h
    rw [hnew] at h
    rw [hexact, ← hnil, ← exp_maskSet h]
    exact (and_iff_right himage).symm
  | @exp id expId value mask hclass hkey h =>
    have hne : ∀ f : OfxField, expKey expId id ≠ f.key := fun f hf => by
      rw [hf, OfxField.ofKey_key] at hkey
      cases hkey
    have hexact : ExactAs (expKey expId id) id ↔ True := by
      simp only [ExactAs, hclass, if_true, iff_true]
      exact .inr ⟨hne .nwSrc, hne .nwDst⟩
    have himage := exp_exact h
    have hmask := (exp_maskSet h).mpr (.inr rfl)
    exact hexact.trans ⟨fun _ => ⟨himage, hmask⟩, fun _ => trivial⟩

theorem ReadsAs.exact_iff {l : List UInt8} {o : Coxmatch} (h : ReadsAs l o) :
    Exact l ↔ o.image.length = walker.size l ∧ MaskSet o := by
  have hiff := h.fromWire.exactAs_iff
  rw [h.oxmId_eq] at hiff
  exact hiff

theorem ReadsAs.image_eq {l : List UInt8} {o : Coxmatch} (h : ReadsAs l o) : o.image = l.take o.image.length := by
  obtain ⟨o₀, -, ho⟩ := h
  exact Coxmatch.image_of_unpack ho

/-! ## Padding -/

theorem tlvKey_replicate {n : ℕ} (h : 4 ≤ n) : tlvKey (.replicate n 0) = 0 := by
  obtain ⟨n, rfl⟩ : ∃ k, n = k + 4 := ⟨n - 4, by omega⟩
  have hid : OxmId.ofOctets (.replicate (n + 4) 0) = ⟨0, 0, false, 0⟩ := rfl
  rw [tlvKey, hid, if_neg (by decide)]
  rfl

theorem not_knownKey_zero : ¬KnownKey 0 := by
  have hnone : OfbField.ofKey 0 = none := by decide +kernel
  have hclass : Openflow.OFPXMC_EXPERIMENTER.toNat = 65535 := rfl
  unfold KnownKey
  rw [hnone, hclass]
  simp

/-- What is read behind the list is zero. -/
theorem eq_replicate {t l : List UInt8} {pad : ℕ} (hl : l ∈ walker.elements (t ++ .replicate pad 0))
    (hshort : l.length ≤ pad) : l = .replicate l.length 0 := by
  have hsuffix := List.suffix_of_suffix_length_le (Tlv.Walker.suffix_of_mem hl) (List.suffix_append t _)
    (by rw [List.length_replicate]; exact hshort)
  exact (List.suffix_replicate_iff.mp hsuffix).2

theorem not_known_padding {t l : List UInt8} {pad : ℕ} (hl : l ∈ walker.elements (t ++ .replicate pad 0))
    (hshort : l.length ≤ pad) : ¬KnownKey (tlvKey l) := by
  have hheader : 4 ≤ l.length := Tlv.Walker.header_le_of_mem hl
  rw [eq_replicate hl hshort, tlvKey_replicate hheader]
  exact not_knownKey_zero

/-- The padding has no part in what stays. -/
theorem lastTlv_elements {t : List UInt8} {pad k : ℕ} (hk : KnownKey k) :
    lastTlv (walker.elements (t ++ .replicate pad 0)) k = lastTlv (tlvs t pad) k := by
  rw [lastTlv, lastTlv, tlvs, ← List.filter_reverse, List.find?_filter]
  refine List.find?_congr fun l hl => ?_
  have hmem := List.mem_reverse.mp hl
  by_cases hkey : tlvKey l = k
  · have hlong : pad < l.length := by
      by_contra hshort
      exact not_known_padding hmem (by omega) (hkey ▸ hk)
    simp [hkey, hlong]
  · simp [hkey]

theorem mem_of_lastTlv {ls : List (List UInt8)} {k : ℕ} {l : List UInt8} (h : lastTlv ls k = some l) :
    l ∈ ls ∧ tlvKey l = k := by
  have hkey := List.find?_some h
  have hmem := List.mem_of_find?_eq_some h
  exact ⟨List.mem_reverse.mp hmem, by simpa using hkey⟩

theorem exists_lastTlv {ls : List (List UInt8)} {l : List UInt8} (h : l ∈ ls) :
    ∃ l', lastTlv ls (tlvKey l) = some l' := by
  refine Option.isSome_iff_exists.mp (List.find?_isSome.mpr ⟨l, List.mem_reverse.mpr h, ?_⟩)
  simp

theorem rejection_padding {t l : List UInt8} {pad : ℕ} (hl : l ∈ walker.elements (t ++ .replicate pad 0))
    (hno : ∀ l ∈ tlvs t pad, rejection l = none) : rejection l = none := by
  by_cases hshort : l.length ≤ pad
  · exact rejection_unknown (not_known_padding hl hshort)
  · exact hno l (List.mem_filter.mpr ⟨hl, by simpa using hshort⟩)

theorem knownKey_of_exact {l : List UInt8} (h : Exact l) : KnownKey (tlvKey l) := by
  unfold Exact ExactAs at h
  unfold tlvKey
  by_cases hexp : (OxmId.ofOctets l).oxmClass = Openflow.OFPXMC_EXPERIMENTER
  · simp only [hexp, if_true] at h ⊢
    refine .inr ?_
    rw [(expKey_parts (expIdOf l) (OxmId.ofOctets l)).1, hexp]
  · simp only [hexp, if_false] at h ⊢
    cases hkey : OfbField.ofKey (OxmId.ofOctets l).type with
    | none => simp [hkey] at h
    | some f => exact .inl (by rw [hkey]; rfl)

end Coxmatches

namespace Cofmatch

open Coxmatches

theorem unpackOf13_frame {m m' : Cofmatch} {t : List UInt8} {pad : ℕ} :
    m.unpackOf13 (frame t pad) = .ok m' ↔
      ∃ x, (walker.elements (t ++ .replicate pad 0)).foldlM readOxm .empty = .ok x ∧
        { m with oxms := x, type := Openflow.OFPMT_OXM } = m' := by
  rw [frame, unpackOf13_eq, if_neg (by simp), Coxmatches.unpack, Tlv.Walker.walk_eq_foldlM]
  exact Except.bind_eq_ok.trans
    (exists_congr fun x => and_congr_right fun _ => ⟨fun h => Except.ok.inj h, fun h => congrArg Except.ok h⟩)

/-- **A list is never widened** if and only if one of its TLVs is rejected, or all of them end
within the list and the last one of each field is read for what it is. -/
theorem neverWidens_iff (t : List UInt8) (pad : ℕ) : NeverWidens t pad ↔
    (∃ l ∈ tlvs t pad, rejection l ≠ none) ∨
      ∀ l ∈ tlvs t pad, Complete pad l ∧ ∀ l', lastTlv (tlvs t pad) (tlvKey l) = some l' → Exact l' := by
  constructor
  · intro h
    by_cases hno : ∀ l ∈ tlvs t pad, rejection l = none
    · right
      obtain ⟨x, hx⟩ := exists_foldlM (fun l hl => rejection_padding hl hno) .empty
      have hread := h (new Openflow13.OFP_VERSION) _ (unpackOf13_frame.mpr ⟨x, hx, rfl⟩)
      intro l hl
      obtain ⟨hcomplete, l₁, hl₁, hkey, o, ho, himage, hmask⟩ := hread l hl
      refine ⟨hcomplete, fun l' hl' => ?_⟩
      have hknown : KnownKey (tlvKey l₁) := by
        by_contra hknown
        have hnone : x.find? (tlvKey l₁) = none := find?_unknown hx hknown
        cases ho.symm.trans hnone
      rw [← hkey] at hl'
      obtain ⟨o', hreads, ho'⟩ := find?_lastTlv hx hknown ((lastTlv_elements hknown).trans hl')
      obtain rfl := Option.some.inj (ho.symm.trans ho')
      -- the object is the last TLV's, and the TLV that it stands for has the same header
      have hheader : 4 ≤ l₁.length := Tlv.Walker.header_le_of_mem (List.mem_filter.mp hl₁).1
      have hle : walker.size l₁ ≤ l₁.length := by
        have hwithin : walker.size l₁ + pad ≤ l₁.length := (hread l₁ hl₁).1
        omega
      have hlength : o.image.length = walker.size l₁ := by
        rw [himage, List.length_take, Nat.min_eq_left hle]
      have hid : OxmId.ofOctets l₁ = OxmId.ofOctets l' := by
        have hsizes : 4 ≤ walker.size l₁ := walker.header_le l₁
        rw [← hreads.oxmId_eq, ← OxmId.ofOctets_take hheader hsizes, ← himage]
        simpa using Coxmatch.ofOctets_image o []
      have hsize : walker.size l₁ = walker.size l' := by
        change 4 + (OxmId.ofOctets l₁).oxmLength.toNat = 4 + (OxmId.ofOctets l').oxmLength.toNat
        rw [hid]
      exact hreads.exact_iff.mpr ⟨hlength.trans hsize, hmask⟩
    · left
      simpa only [not_forall, exists_prop] using hno
  · intro h m m' hm l hl
    obtain ⟨x, hx, rfl⟩ := unpackOf13_frame.mp hm
    have hno := not_rejected hx
    rcases h with ⟨l₁, hl₁, hbad⟩ | h
    · exact absurd (hno l₁ (List.mem_filter.mp hl₁).1) hbad
    · refine ⟨(h l hl).1, ?_⟩
      obtain ⟨l', hl'⟩ := exists_lastTlv hl
      obtain ⟨hmem, hkey⟩ := mem_of_lastTlv hl'
      have hexact := (h l hl).2 l' hl'
      have hknown := knownKey_of_exact hexact
      rw [← hkey] at hl'
      obtain ⟨o, hreads, ho⟩ := find?_lastTlv hx hknown ((lastTlv_elements hknown).trans hl')
      obtain ⟨hlength, hmask⟩ := hreads.exact_iff.mp hexact
      refine ⟨l', hmem, hkey, o, ho, ?_, hmask⟩
      rw [← hlength]
      exact hreads.image_eq

/-- A standard field that the switch does not know, of one octet. -/
def unknownField : List UInt8 := [0x80, 0x00, 126, 1, 7]

/-- The match is accepted, and matches everything. -/
theorem unknownField_skipped : ¬∀ t pad, NeverWidens t pad := by
  intro h
  have haccept : (new Openflow13.OFP_VERSION).unpackOf13 (frame unknownField 7) =
      .ok (new Openflow13.OFP_VERSION) := by decide +kernel
  have hmem : unknownField ++ .replicate 7 0 ∈ tlvs unknownField 7 := by decide +kernel
  obtain ⟨-, l', -, -, o, ho, -⟩ := h unknownField 7 _ _ haccept _ hmem
  cases ho

end Cofmatch
end RoflCommon
