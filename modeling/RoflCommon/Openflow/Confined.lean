/-
Whether a match is decoded from its own octets.

`unpack_of13` is handed a buffer that may go on behind the match, and does not
look at the length field: TLVs are read up to the end of the buffer, and an OXM
of fixed width takes as many octets as it needs. So what follows counts, unless
the octets of the match settle that it is rejected (`confined_iff`).

`Rejected` says when they do. Behind any other match there can be octets that
are read as one more OXM, or octets that turn one rejection into another
(`rejected_or`).
-/
import RoflCommon.Openflow.Widening

namespace RoflCommon

open Octets

namespace Coxmatches

/-- The size that the field requires; of an experimenter field, with the experimenter. -/
def Sized (l : List UInt8) : Prop :=
  let id := OxmId.ofOctets l
  (∀ f, OfbField.ofKey (tlvKey l) = some f → id.oxmLength.toNat = f.width.length id.hasmask) ∧
    ∀ f, OfxField.ofKey (tlvKey l) = some f →
      id.oxmLength.toNat = 4 + if id.hasmask then 2 * f.length else f.length

/-- An experimenter OXM with a length that is rejected whatever follows. -/
def hard (l : List UInt8) : Option MatchException :=
  let id := OxmId.ofOctets l
  if id.oxmClass = Openflow.OFPXMC_EXPERIMENTER then
    if id.hasmask = true ∧ id.oxmLength.toNat % 2 = 1 then some .oxmBadLen
    else if id.oxmLength.toNat < 4 then some .sysCall
    else none
  else none

/-- The octets that have to be there. -/
def needs (l : List UInt8) : ℕ :=
  let id := OxmId.ofOctets l
  if id.oxmClass = Openflow.OFPXMC_EXPERIMENTER then 4 + id.oxmLength.toNat
  else
    match OfbField.ofKey id.type with
    | some f => 4 + f.width.length id.hasmask
    | none => 4

/-- The octets settle that the list is rejected with `e`: there is an OXM that is, and up to
it nothing is rejected otherwise, for want of octets or not. -/
inductive Rejected (e : MatchException) : List UInt8 → Prop
  | here {l : List UInt8} (hlen : 4 ≤ l.length) (hard : hard l = some e) (hheader : e = .sysCall → 8 ≤ l.length) :
      Rejected e l
  | next {l : List UInt8} (hlen : 4 ≤ l.length) (hard : hard l = none) (hsize : walker.size l ≤ l.length)
      (hneeds : needs l ≤ l.length ∨ e = .oxmBadLen) (hrest : Rejected e (l.drop (walker.size l))) : Rejected e l

end Coxmatches

namespace Cofmatch

/-- The length field of the match at the start of a buffer. -/
def lengthField (b : List UInt8) : ℕ := number ((b.drop 2).take 2)

/-- Whatever follows the match, the result is the same; and in what is accepted no TLV has
another size than its field requires. -/
def Confined (b : List UInt8) : Prop :=
  (∀ (m : Cofmatch) (b' : List UInt8), 4 ≤ b'.length → lengthField b' = lengthField b → lengthField b ≤ b'.length →
      b'.take (lengthField b) = b.take (lengthField b) → m.unpackOf13 b' = m.unpackOf13 b) ∧
    ∀ m m' : Cofmatch, m.unpackOf13 b = .ok m' →
      ∀ l ∈ Coxmatches.walker.elements (b.drop 4), Coxmatches.Sized l

end Cofmatch

namespace Coxmatches

variable {l : List UInt8}

/-! ## One TLV -/

theorem hard_extend (h : 4 ≤ l.length) (s : List UInt8) : hard (l ++ s) = hard l := by
  simp only [hard, OxmId.ofOctets_extend h]

theorem needs_extend (h : 4 ≤ l.length) (s : List UInt8) : needs (l ++ s) = needs l := by
  simp only [needs, OxmId.ofOctets_extend h]

theorem size_extend (h : 4 ≤ l.length) (s : List UInt8) : walker.size (l ++ s) = walker.size l := by
  change 4 + (OxmId.ofOctets (l ++ s)).oxmLength.toNat = 4 + (OxmId.ofOctets l).oxmLength.toNat
  rw [OxmId.ofOctets_extend h]

/-- A standard field is of 32 octets at most. -/
theorem needs_le (l : List UInt8) : needs l ≤ max 36 (walker.size l) := by
  change needs l ≤ max 36 (4 + (OxmId.ofOctets l).oxmLength.toNat)
  unfold needs
  dsimp only
  split
  · exact Nat.le_max_right _ _
  · split
    · next f _ =>
      have hwidth : ∀ (w : OxmWidth) (b : Bool), w.length b ≤ 32 := by
        intro w b
        cases w <;> cases b <;> decide
      have hle := hwidth f.width (OxmId.ofOctets l).hasmask
      omega
    · omega

theorem rejection_of_hard_eq_none (h : hard l = none) (hlen : 4 ≤ l.length) :
    rejection l = if l.length < needs l then some .oxmBadLen else none := by
  unfold hard at h
  unfold rejection needs
  dsimp only at h ⊢
  split_ifs at h with hexp hodd hwrap
  · rw [if_pos hexp, if_pos hexp, if_neg hodd, if_neg hwrap]
    by_cases hshort : l.length < 4 + (OxmId.ofOctets l).oxmLength.toNat
    · rw [if_pos (Or.inr hshort), if_pos hshort]
    · rw [if_neg (by omega), if_neg hshort]
  · rw [if_neg hexp, if_neg hexp]
    cases OfbField.ofKey (OxmId.ofOctets l).type with
    | none => exact (if_neg (Nat.not_lt.mpr hlen)).symm
    | some f => rfl

theorem rejection_of_hard {e : MatchException} (h : hard l = some e) (hheader : e = .sysCall → 8 ≤ l.length) :
    rejection l = some e := by
  unfold hard at h
  unfold rejection
  dsimp only at h ⊢
  split_ifs at h with hexp hodd hwrap
  · cases h
    rw [if_pos hexp, if_pos hodd, ite_self]
  · cases h
    have hle := hheader rfl
    rw [if_pos hexp, if_neg (by omega), if_neg hodd, if_pos hwrap]

/-- The experimenter is missing, too. -/
theorem rejection_of_hard_short (h : hard l = some .sysCall) (hshort : l.length < 8) :
    rejection l = some .oxmBadLen := by
  unfold hard at h
  unfold rejection
  dsimp only at h ⊢
  split_ifs at h with hexp hodd hwrap
  · cases h
  · rw [if_pos hexp, if_pos (Or.inl hshort)]

theorem eq_of_hard {e : MatchException} (h : hard l = some e) : e = .oxmBadLen ∨ e = .sysCall := by
  unfold hard at h
  dsimp only at h
  split_ifs at h
  · exact .inl (Option.some.inj h).symm
  · exact .inr (Option.some.inj h).symm

theorem walk_rejected {e : MatchException} (hlen : 4 ≤ l.length) (h : rejection l = some e) (x : Coxmatches) :
    walker.walk x l = .error e := by
  have hread : walker.read x l = .error e := readOxm_rejected h x
  rw [Tlv.Walker.walk_eq hlen, hread]

/-- A TLV that is not rejected, and what comes behind it. -/
theorem walk_next (hlen : 4 ≤ l.length) (h : rejection l = none) (hsize : walker.size l ≤ l.length) (x : Coxmatches) :
    ∃ x', walker.walk x l = walker.walk x' (l.drop (walker.size l)) := by
  obtain ⟨x', hread, -⟩ := readOxm_ok h x
  have hread' : walker.read x l = .ok x' := hread
  refine ⟨x', ?_⟩
  rw [Tlv.Walker.walk_eq hlen, hread']
  exact if_pos hsize

/-! ## What is settled -/

theorem Rejected.eq {e : MatchException} (h : Rejected e l) : e = .oxmBadLen ∨ e = .sysCall := by
  induction h with
  | here hlen hhard hheader => exact eq_of_hard hhard
  | next hlen hhard hsize hneeds hrest ih => exact ih

theorem Rejected.header_le {e : MatchException} (h : Rejected e l) : 4 ≤ l.length := by
  cases h with
  | here hlen hhard hheader => exact hlen
  | next hlen hhard hsize hneeds hrest => exact hlen

theorem Rejected.walk_eq {e : MatchException} (h : Rejected e l) (x : Coxmatches) (s : List UInt8) :
    walker.walk x (l ++ s) = .error e := by
  induction h generalizing x with
  | @here l hlen hhard hheader =>
    have hle : 4 ≤ (l ++ s).length := by
      rw [List.length_append]
      omega
    refine walk_rejected hle (rejection_of_hard ((hard_extend hlen s).trans hhard) fun he => ?_) x
    have h8 := hheader he
    rw [List.length_append]
    omega
  | @next l hlen hhard hsize hneeds hrest ih =>
    have hle : 4 ≤ (l ++ s).length := by
      rw [List.length_append]
      omega
    have hrej := rejection_of_hard_eq_none ((hard_extend hlen s).trans hhard) hle
    rw [needs_extend hlen] at hrej
    by_cases hshort : (l ++ s).length < needs l
    · rw [if_pos hshort] at hrej
      rw [List.length_append] at hshort
      obtain rfl := hneeds.resolve_left (by omega)
      exact walk_rejected hle hrej x
    · rw [if_neg hshort] at hrej
      obtain ⟨x', hx'⟩ := walk_next hle hrej (by rw [size_extend hlen, List.length_append]; omega) x
      rw [hx', size_extend hlen, List.drop_append_of_le_length hsize]
      exact ih x'

/-! ## What is not -/

/-- One more OXM. -/
def inPortTlv (v : ℕ) : List UInt8 := (OfbField.inPort.new v).image

/-- There are octets behind which one more OXM is read, and enough of them for any field. -/
def Open (l : List UInt8) : Prop :=
  ∃ t : List UInt8, 36 ≤ t.length ∧ ∀ x v, ∃ x' : Coxmatches,
    walker.walk x (l ++ (t ++ inPortTlv v)) = .ok (x'.insert OfbField.inPort.key (OfbField.inPort.new v))

/-- It is rejected for want of octets, and if there are enough for another reason. -/
def Late (l : List UInt8) : Prop :=
  (∀ x, walker.walk x l = .error .oxmBadLen) ∧
    ∀ x (s : List UInt8), 36 ≤ s.length → walker.walk x (l ++ s) = .error .sysCall

theorem fromWire_inPort (v : ℕ) : FromWire (OfbField.inPort.key, OfbField.inPort.new v) := by
  have hplain : Coxmatch.Decoded (OfbField.inPort.new 0)
      ⟨OfbField.inPort.oxmId, .fixed .u32 (OxmWidth.u32.arg v) (OxmWidth.u32.unmasked OxmWidth.u32.ones)⟩ :=
    .plain rfl (OxmWidth.u32.arg v).isLt
  exact .ofb .inPort rfl rfl hplain

/-- Four zeros are a TLV that is skipped. -/
theorem walk_zeros (n : ℕ) (x : Coxmatches) (rest : List UInt8) :
    walker.walk x (.replicate (4 * n) 0 ++ rest) = walker.walk x rest := by
  induction n with
  | zero => rfl
  | succ n ih =>
    have hsplit : List.replicate (4 * (n + 1)) (0 : UInt8) ++ rest =
        [0, 0, 0, 0] ++ (List.replicate (4 * n) 0 ++ rest) := by
      rw [show 4 * (n + 1) = 4 + 4 * n by omega, List.replicate_add, List.append_assoc]
      rfl
    have hkey : tlvKey ([0, 0, 0, 0] ++ (List.replicate (4 * n) 0 ++ rest)) = 0 := by
      have hid : OxmId.ofOctets ([0, 0, 0, 0] ++ (List.replicate (4 * n) 0 ++ rest)) = ⟨0, 0, false, 0⟩ := rfl
      rw [tlvKey, hid, if_neg (by decide)]
      rfl
    have hunknown : ¬KnownKey (tlvKey ([0, 0, 0, 0] ++ (List.replicate (4 * n) 0 ++ rest))) := by
      rw [hkey]
      exact not_knownKey_zero
    have hread : walker.read x ([0, 0, 0, 0] ++ (List.replicate (4 * n) 0 ++ rest)) = .ok x :=
      readOxm_unknown hunknown x
    rw [hsplit, Tlv.Walker.walk_append _ (by decide) rfl hread, ih]

theorem walk_inPort (n : ℕ) (x : Coxmatches) (v : ℕ) :
    walker.walk x (.replicate (4 * n) 0 ++ inPortTlv v) =
      .ok (x.insert OfbField.inPort.key (OfbField.inPort.new v)) := by
  have hread : walker.read x (inPortTlv v ++ []) = .ok (x.insert OfbField.inPort.key (OfbField.inPort.new v)) :=
    readOxm_image (fromWire_inPort v) x []
  have hsize : walker.size (inPortTlv v ++ []) = (inPortTlv v).length := by
    change 4 + (OxmId.ofOctets ((OfbField.inPort.new v).image ++ [])).oxmLength.toNat = _
    rw [Coxmatch.ofOctets_image]
    rfl
  have hlen : (inPortTlv v).length = 8 := by simp [inPortTlv, OfbField.new, Coxmatch.image, Coxmatch.hasmask]; rfl
  have hheader : walker.header ≤ (inPortTlv v).length := by
    rw [hlen]
    decide
  rw [walk_zeros, ← List.append_nil (inPortTlv v), Tlv.Walker.walk_append [] hheader hsize hread,
    Tlv.Walker.walk_short (by decide)]

/-- A TLV that is not hard and goes on behind the octets that are there. -/
theorem open_of_size (hlen : 4 ≤ l.length) (h : hard l = none) (hsize : l.length ≤ walker.size l) : Open l := by
  refine ⟨.replicate (walker.size l - l.length) 0 ++ .replicate (4 * 9) 0, ?_, fun x v => ?_⟩
  · simp only [List.length_append, List.length_replicate]
    omega
  let b := l ++ (List.replicate (walker.size l - l.length) 0 ++ .replicate (4 * 9) 0 ++ inPortTlv v)
  have hle : walker.size l + 36 ≤ b.length := by
    simp only [b, List.length_append, List.length_replicate]
    omega
  have hneeds := needs_le l
  have hheader : 4 ≤ b.length := by omega
  have hrej : rejection b = none := by
    have henough : ¬b.length < needs b := by
      rw [show needs b = needs l from needs_extend hlen _]
      omega
    rw [rejection_of_hard_eq_none ((hard_extend hlen _).trans h) hheader, if_neg henough]
  have hsize' : walker.size b = walker.size l := size_extend hlen _
  obtain ⟨x', hx'⟩ := walk_next hheader hrej (by omega) x
  refine ⟨x', ?_⟩
  have hdrop : b.drop (walker.size b) = .replicate (4 * 9) 0 ++ inPortTlv v := by
    rw [hsize']
    simp only [b, List.append_assoc]
    rw [← List.append_assoc l]
    exact List.drop_left' (by rw [List.length_append, List.length_replicate]; omega)
  rw [hdrop] at hx'
  exact hx'.trans (walk_inPort 9 x' v)

/-- Less than a header: it can be completed to one of a TLV of 36 octets. -/
theorem open_of_short (h : l.length < 4) : Open l := by
  obtain ⟨t, a, b, c, ht⟩ : ∃ t a b c, l ++ t = [a, b, c, 36] := by
    match l, h with
    | [], _ => exact ⟨[0, 0, 0, 36], 0, 0, 0, rfl⟩
    | [a], _ => exact ⟨[0, 0, 36], a, 0, 0, rfl⟩
    | [a, b], _ => exact ⟨[0, 36], a, b, 0, rfl⟩
    | [a, b, c], _ => exact ⟨[36], a, b, c, rfl⟩
  have hlength : (OxmId.ofOctets [a, b, c, 36]).oxmLength.toNat = 36 := rfl
  have hhard : hard [a, b, c, 36] = none := by
    unfold hard
    dsimp only
    rw [hlength]
    split_ifs <;> simp_all
  have hsize : walker.size [a, b, c, 36] = 40 := rfl
  obtain ⟨s, hlong, hs⟩ :=
    open_of_size (l := [a, b, c, 36]) (Nat.le_refl 4) hhard (by rw [hsize]; exact (by decide : 4 ≤ 40))
  refine ⟨t ++ s, ?_, fun x v => ?_⟩
  · rw [List.length_append]
    omega
  obtain ⟨x', hx'⟩ := hs x v
  refine ⟨x', ?_⟩
  rw [← hx', ← ht]
  simp only [List.append_assoc]

/-- A TLV that has its octets, or gets them from what follows. -/
theorem walk_extend (hlen : 4 ≤ l.length) (h : hard l = none) (hsize : walker.size l ≤ l.length) {s : List UInt8}
    (hs : needs l ≤ (l ++ s).length) (x : Coxmatches) :
    ∃ x', walker.walk x (l ++ s) = walker.walk x' (l.drop (walker.size l) ++ s) := by
  have hle : 4 ≤ (l ++ s).length := by
    rw [List.length_append]
    omega
  have hrej : rejection (l ++ s) = none := by
    rw [rejection_of_hard_eq_none ((hard_extend hlen s).trans h) hle, needs_extend hlen, if_neg (by omega)]
  obtain ⟨x', hx'⟩ := walk_next hle hrej (by rw [size_extend hlen, List.length_append]; omega) x
  rw [size_extend hlen, List.drop_append_of_le_length hsize] at hx'
  exact ⟨x', hx'⟩

theorem walk_short_of (hlen : 4 ≤ l.length) (h : hard l = none) (hneeds : l.length < needs l) (x : Coxmatches) :
    walker.walk x l = .error .oxmBadLen := by
  have hrej := rejection_of_hard_eq_none h hlen
  rw [if_pos hneeds] at hrej
  exact walk_rejected hlen hrej x

/-- Octets that settle nothing: by induction on how many there are. A TLV that has not got
what it needs defers what comes behind it. -/
theorem rejected_or (l : List UInt8) : (∃ e, Rejected e l) ∨ Open l ∨ Late l := by
  induction hn : l.length using Nat.strongRecOn generalizing l with
  | ind n ih =>
    subst hn
    by_cases hshort : l.length < 4
    · exact .inr (.inl (open_of_short hshort))
    have hlen : 4 ≤ l.length := by omega
    cases hhard : hard l with
    | some e =>
      by_cases hheader : e = .sysCall → 8 ≤ l.length
      · exact .inl ⟨e, .here hlen hhard hheader⟩
      · obtain ⟨rfl, hless⟩ := Classical.not_imp.mp hheader
        refine .inr (.inr ⟨walk_rejected hlen (rejection_of_hard_short hhard (by omega)), fun x s hs => ?_⟩)
        have hle : 4 ≤ (l ++ s).length ∧ 8 ≤ (l ++ s).length := by
          rw [List.length_append]
          omega
        exact walk_rejected hle.1 (rejection_of_hard ((hard_extend hlen s).trans hhard) fun _ => hle.2) x
    | none =>
      by_cases hsize : walker.size l ≤ l.length
      · have hpos := walker.header_le l
        have hheader := walker.header_pos
        have hdrop : (l.drop (walker.size l)).length < l.length := by
          rw [List.length_drop]
          omega
        have hneeds := needs_le l
        have henough : ∀ s : List UInt8, 36 ≤ s.length → needs l ≤ (l ++ s).length := fun s hs => by
          rw [List.length_append]
          omega
        have hlate : (∀ x, walker.walk x l = .error .oxmBadLen) →
            (∀ x (s : List UInt8), 36 ≤ s.length → walker.walk x (l.drop (walker.size l) ++ s) = .error .sysCall) →
            Late l := fun hnow hthen => by
          refine ⟨hnow, fun x s hs => ?_⟩
          obtain ⟨x', hx'⟩ := walk_extend hlen hhard hsize (henough s hs) x
          rw [hx']
          exact hthen x' s hs
        rcases ih _ hdrop _ rfl with ⟨e, hrest⟩ | ⟨t, hlong, ht⟩ | ⟨hnow, hthen⟩
        · by_cases hdeferred : needs l ≤ l.length ∨ e = .oxmBadLen
          · exact .inl ⟨e, .next hlen hhard hsize hdeferred hrest⟩
          · obtain ⟨hless, hne⟩ := not_or.mp hdeferred
            obtain rfl := hrest.eq.resolve_left hne
            exact .inr (.inr (hlate (walk_short_of hlen hhard (by omega)) fun x s _ => hrest.walk_eq x s))
        · refine .inr (.inl ⟨t, hlong, fun x v => ?_⟩)
          have hmore : 36 ≤ (t ++ inPortTlv v).length := by
            rw [List.length_append]
            omega
          obtain ⟨x', hx'⟩ := walk_extend hlen hhard hsize (henough _ hmore) x
          rw [hx']
          exact ht x' v
        · refine .inr (.inr (hlate (fun x => ?_) hthen))
          by_cases hless : l.length < needs l
          · exact walk_short_of hlen hhard hless x
          · obtain ⟨x', hx'⟩ := walk_extend hlen hhard hsize (s := []) (by rw [List.append_nil]; omega) x
            rw [List.append_nil, List.append_nil] at hx'
            rw [hx', hnow]
      · exact .inr (.inl (open_of_size hlen hhard (by omega)))

end Coxmatches

namespace Cofmatch

open Coxmatches

/-! ## The match -/

/-- The octets of a match settle that it is rejected: its type is another one, as far as it is
among them, or its list is rejected. -/
def Settled (b : List UInt8) : Prop :=
  ¬b.take (min (lengthField b) 2) <+: htobe16 Openflow.OFPMT_OXM.toNat ∨
    ∃ e, Rejected e ((b.take (lengthField b)).drop 4)

theorem unpackOf13_of_le (m : Cofmatch) {b : List UInt8} (h : 4 ≤ b.length) : m.unpackOf13 b =
    if UInt16.ofNat (number (b.take 2)) ≠ Openflow.OFPMT_OXM then .error .badMatchBadType
    else do return { m with oxms := ← Coxmatches.unpack (b.drop 4), type := Openflow.OFPMT_OXM } := by
  simp only [unpackOf13]
  rw [if_neg (by omega)]
  by_cases htype : UInt16.ofNat (number (b.take 2)) = Openflow.OFPMT_OXM
  · rw [if_neg (not_not.mpr htype), if_neg (not_not.mpr htype), htype]
    by_cases hrest : b.length - 4 > 0
    · rw [if_pos hrest]
    · have hnil : b.drop 4 = [] := List.drop_eq_nil_of_le (by omega)
      rw [if_neg hrest, hnil, Coxmatches.unpack_nil]
      rfl
  · rw [if_pos htype, if_pos htype]

theorem take_two_of_type {b : List UInt8} (h : 4 ≤ b.length)
    (htype : UInt16.ofNat (number (b.take 2)) = Openflow.OFPMT_OXM) : b.take 2 = htobe16 Openflow.OFPMT_OXM.toNat := by
  obtain ⟨a, c, d, e, rest, rfl⟩ := OxmId.exists_cons h
  have ha := a.toNat_lt
  have hc := c.toNat_lt
  have hnumber : (UInt16.ofNat (a.toNat * 256 + c.toNat)).toNat = 1 := by
    have hone : (UInt16.ofNat (number [a, c])).toNat = 1 := congrArg UInt16.toNat htype
    simpa only [number, List.length_cons, List.length_nil, zero_add, pow_one, pow_zero, mul_one, add_zero] using hone
  rw [UInt16.toNat_ofNat'] at hnumber
  have hzero : a = 0 := UInt8.toNat_inj.mp (by rw [UInt8.toNat_zero]; omega)
  have hone : c = 1 := UInt8.toNat_inj.mp (by rw [UInt8.toNat_one]; omega)
  rw [hzero, hone]
  rfl

/-- A match that is rejected as it is settled. -/
theorem unpackOf13_settled {b : List UInt8} (h : Settled b) :
    ∃ e, ∀ (m : Cofmatch) (b' : List UInt8), 4 ≤ b'.length → b'.take (lengthField b) = b.take (lengthField b) →
      m.unpackOf13 b' = .error e := by
  rcases h with htype | ⟨e, hrejected⟩
  · refine ⟨.badMatchBadType, fun m b' h4 htake => ?_⟩
    rw [unpackOf13_of_le m h4, if_pos]
    intro hoxm
    have htwo := take_two_of_type h4 hoxm
    refine htype ?_
    have hsame : b.take (min (lengthField b) 2) = (b'.take 2).take (lengthField b) := by
      have hcut := congrArg (List.take (min (lengthField b) 2)) htake
      rw [List.take_take, List.take_take, Nat.min_eq_left (Nat.min_le_left _ _)] at hcut
      rw [← hcut, List.take_take]
    rw [hsame, htwo]
    exact List.take_prefix _ _
  · have hle : 4 ≤ ((b.take (lengthField b)).drop 4).length := hrejected.header_le
    rw [List.length_drop, List.length_take] at hle
    refine ⟨if UInt16.ofNat (number (b.take 2)) ≠ Openflow.OFPMT_OXM then .badMatchBadType else e, fun m b' h4 htake => ?_⟩
    have htwo : b'.take 2 = b.take 2 := by
      have hcut := congrArg (List.take 2) htake
      rwa [List.take_take, List.take_take, Nat.min_eq_left (by omega)] at hcut
    have hrest : b'.drop 4 = (b.take (lengthField b)).drop 4 ++ b'.drop (lengthField b) := by
      rw [← htake, ← List.drop_append_of_le_length (by rw [List.length_take]; omega), List.take_append_drop]
    have hunpack : Coxmatches.unpack (b'.drop 4) = .error e := by
      rw [hrest]
      exact hrejected.walk_eq .empty _
    rw [unpackOf13_of_le m h4, htwo, hunpack]
    split <;> rfl

/-- The match of `b`, of type `OFPMT_OXM`, and what follows it. -/
def follow (b s : List UInt8) : List UInt8 :=
  htobe16 Openflow.OFPMT_OXM.toNat ++ (b.drop 2).take 2 ++ ((b.take (lengthField b)).drop 4 ++ s)

section Follow

variable {b : List UInt8} (hlen : 4 ≤ b.length)
include hlen

theorem drop_follow (s : List UInt8) : (follow b s).drop 4 = (b.take (lengthField b)).drop 4 ++ s := by
  refine List.drop_left' ?_
  rw [List.length_append, List.length_take, List.length_drop]
  have htype : (htobe16 Openflow.OFPMT_OXM.toNat).length = 2 := rfl
  omega

theorem lengthField_follow (s : List UInt8) : lengthField (follow b s) = lengthField b := by
  have hdrop : (follow b s).drop 2 = (b.drop 2).take 2 ++ ((b.take (lengthField b)).drop 4 ++ s) := by
    rw [follow, List.append_assoc]
    exact List.drop_left' rfl
  rw [lengthField, hdrop, List.take_left' (by rw [List.length_take, List.length_drop]; omega)]
  rfl

theorem length_follow (hle : lengthField b ≤ b.length) (s : List UInt8) :
    4 ≤ (follow b s).length ∧ lengthField b ≤ (follow b s).length := by
  have htype : (htobe16 Openflow.OFPMT_OXM.toNat).length = 2 := rfl
  simp only [follow, List.length_append, List.length_drop, List.length_take]
  omega

theorem take_follow (hle : lengthField b ≤ b.length)
    (htype : b.take (min (lengthField b) 2) <+: htobe16 Openflow.OFPMT_OXM.toNat) (s : List UInt8) :
    (follow b s).take (lengthField b) = b.take (lengthField b) := by
  generalize hfield : lengthField b = n at htype hle
  by_cases htwo : 2 ≤ n
  · rw [Nat.min_eq_right htwo] at htype
    have hb : b.take 2 = htobe16 Openflow.OFPMT_OXM.toNat := htype.eq_of_length (by
      rw [List.length_take, Nat.min_eq_left (by omega)]
      rfl)
    have hheader : htobe16 Openflow.OFPMT_OXM.toNat ++ (b.drop 2).take 2 = b.take 4 := by
      rw [← hb, ← List.take_add]
    rw [follow, hheader, hfield]
    by_cases hfour : 4 ≤ n
    · have hwhole : b.take 4 ++ (b.take n).drop 4 = b.take n := by
        conv_rhs => rw [← List.take_append_drop 4 (b.take n), List.take_take, Nat.min_eq_left hfour]
      rw [← List.append_assoc, hwhole]
      exact List.take_left' (by rw [List.length_take]; omega)
    · have hnil : (b.take n).drop 4 = [] := List.drop_eq_nil_of_le (by rw [List.length_take]; omega)
      rw [hnil, List.take_append_of_le_length (by rw [List.length_take]; omega), List.take_take,
        Nat.min_eq_left (by omega)]
  · rw [Nat.min_eq_left (by omega)] at htype
    obtain ⟨a, c, d, e, rest, rfl⟩ := OxmId.exists_cons hlen
    obtain rfl | rfl : n = 0 ∨ n = 1 := by omega
    · rfl
    · have hzero : a = 0 := by
        have hhead : [a] <+: [0, 1] := htype
        simpa using hhead
      rw [hzero]
      rfl

end Follow

/-- What follows a match that is not settled makes a difference. -/
theorem exists_follow {b : List UInt8} (h : ¬Settled b) (hlen : 4 ≤ b.length) (m : Cofmatch) :
    ∃ s₁ s₂, m.unpackOf13 (follow b s₁) ≠ m.unpackOf13 (follow b s₂) := by
  have hunpack : ∀ s, m.unpackOf13 (follow b s) = do
      return { m with oxms := ← Coxmatches.unpack ((b.take (lengthField b)).drop 4 ++ s), type := Openflow.OFPMT_OXM } :=
    fun s => by
      have htype : (follow b s).take 2 = htobe16 Openflow.OFPMT_OXM.toNat := by
        rw [follow, List.append_assoc]
        exact List.take_left' rfl
      have hlong : 4 ≤ (follow b s).length := by
        have hlist : (htobe16 Openflow.OFPMT_OXM.toNat).length = 2 := rfl
        simp only [follow, List.length_append, List.length_drop, List.length_take]
        omega
      rw [unpackOf13_of_le m hlong, htype, number_htobe16, if_neg (not_not.mpr rfl), drop_follow hlen]
  rcases rejected_or ((b.take (lengthField b)).drop 4) with hrejected | ⟨t, -, ht⟩ | ⟨hnow, hthen⟩
  · exact absurd (.inr hrejected) h
  · refine ⟨t ++ inPortTlv 0, t ++ inPortTlv 1, fun heq => ?_⟩
    obtain ⟨x₀, hx₀⟩ := ht .empty 0
    obtain ⟨x₁, hx₁⟩ := ht .empty 1
    rw [hunpack, hunpack, Coxmatches.unpack, Coxmatches.unpack, hx₀, hx₁] at heq
    have hoxms : x₀.insert OfbField.inPort.key (OfbField.inPort.new 0) =
        x₁.insert OfbField.inPort.key (OfbField.inPort.new 1) := congrArg Cofmatch.oxms (Except.ok.inj heq)
    have hfind := congrArg (Omap.find? · OfbField.inPort.key) hoxms
    rw [Omap.find?_insert, Omap.find?_insert, if_pos rfl, if_pos rfl] at hfind
    revert hfind
    decide
  · refine ⟨[], .replicate 36 0, fun heq => ?_⟩
    rw [hunpack, hunpack, Coxmatches.unpack, Coxmatches.unpack, List.append_nil, hnow,
      hthen .empty _ (by rw [List.length_replicate])] at heq
    cases heq

/-- **A match is decoded from its own octets** only where they settle that it is rejected. -/
theorem confined_iff {b : List UInt8} (hlen : 4 ≤ b.length) (hle : lengthField b ≤ b.length) :
    Confined b ↔ Settled b := by
  constructor
  · intro h
    by_contra hopen
    have htype : b.take (min (lengthField b) 2) <+: htobe16 Openflow.OFPMT_OXM.toNat := by
      by_contra htype
      exact hopen (.inl htype)
    have hsame : ∀ s, (new Openflow13.OFP_VERSION).unpackOf13 (follow b s) =
        (new Openflow13.OFP_VERSION).unpackOf13 b := fun s =>
      h.1 _ _ (length_follow hlen hle s).1 (lengthField_follow hlen s) (length_follow hlen hle s).2
        (take_follow hlen hle htype s)
    obtain ⟨s₁, s₂, hne⟩ := exists_follow hopen hlen (new Openflow13.OFP_VERSION)
    exact hne ((hsame s₁).trans (hsame s₂).symm)
  · intro h
    obtain ⟨e, he⟩ := unpackOf13_settled h
    constructor
    · intro m b' h4 hfield hwithin htake
      rw [he m b' h4 htake, he m b hlen rfl]
    · intro m m' hm
      rw [he m b hlen rfl] at hm
      cases hm

/-- A value and a mask of five octets in all. -/
def oddMask : List UInt8 := [0, 1, 0, 17, 0xff, 0xff, 1, 9, 0, 0, 0, 1, 1, 2, 3, 4, 5]

theorem confined_iff_oddMask : Confined oddMask :=
  (confined_iff (by decide) (by decide)).mpr (.inr ⟨.oxmBadLen, .here (by decide) (by decide) fun h => by cases h⟩)

/-- A match without OXMs, and another field of the message behind it. -/
theorem follow_read : ¬∀ b : List UInt8, 4 ≤ b.length → lengthField b ≤ b.length → Confined b := by
  intro h
  have hsame := (h [0, 1, 0, 4] (by decide) (by decide)).1 (new Openflow13.OFP_VERSION)
    [0, 1, 0, 4, 0x80, 0, 0, 4, 0, 0, 0, 1] (by decide) (by decide) (by decide) (by decide)
  revert hsame
  decide +kernel

end Cofmatch
end RoflCommon
