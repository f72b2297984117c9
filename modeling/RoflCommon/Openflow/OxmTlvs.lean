/-
The TLVs of a match one by one: which of them `unpack` rejects, which it takes
into the map and under which key, and which it skips.

A TLV is skipped where the switches have no case for it (`KnownKey`), and it is
rejected where there are too few octets, or where its length cannot be that of an
experimenter OXM (`rejection`). `readOxm_ok` is what all others do to the map.
-/
import RoflCommon.Openflow.Cofmatch

namespace RoflCommon

open Octets

namespace OxmId

theorem exists_cons {buf : List UInt8} (h : 4 ≤ buf.length) : ∃ a b c d rest, buf = a :: b :: c :: d :: rest := by
  match buf, h with
  | a :: b :: c :: d :: rest, _ => exact ⟨a, b, c, d, rest, rfl⟩

/-- Only the first four octets count. -/
theorem ofOctets_take {buf : List UInt8} (h : 4 ≤ buf.length) {n : ℕ} (hn : 4 ≤ n) :
    ofOctets (buf.take n) = ofOctets buf := by
  obtain ⟨a, b, c, d, rest, rfl⟩ := exists_cons h
  obtain ⟨k, rfl⟩ : ∃ k, n = k + 4 := ⟨n - 4, by omega⟩
  rfl

theorem ofOctets_extend {buf : List UInt8} (h : 4 ≤ buf.length) (rest : List UInt8) :
    ofOctets (buf ++ rest) = ofOctets buf := by
  obtain ⟨a, b, c, d, tail, rfl⟩ := exists_cons h
  rfl

theorem toOctets_ofOctets {buf : List UInt8} (h : 4 ≤ buf.length) : (ofOctets buf).toOctets = buf.take 4 := by
  obtain ⟨a, b, c, d, rest, rfl⟩ := exists_cons h
  have ha := a.toNat_lt
  have hb := b.toNat_lt
  have hc := c.toNat_lt
  have hbit : (c.toNat % 2 == 1).toNat = c.toNat % 2 := by
    rcases Nat.mod_two_eq_zero_or_one c.toNat with h | h <;> simp [h]
  have hhigh : UInt8.ofNat ((a.toNat * 256 + b.toNat) / 256) = a := by
    apply UInt8.toNat_inj.mp
    rw [UInt8.toNat_ofNat']
    omega
  have hlow : UInt8.ofNat (a.toNat * 256 + b.toNat) = b := by
    apply UInt8.toNat_inj.mp
    rw [UInt8.toNat_ofNat']
    omega
  have hfield : UInt8.ofNat (c.toNat / 2 * 2 + c.toNat % 2) = c := by
    apply UInt8.toNat_inj.mp
    rw [UInt8.toNat_ofNat']
    omega
  have hclass : (UInt16.ofNat (a.toNat * 256 + b.toNat)).toNat = a.toNat * 256 + b.toNat := by
    rw [UInt16.toNat_ofNat']
    omega
  simp only [toOctets, ofOctets, be16toh, htobe16, hbit, hfield, hclass, hhigh, hlow]
  rfl

end OxmId

namespace Coxmatch

theorem oxmId_of_unpack {x y : Coxmatch} {buf : List UInt8} (h : x.unpack buf = .ok y) :
    y.oxmId = OxmId.ofOctets buf := by
  obtain ⟨id, body⟩ := x
  cases body with
  | fixed w value mask =>
    obtain ⟨value', mask', rfl⟩ := unpack_fixed h
    rfl
  | exp expId value mask =>
    obtain ⟨value', mask', rfl⟩ := unpack_exp h
    rfl

/-- Octets that were read into a number of that many. -/
theorem octets_store {w : OxmWidth} {bs : List UInt8} (h : bs.length = w.octets) :
    octets w.octets (w.store (number bs)) = bs := by
  have hlt := number_lt bs
  rw [h] at hlt
  rw [OxmWidth.val_store hlt, ← h, octets_number]

theorem octets_expId {bs : List UInt8} (h : bs.length = 4) : octets 4 (UInt32.ofNat (number bs)).toNat = bs := by
  have hlt := number_lt bs
  rw [h] at hlt
  have hval : (UInt32.ofNat (number bs)).toNat = number bs := Nat.mod_eq_of_lt hlt
  rw [hval, ← h, octets_number]

/-- What was read is written again, octet by octet. -/
theorem image_of_unpack {x y : Coxmatch} {buf : List UInt8} (h : x.unpack buf = .ok y) :
    y.image = buf.take y.image.length := by
  have htake : ∀ n, y.image = buf.take n → y.image = buf.take y.image.length := fun n hn => by
    rw [hn, List.length_take, List.take_eq_take_iff]
    omega
  obtain ⟨id, body⟩ := x
  cases body with
  | fixed w value mask =>
    simp only [unpack] at h
    split_ifs at h with hshort hlen hmask
    · cases h
      rw [hmask, OxmWidth.length, if_pos rfl] at hlen
      have hvalue : ((buf.drop 4).take w.octets).length = w.octets := by
        rw [List.length_take, List.length_drop]
        omega
      have hmask' : ((buf.drop (4 + w.octets)).take w.octets).length = w.octets := by
        rw [List.length_take, List.length_drop]
        omega
      refine htake (4 + w.octets + w.octets) ?_
      simp only [image, hasmask, hmask, if_true, OxmId.toOctets_ofOctets (Nat.le_of_not_lt hshort), octets_store hvalue,
        octets_store hmask', List.take_add]
    · cases h
      rw [Bool.not_eq_true] at hmask
      rw [hmask, OxmWidth.length, if_neg (by simp)] at hlen
      have hvalue : ((buf.drop 4).take w.octets).length = w.octets := by
        rw [List.length_take, List.length_drop]
        omega
      refine htake (4 + w.octets) ?_
      simp only [image, hasmask, hmask, Bool.false_eq_true, if_false, OxmId.toOctets_ofOctets (Nat.le_of_not_lt hshort),
        octets_store hvalue, List.take_add, List.append_nil]
  | exp expId value mask =>
    simp only [unpack] at h
    split_ifs at h with hshort hheader hlen hmask hodd
    all_goals
      have hexp : ((buf.drop 4).take 4).length = 4 := by
        rw [List.length_take, List.length_drop]
        omega
    · obtain ⟨value', hvalue, h⟩ := Except.bind_eq_ok.mp h
      obtain ⟨hn, rfl⟩ := assign_eq_ok.mp hvalue
      cases h
      refine htake (4 + 4 + ((OxmId.ofOctets buf).oxmLength.toNat + 18446744073709551612) % 18446744073709551616) ?_
      rw [Bool.not_eq_true'] at hmask
      simp only [image, hasmask, hmask, Bool.false_eq_true, if_false, OxmId.toOctets_ofOctets (Nat.le_of_not_lt hshort),
        octets_expId hexp, List.take_add, List.append_nil]
    · obtain ⟨value', hvalue, h⟩ := Except.bind_eq_ok.mp h
      obtain ⟨mask', hmask', h⟩ := Except.bind_eq_ok.mp h
      obtain ⟨hn, rfl⟩ := assign_eq_ok.mp hvalue
      obtain ⟨-, rfl⟩ := assign_eq_ok.mp hmask'
      cases h
      refine htake (4 + 4 + ((OxmId.ofOctets buf).oxmLength.toNat + 18446744073709551612) % 18446744073709551616 / 2 +
        ((OxmId.ofOctets buf).oxmLength.toNat + 18446744073709551612) % 18446744073709551616 / 2) ?_
      have hmask'' : (OxmId.ofOctets buf).hasmask = true := by simpa using hmask
      simp only [image, hasmask, hmask'', if_true, OxmId.toOctets_ofOctets (Nat.le_of_not_lt hshort),
        octets_expId hexp, List.take_add]

/-! ### When `unpack` throws -/

variable {id : OxmId} {buf : List UInt8}

theorem unpack_fixed_short {w : OxmWidth} {value mask : Fin w.capacity}
    (h : buf.length < 4 + w.length (OxmId.ofOctets buf).hasmask) :
    unpack ⟨id, .fixed w value mask⟩ buf = .error .oxmBadLen := by
  simp only [unpack]
  split
  · rfl
  · rfl

theorem exists_unpack_fixed {w : OxmWidth} {value mask : Fin w.capacity}
    (h : 4 + w.length (OxmId.ofOctets buf).hasmask ≤ buf.length) :
    ∃ y, unpack ⟨id, .fixed w value mask⟩ buf = .ok y := by
  simp only [unpack]
  rw [if_neg (by omega), if_neg (by omega)]
  exact ⟨_, rfl⟩

variable {expId : UInt32} {value mask : List UInt8}

theorem unpack_exp_short (h : buf.length < 8 ∨ buf.length < 4 + (OxmId.ofOctets buf).oxmLength.toNat) :
    unpack ⟨id, .exp expId value mask⟩ buf = .error .oxmBadLen := by
  simp only [unpack]
  by_cases hid : buf.length < 4
  · rw [if_pos hid]
  · rw [if_neg hid]
    by_cases hheader : buf.length < 8
    · rw [if_pos hheader]
    · rw [if_neg hheader, if_pos (h.resolve_left hheader)]

/-- Value and mask cannot be of one size. -/
theorem unpack_exp_odd (h : 8 ≤ buf.length) (hlen : 4 + (OxmId.ofOctets buf).oxmLength.toNat ≤ buf.length)
    (hmask : (OxmId.ofOctets buf).hasmask = true) (hodd : (OxmId.ofOctets buf).oxmLength.toNat % 2 = 1) :
    unpack ⟨id, .exp expId value mask⟩ buf = .error .oxmBadLen := by
  simp only [unpack]
  rw [if_neg (by omega), if_neg (by omega), if_neg (by omega), if_neg (by simp [hmask]), if_pos (by omega)]
  rfl

/-- A length that does not count the experimenter: the memory cannot be had. -/
theorem unpack_exp_wrapped (h : 8 ≤ buf.length) (hwrap : (OxmId.ofOctets buf).oxmLength.toNat < 4)
    (heven : (OxmId.ofOctets buf).hasmask = true → (OxmId.ofOctets buf).oxmLength.toNat % 2 = 0) :
    unpack ⟨id, .exp expId value mask⟩ buf = .error .sysCall := by
  simp only [unpack]
  rw [if_neg (by omega), if_neg (by omega), if_neg (by omega)]
  cases hmask : (OxmId.ofOctets buf).hasmask with
  | false =>
    rw [if_pos (by decide), Cmemory.assign, if_neg (by omega)]
    rfl
  | true =>
    have hrest := heven hmask
    rw [if_neg (by simp), if_neg (by omega), Cmemory.assign, if_neg (by omega)]
    rfl

theorem exists_unpack_exp (h : 8 ≤ buf.length) (hlen : 4 + (OxmId.ofOctets buf).oxmLength.toNat ≤ buf.length)
    (hcount : 4 ≤ (OxmId.ofOctets buf).oxmLength.toNat)
    (heven : (OxmId.ofOctets buf).hasmask = true → (OxmId.ofOctets buf).oxmLength.toNat % 2 = 0) :
    ∃ y, unpack ⟨id, .exp expId value mask⟩ buf = .ok y := by
  have hlt := (OxmId.ofOctets buf).oxmLength.toNat_lt
  simp only [unpack]
  rw [if_neg (by omega), if_neg (by omega), if_neg (by omega)]
  cases hmask : (OxmId.ofOctets buf).hasmask with
  | false =>
    rw [if_pos (by decide), Cmemory.assign, if_pos (by omega)]
    exact ⟨_, rfl⟩
  | true =>
    have hrest := heven hmask
    rw [if_neg (by simp), if_neg (by omega), Cmemory.assign, if_pos (by omega), Cmemory.assign, if_pos (by omega)]
    exact ⟨_, rfl⟩

end Coxmatch

namespace Coxmatches

/-! ## A TLV -/

/-- The experimenter, behind the id. -/
def expIdOf (l : List UInt8) : UInt32 := UInt32.ofNat (number ((l.drop 4).take 4))

/-- The field: the class and the number in it, and the experimenter if it is one of his. -/
def tlvKey (l : List UInt8) : ℕ :=
  let id := OxmId.ofOctets l
  if id.oxmClass = Openflow.OFPXMC_EXPERIMENTER then expKey (expIdOf l) id else id.type

/-- The switches have a case for the field. -/
def KnownKey (k : ℕ) : Prop :=
  (OfbField.ofKey k).isSome = true ∨ k / 65536 % 65536 = Openflow.OFPXMC_EXPERIMENTER.toNat

/-- What a TLV that is read is rejected with. -/
def rejection (l : List UInt8) : Option MatchException :=
  let id := OxmId.ofOctets l
  if id.oxmClass = Openflow.OFPXMC_EXPERIMENTER then
    if l.length < 8 ∨ l.length < 4 + id.oxmLength.toNat then some .oxmBadLen
    else if id.hasmask = true ∧ id.oxmLength.toNat % 2 = 1 then some .oxmBadLen
    else if id.oxmLength.toNat < 4 then some .sysCall
    else none
  else
    match OfbField.ofKey id.type with
    | some f => if l.length < 4 + f.width.length id.hasmask then some .oxmBadLen else none
    | none => none

theorem code_class (f : OfbField) : f.key / 65536 = Openflow.OFPXMC_OPENFLOW_BASIC.toNat := by cases f <;> decide +kernel

/-- The standard fields are of one class. -/
theorem class_of_ofKey {id : OxmId} {f : OfbField} (h : OfbField.ofKey id.type = some f) :
    id.oxmClass = Openflow.OFPXMC_OPENFLOW_BASIC := by
  have hkey := OfbField.key_of_ofKey h
  have hclass := code_class f
  have hfield := id.oxmField.isLt
  rw [hkey] at hclass
  unfold OxmId.type at hclass
  apply UInt16.toNat_inj.mp
  omega

theorem added_of_knownKey {l : List UInt8} (h : KnownKey (tlvKey l)) :
    ∃ o, added (OxmId.ofOctets l) (expIdOf l) = some (tlvKey l, o) := by
  unfold tlvKey at h ⊢
  by_cases hexp : (OxmId.ofOctets l).oxmClass = Openflow.OFPXMC_EXPERIMENTER
  · simp only [hexp, if_true] at h ⊢
    rw [added, hexp, if_neg basic_ne_experimenter.symm, if_pos rfl]
    cases hkey : OfxField.ofKey (expKey (expIdOf l) (OxmId.ofOctets l)) with
    | none => exact ⟨_, rfl⟩
    | some f => exact ⟨_, by rw [← OfxField.key_of_ofKey hkey]⟩
  · simp only [hexp, if_false] at h ⊢
    have hclass := (OxmId.ofOctets l).oxmClass.toNat_lt
    have hfield := (OxmId.ofOctets l).oxmField.isLt
    rcases h with h | h
    · obtain ⟨f, hf⟩ := Option.isSome_iff_exists.mp h
      rw [added, if_pos (class_of_ofKey hf), hf]
      exact ⟨_, by rw [← OfbField.key_of_ofKey hf]; rfl⟩
    · refine absurd (UInt16.toNat_inj.mp ?_) hexp
      unfold OxmId.type at h
      omega

theorem added_of_not_knownKey {l : List UInt8} (h : ¬KnownKey (tlvKey l)) :
    added (OxmId.ofOctets l) (expIdOf l) = none := by
  unfold tlvKey at h
  by_cases hexp : (OxmId.ofOctets l).oxmClass = Openflow.OFPXMC_EXPERIMENTER
  · simp only [hexp, if_true] at h
    refine absurd (Or.inr ?_) h
    rw [(expKey_parts (expIdOf l) (OxmId.ofOctets l)).1, hexp]
  · simp only [hexp, if_false] at h
    have hnone : OfbField.ofKey (OxmId.ofOctets l).type = none := by
      by_contra hsome
      exact h (Or.inl (Option.isSome_iff_ne_none.mpr hsome))
    simp [added, hexp, hnone]

/-- The object `o` is what a TLV with a known field is read into. -/
def ReadsAs (l : List UInt8) (o : Coxmatch) : Prop :=
  ∃ o₀, added (OxmId.ofOctets l) (expIdOf l) = some (tlvKey l, o₀) ∧ o₀.unpack l = .ok o

theorem readOxm_eq {l : List UInt8} (h : (OxmId.ofOctets l).oxmClass = Openflow.OFPXMC_EXPERIMENTER → 8 ≤ l.length)
    (x : Coxmatches) : readOxm x l = match added (OxmId.ofOctets l) (expIdOf l) with
      | none => .ok x
      | some (k, o) => do return x.insert k (← o.unpack l) := by
  have hshort : ¬((OxmId.ofOctets l).oxmClass = Openflow.OFPXMC_EXPERIMENTER ∧ l.length < 8) := fun hs => by
    have hle := h hs.1
    omega
  simp only [readOxm, if_neg hshort]
  rfl

theorem added_exp {l : List UInt8} (h : (OxmId.ofOctets l).oxmClass = Openflow.OFPXMC_EXPERIMENTER) :
    ∃ id expId value mask, added (OxmId.ofOctets l) (expIdOf l) = some (tlvKey l, ⟨id, .exp expId value mask⟩) := by
  rw [tlvKey, if_pos h, added, if_neg (by rw [h]; exact basic_ne_experimenter.symm), if_pos h]
  cases hkey : OfxField.ofKey (expKey (expIdOf l) (OxmId.ofOctets l)) with
  | none => exact ⟨_, _, _, _, rfl⟩
  | some f =>
    obtain ⟨id, value, mask, hnew⟩ := f.new_eq 0 0
    exact ⟨id, ROFL_EXP_ID, value, mask, by rw [← OfxField.key_of_ofKey hkey, ← hnew]⟩

theorem added_ofb {l : List UInt8} {f : OfbField} (h : OfbField.ofKey (OxmId.ofOctets l).type = some f) :
    added (OxmId.ofOctets l) (expIdOf l) = some (tlvKey l, f.new 0) := by
  have hclass := class_of_ofKey h
  rw [tlvKey, if_neg (by rw [hclass]; exact basic_ne_experimenter), added, if_pos hclass, h,
    ← OfbField.key_of_ofKey h]
  rfl

theorem readOxm_rejected {l : List UInt8} {e : MatchException} (h : rejection l = some e) (x : Coxmatches) :
    readOxm x l = .error e := by
  simp only [rejection] at h
  by_cases hexp : (OxmId.ofOctets l).oxmClass = Openflow.OFPXMC_EXPERIMENTER
  · rw [if_pos hexp] at h
    obtain ⟨id, expId, value, mask, hadded⟩ := added_exp hexp
    by_cases hheader : l.length < 8
    · rw [if_pos (Or.inl hheader)] at h
      cases h
      simp only [readOxm, if_pos (And.intro hexp hheader)]
    · have hread := readOxm_eq (l := l) (fun _ => by omega) x
      rw [hadded] at hread
      split_ifs at h with hshort hodd hwrap
      · cases h
        rw [hread]
        simp only [Coxmatch.unpack_exp_short hshort]
        rfl
      · cases h
        rw [hread]
        simp only [Coxmatch.unpack_exp_odd (by omega) (by omega) hodd.1 hodd.2]
        rfl
      · cases h
        rw [hread]
        simp only [Coxmatch.unpack_exp_wrapped (by omega) hwrap fun hm => by
          have hne := mt (And.intro hm) hodd
          omega]
        rfl
  · rw [if_neg hexp] at h
    have hread := readOxm_eq (l := l) (fun hc => absurd hc hexp) x
    cases hkey : OfbField.ofKey (OxmId.ofOctets l).type with
    | none => simp [hkey] at h
    | some f =>
      simp only [hkey] at h
      split_ifs at h with hshort
      cases h
      rw [hread, added_ofb hkey]
      simp only [OfbField.new, Coxmatch.unpack_fixed_short hshort]
      rfl

/-- A known field is read. -/
theorem exists_readsAs {l : List UInt8} (h : rejection l = none) (hknown : KnownKey (tlvKey l)) :
    ∃ o, ReadsAs l o := by
  simp only [rejection] at h
  by_cases hexp : (OxmId.ofOctets l).oxmClass = Openflow.OFPXMC_EXPERIMENTER
  · rw [if_pos hexp] at h
    obtain ⟨id, expId, value, mask, hadded⟩ := added_exp hexp
    split_ifs at h with hshort hodd hwrap
    obtain ⟨o, ho⟩ := @Coxmatch.exists_unpack_exp id l expId value mask (by omega) (by omega) (by omega) fun hm => by
      have hne := mt (And.intro hm) hodd
      omega
    exact ⟨o, _, hadded, ho⟩
  · rw [if_neg hexp] at h
    cases hkey : OfbField.ofKey (OxmId.ofOctets l).type with
    | none =>
      obtain ⟨o, ho⟩ := added_of_knownKey hknown
      simp [added, hkey, hexp] at ho
    | some f =>
      simp only [hkey] at h
      split_ifs at h with hshort
      obtain ⟨o, ho⟩ := @Coxmatch.exists_unpack_fixed f.oxmId l f.width (f.width.arg 0) f.width.ones (by omega)
      exact ⟨o, _, added_ofb hkey, ho⟩

theorem ReadsAs.readOxm_eq {l : List UInt8} {o : Coxmatch} (h : ReadsAs l o) (hr : rejection l = none)
    (x : Coxmatches) : readOxm x l = .ok (x.insert (tlvKey l) o) := by
  obtain ⟨o₀, hadded, ho⟩ := h
  have hheader : (OxmId.ofOctets l).oxmClass = Openflow.OFPXMC_EXPERIMENTER → 8 ≤ l.length := fun hexp => by
    simp only [rejection, if_pos hexp] at hr
    split_ifs at hr with hshort
    omega
  rw [Coxmatches.readOxm_eq hheader, hadded]
  simp only [ho]
  rfl

theorem readOxm_unknown {l : List UInt8} (h : ¬KnownKey (tlvKey l)) (x : Coxmatches) : readOxm x l = .ok x := by
  have hexp : (OxmId.ofOctets l).oxmClass ≠ Openflow.OFPXMC_EXPERIMENTER := fun hexp => by
    obtain ⟨id, expId, value, mask, hadded⟩ := added_exp hexp
    rw [added_of_not_knownKey h] at hadded
    cases hadded
  rw [readOxm_eq (fun hc => absurd hc hexp), added_of_not_knownKey h]

theorem rejection_unknown {l : List UInt8} (h : ¬KnownKey (tlvKey l)) : rejection l = none := by
  cases hr : rejection l with
  | none => rfl
  | some e =>
    have hok := readOxm_unknown h .empty
    rw [readOxm_rejected hr] at hok
    cases hok

/-- A TLV that is not rejected. -/
theorem readOxm_ok {l : List UInt8} (h : rejection l = none) (x : Coxmatches) :
    ∃ x', readOxm x l = .ok x' ∧ (∀ k, tlvKey l ≠ k ∨ ¬KnownKey k → x'.find? k = x.find? k) ∧
      (KnownKey (tlvKey l) → ∃ o, ReadsAs l o ∧ x'.find? (tlvKey l) = some o) := by
  by_cases hknown : KnownKey (tlvKey l)
  · obtain ⟨o, ho⟩ := exists_readsAs h hknown
    refine ⟨_, ho.readOxm_eq h x, fun k hk => ?_, fun _ => ⟨o, ho, by rw [Omap.find?_insert, if_pos rfl]⟩⟩
    rw [Omap.find?_insert, if_neg]
    rintro rfl
    exact hk.elim (fun hne => hne rfl) fun hne => hne hknown
  · exact ⟨x, readOxm_unknown hknown x, fun k hk => rfl, fun hk => absurd hk hknown⟩

end Coxmatches
end RoflCommon
