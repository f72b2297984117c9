/-
`cofmatch` of OpenFlow 1.2 and 1.3: a type, a length, the OXMs, and zeros up to
a multiple of eight octets.

`unpack_of13` does not look at the length: it reads OXMs up to the end of the
buffer. The zeros are TLVs of class 0 to it, and those it skips. What is read
back is what was packed exactly when every OXM can be read (`roundTrips_iff`).
-/
import RoflCommon.Openflow.Coxmatches

namespace RoflCommon

open Octets

def Openflow.OFPMT_OXM : UInt16 := 1

/-- `matches` is `oxms` here. -/
structure Cofmatch where
  ofVersion : UInt8
  oxms : Coxmatches
  type : UInt16
deriving DecidableEq

namespace Cofmatch

/-- The constructor. -/
def new (ofVersion : UInt8) : Cofmatch := ⟨ofVersion, .empty, Openflow.OFPMT_OXM⟩

/-- `length()`, in the versions 1.2 and 1.3. -/
def lengthOf13 (m : Cofmatch) : Except MatchException ℕ := do
  let n ← m.oxms.length
  let pad := (4 + n) % 8
  return if pad ≠ 0 then 4 + n + (8 - pad) else 4 + n

/-- The match with the lengths of its OXMs set, and the buffer. -/
def packOf13 (m : Cofmatch) (buf : List UInt8) : Except MatchException (Cofmatch × List UInt8) := do
  let total ← m.lengthOf13
  if buf.length < total then throw .invalid
  else
    let n ← m.oxms.length
    let (oxms', fields) ← m.oxms.pack ((buf.drop 4).take n)
    return ({ m with oxms := oxms' }, htobe16 m.type.toNat ++ htobe16 (4 + n) ++ fields ++ buf.drop (4 + n))

def unpackOf13 (m : Cofmatch) (buf : List UInt8) : Except MatchException Cofmatch :=
  if buf.length < 4 then .error .badMatchBadLen
  else
    let type := UInt16.ofNat (number (buf.take 2))
    if type ≠ Openflow.OFPMT_OXM then .error .badMatchBadType
    else if buf.length - 4 > 0 then do return { m with oxms := ← Coxmatches.unpack (buf.drop 4), type := type }
    else .ok { m with oxms := .empty, type := type }

/-- Packed into a buffer of zeros that is as long as the match, the match is read back
by a new one. -/
def RoundTrips (m : Cofmatch) : Prop :=
  ∃ n m' buf, m.lengthOf13 = .ok n ∧ m.packOf13 (.replicate n 0) = .ok (m', buf) ∧
    (new m.ofVersion).unpackOf13 buf = .ok m'

end Cofmatch

namespace Coxmatches

/-- An OXM that can be read back: value and mask fit into their octets, and without a
mask the field is not one of 48 bits; and the length of an experimenter OXM counts what
is in it, and `nw_src` and `nw_dst` have a mask. -/
def Kept (e : ℕ × Coxmatch) : Prop :=
  match e.2.body with
  | .fixed w value mask =>
    (value : ℕ) < 256 ^ w.octets ∧ if e.2.hasmask then (mask : ℕ) < 256 ^ w.octets else w ≠ .u48
  | .exp _ value mask =>
    4 + value.length + mask.length = e.2.oxmId.oxmLength.toNat ∧
      (e.2.hasmask = true ∨ e.1 ≠ OfxField.nwSrc.key ∧ e.1 ≠ OfxField.nwDst.key)

instance (e : ℕ × Coxmatch) : Decidable (Kept e) := by
  unfold Kept
  cases e.2.body <;> infer_instance

/-! ## An OXM by itself -/

theorem unmasked_ones {w : OxmWidth} (h : w ≠ .u48) : w.unmasked w.ones = w.ones := by
  cases w <;> first | rfl | exact absurd rfl h

theorem decoded_fixed {id id' : OxmId} {w : OxmWidth} {value value' mask' : Fin w.capacity}
    (hmask' : id'.hasmask = false → mask' = w.ones) :
    Coxmatch.Decoded ⟨id, .fixed w value w.ones⟩ ⟨id', .fixed w value' mask'⟩ ↔
      (value' : ℕ) < 256 ^ w.octets ∧ if id'.hasmask then (mask' : ℕ) < 256 ^ w.octets else w ≠ .u48 := by
  constructor
  · intro h
    cases h with
    | masked hmask hv hm => exact ⟨hv, by rwa [if_pos hmask]⟩
    | plain hmask hv =>
      refine ⟨hv, ?_⟩
      rw [if_neg (by simp [hmask])]
      rintro rfl
      exact absurd (hmask' hmask) (by decide)
  · rintro ⟨hv, hm⟩
    cases hmask : id'.hasmask with
    | false =>
      rw [hmask, if_neg (by simp)] at hm
      have hplain : Coxmatch.Decoded ⟨id, .fixed w value w.ones⟩ ⟨id', .fixed w value' (w.unmasked w.ones)⟩ :=
        .plain hmask hv
      rw [hmask' hmask]
      rwa [unmasked_ones hm] at hplain
    | true =>
      rw [hmask, if_pos rfl] at hm
      exact .masked hmask hv hm

theorem decoded_exp {id id' : OxmId} {expId expId' : UInt32} {value mask value' mask' : List UInt8} {n : ℕ}
    (hmask' : id'.hasmask = false → mask' = []) (hlen : Coxmatch.length ⟨id', .exp expId' value' mask'⟩ = .ok n) :
    Coxmatch.Decoded ⟨id, .exp expId value mask⟩ ⟨id', .exp expId' value' mask'⟩ ↔
      4 + value'.length + mask'.length = id'.oxmLength.toNat ∧ (id'.hasmask = true ∨ mask = []) := by
  constructor
  · intro h
    cases h with
    | expMasked hmask hsame hlength => exact ⟨hlength, .inl hmask⟩
    | expPlain hmask hlength =>
      have hnil := hmask' hmask
      refine ⟨by simpa [hnil] using hlength, .inr ?_⟩
      simpa [Cmemory.clear] using hnil
  · rintro ⟨hlength, hm⟩
    cases hmask : id'.hasmask with
    | false =>
      have hnil := hmask' hmask
      have hold : mask = [] := hm.resolve_left (by simp [hmask])
      subst hnil hold
      exact .expPlain hmask (by simpa using hlength)
    | true =>
      exact .expMasked hmask ((Coxmatch.length_exp.mp hlen).1 hmask) hlength

/-- Only `nw_src` and `nw_dst` are added with a mask. -/
theorem mask_new (f : OfxField) : ∃ id value mask, f.new 0 0 = ⟨id, .exp ROFL_EXP_ID value mask⟩ ∧
    (mask = [] ↔ f.key ≠ OfxField.nwSrc.key ∧ f.key ≠ OfxField.nwDst.key) := by
  cases f <;> exact ⟨_, _, _, rfl, by decide +kernel⟩

theorem FromWire.ofb_inv {f : OfbField} {id : OxmId} {value mask : Fin f.width.capacity} {k : ℕ} (hk : k = f.key)
    (h : FromWire (k, ⟨id, .fixed f.width value mask⟩)) : (f.new 0).Decoded ⟨id, .fixed f.width value mask⟩ := by
  generalize ho : (⟨id, .fixed f.width value mask⟩ : Coxmatch) = o at h
  cases h with
  | ofb g hclass htype h => exact OfbField.key_inj hk ▸ h
  | ofx g hclass hkey h => cases ho
  | exp hclass hkey h => cases ho

theorem FromWire.ofx_inv {f : OfxField} {id : OxmId} {expId : UInt32} {value mask : List UInt8} {k : ℕ}
    (hk : k = f.key) (h : FromWire (k, ⟨id, .exp expId value mask⟩)) :
    (f.new 0 0).Decoded ⟨id, .exp expId value mask⟩ := by
  cases h with
  | ofx g hclass hkey h => exact OfxField.key_inj hk ▸ h
  | exp hclass hkey h =>
    rw [hk, OfxField.ofKey_key] at hkey
    cases hkey

/-- The length of an experimenter OXM that can be read back counts what is in it. -/
theorem FromWire.exp_length {id : OxmId} {expId : UInt32} {value mask : List UInt8} {k : ℕ}
    (h : FromWire (k, ⟨id, .exp expId value mask⟩)) (hmask : id.hasmask = false → mask = []) :
    4 + value.length + mask.length = id.oxmLength.toNat := by
  have hdecoded : ∀ {x : Coxmatch}, x.Decoded ⟨id, .exp expId value mask⟩ →
      4 + value.length + mask.length = id.oxmLength.toNat := fun hd => by
    cases hd with
    | expMasked hm hsame hlength => exact hlength
    | expPlain hm hlength =>
      rw [hmask hm]
      exact hlength
  cases h with
  | ofx f hclass hkey h => exact hdecoded h
  | exp hclass hkey h => exact hdecoded h

/-- What the API builds can be read back as the condition says. -/
theorem fromWire_iff_kept {e : ℕ × Coxmatch} (he : Entry e) {n : ℕ} (hlen : e.2.length = .ok n) :
    FromWire (e.1, e.2.packed) ↔ Kept e := by
  cases he with
  | @ofb f id value mask hclass hfield hmask =>
    have htype : ∀ l, OxmId.type { id with oxmLength := l } = f.key := fun l => by
      apply OxmId.type_inj.mpr
      exact ⟨hclass, hfield⟩
    have hdecoded := @decoded_fixed f.oxmId (Coxmatch.adjustOxmLength ⟨id, .fixed f.width value mask⟩).oxmId f.width
      (f.width.arg 0) value mask hmask
    rw [Kept]
    refine Iff.trans ⟨fun h => ?_, fun h => ?_⟩ hdecoded
    · exact h.ofb_inv rfl
    · exact .ofb f hclass (htype _) h
  | @ofx f id value mask hclass hfield hmask =>
    obtain ⟨id₀, value₀, mask₀, hnew, hnil⟩ := mask_new f
    have hdecoded := @decoded_exp id₀ id ROFL_EXP_ID ROFL_EXP_ID value₀ mask₀ value mask n hmask hlen
    rw [Kept, ← hnil]
    refine Iff.trans ⟨fun h => ?_, fun h => ?_⟩ hdecoded
    · rw [← hnew]
      exact h.ofx_inv rfl
    · rw [← hnew] at h
      refine .ofx f hclass ?_ h
      have htype : id.type = f.oxmId.type := OxmId.type_inj.mpr ⟨hclass, hfield⟩
      rw [OfxField.key, expKey, expKey, htype]

/-! ## The list -/

/-- An experimenter OXM has a mask only if it says so. -/
def MaskSet (o : Coxmatch) : Prop :=
  match o.body with
  | .fixed .. => True
  | .exp _ _ mask => o.hasmask = false → mask = []

theorem Entry.maskSet {e : ℕ × Coxmatch} (he : Entry e) : MaskSet e.2 := by
  cases he with
  | ofb f hclass hfield hmask => trivial
  | ofx f hclass hfield hmask => exact hmask

theorem image_packed {o : Coxmatch} (ho : MaskSet o) {n : ℕ} (hlen : o.length = .ok n) :
    o.packed.length = .ok n ∧ o.packed.image.length = n := by
  obtain ⟨id, body⟩ := o
  cases body with
  | fixed w value mask =>
    cases hlen
    refine ⟨rfl, ?_⟩
    simp only [Coxmatch.packed, Coxmatch.adjustOxmLength, Coxmatch.image, Coxmatch.hasmask, OxmWidth.length]
    rcases Bool.eq_false_or_eq_true id.hasmask with hm | hm
    · simp [hm]
      omega
    · simp [hm]
  | exp expId value mask =>
    obtain ⟨-, rfl⟩ := Coxmatch.length_exp.mp hlen
    refine ⟨hlen, ?_⟩
    simp only [Coxmatch.packed, Coxmatch.image, Coxmatch.hasmask]
    rcases Bool.eq_false_or_eq_true id.hasmask with hm | hm
    · simp [hm]
      omega
    · simp [hm, (ho : id.hasmask = false → mask = []) hm]
      omega

/-- What can be read back is as long as it says. -/
theorem size_packed {k : ℕ} {o : Coxmatch} (ho : MaskSet o) (hwire : FromWire (k, o.packed)) {n : ℕ}
    (hlen : o.length = .ok n) (rest : List UInt8) : walker.size (o.packed.image ++ rest) = n := by
  change 4 + (OxmId.ofOctets (o.packed.image ++ rest)).oxmLength.toNat = n
  rw [Coxmatch.ofOctets_image]
  obtain ⟨id, body⟩ := o
  cases body with
  | fixed w value mask =>
    cases hlen
    have hsmall : w.length id.hasmask < 256 := by
      cases w <;> cases id.hasmask <;> decide
    change 4 + (UInt8.ofNat (w.length id.hasmask)).toNat = 4 + w.length id.hasmask
    rw [UInt8.toNat_ofNat', Nat.mod_eq_of_lt hsmall]
  | exp expId value mask =>
    have hlength : 4 + value.length + mask.length = id.oxmLength.toNat :=
      (hwire.exp_length (ho : id.hasmask = false → mask = []))
    obtain ⟨-, rfl⟩ := Coxmatch.length_exp.mp hlen
    change 4 + id.oxmLength.toNat = _
    omega

theorem length_of_lengths {es : List (ℕ × Coxmatch)} {n : ℕ} (h : lengths es = .ok n) :
    ∀ e ∈ es, ∃ k, e.2.length = .ok k := by
  induction es generalizing n with
  | nil => exact fun e he => by cases he
  | cons d es ih =>
    obtain ⟨k, hk, h⟩ := Except.bind_eq_ok.mp h
    obtain ⟨l, hl, -⟩ := Except.bind_eq_ok.mp h
    intro e he
    rcases List.mem_cons.mp he with rfl | he
    · exact ⟨k, hk⟩
    · exact ih hl e he

theorem exists_lengths {es : List (ℕ × Coxmatch)} (h : ∀ e ∈ es, ∃ n, e.2.length = .ok n) : ∃ n, lengths es = .ok n := by
  induction es with
  | nil => exact ⟨0, rfl⟩
  | cons d es ih =>
    obtain ⟨k, hk⟩ := h d (by simp)
    obtain ⟨l, hl⟩ := ih fun e he => h e (by simp [he])
    refine ⟨k + l, ?_⟩
    rw [lengths, hk, hl]
    rfl

theorem packs_eq {es : List (ℕ × Coxmatch)} (hes : ∀ e ∈ es, MaskSet e.2) {n : ℕ} (hn : lengths es = .ok n)
    {buf : List UInt8} (hbuf : n ≤ buf.length) :
    packs es buf = .ok (es.flatMap (fun e => e.2.packed.image) ++ buf.drop n) ∧
      (es.flatMap fun e => e.2.packed.image).length = n := by
  induction es generalizing n buf with
  | nil =>
    cases hn
    exact ⟨rfl, rfl⟩
  | cons d es ih =>
    obtain ⟨k, hk, hn⟩ := Except.bind_eq_ok.mp hn
    obtain ⟨l, hl, hn⟩ := Except.bind_eq_ok.mp hn
    cases hn
    obtain ⟨hpacked, himage⟩ := image_packed (hes d (by simp)) hk
    have hdrop : l ≤ (buf.drop k).length := by
      rw [List.length_drop]
      omega
    have hrest := ih (fun e he => hes e (by simp [he])) hl hdrop
    have hpack : d.2.pack (buf.take k) = .ok (d.2.packed, d.2.packed.image) := by
      have hlen : (buf.take k).length = k := List.length_take_of_le (by omega)
      simp only [Coxmatch.pack, hpacked]
      simp [bind, Except.bind, pure, Except.pure, himage, hlen]
    constructor
    · refine Except.bind_eq_ok.mpr ⟨k, hk, Except.bind_eq_ok.mpr ⟨_, hpack, Except.bind_eq_ok.mpr ⟨_, hrest.1, ?_⟩⟩⟩
      rw [List.flatMap_cons, List.drop_drop, List.append_assoc]
      rfl
    · rw [List.flatMap_cons, List.length_append, himage, hrest.2]

theorem pack_eq {x : Coxmatches} (hx : ∀ e ∈ x.entries, MaskSet e.2) {n : ℕ} (hn : x.length = .ok n) {buf : List UInt8}
    (hbuf : n ≤ buf.length) :
    x.pack buf = .ok (x.map fun _ o => o.packed, x.entries.flatMap (fun e => e.2.packed.image) ++ buf.drop n) := by
  simp only [pack, hn]
  simp [bind, Except.bind, pure, Except.pure, (packs_eq hx hn hbuf).1, show ¬ buf.length < n by omega]

/-- The OXMs that can be read back are, with any number of zeros behind them. -/
theorem unpack_packed {x : Coxmatches} (hx : ∀ e ∈ x.entries, MaskSet e.2) {n : ℕ} (hn : x.length = .ok n)
    (hwire : ∀ e ∈ x.entries, FromWire (e.1, e.2.packed)) (k : ℕ) :
    unpack (x.entries.flatMap (fun e => e.2.packed.image) ++ .replicate k 0) = .ok (x.map fun _ o => o.packed) := by
  have hlen := length_of_lengths hn
  have hwalk := @Tlv.Walker.walk_encode _ _ _ walker (ℕ × Coxmatch) (fun e => e.2.packed.image)
    (fun s e => s.insert e.1 e.2.packed) x.entries ?header ?size ?read .empty (.replicate k 0)
  · rw [unpack, hwalk, Tlv.Walker.walk_replicate readOxm_zeros]
    exact congrArg _ (x.foldl_insert fun _ o => o.packed)
  case header =>
    intro e he
    obtain ⟨l, hl⟩ := hlen e he
    rw [(image_packed (hx e he) hl).2, ← size_packed (hx e he) (hwire e he) hl []]
    exact walker.header_le _
  case size =>
    intro e he rest
    obtain ⟨l, hl⟩ := hlen e he
    rw [(image_packed (hx e he) hl).2, size_packed (hx e he) (hwire e he) hl]
  case read =>
    intro e he s rest
    exact readOxm_image (hwire e he) s rest

theorem unpack_nil : unpack [] = .ok .empty := rfl

/-- Nothing but what the switches know is read. -/
theorem fromWire_of_unpack_eq {buf : List UInt8} {x : Coxmatches} (h : unpack buf = .ok x) :
    ∀ e ∈ x.entries, FromWire e :=
  @Tlv.Walker.walk_rule _ _ _ walker (fun x => ∀ e ∈ x.entries, FromWire e)
    (fun _ _ _ hx _ hread => fromWire_of_readOxm hx hread) _ _ _ (fun e he => by cases he) h

end Coxmatches

namespace Cofmatch

theorem length_of_lengthOf13 {m : Cofmatch} {n : ℕ} (h : m.lengthOf13 = .ok n) :
    ∃ l, m.oxms.length = .ok l ∧ 4 + l ≤ n := by
  obtain ⟨l, hl, h⟩ := Except.bind_eq_ok.mp h
  refine ⟨l, hl, ?_⟩
  simp only [pure, Except.pure, Except.ok.injEq] at h
  split at h <;> omega

/-- The buffer is zero where nothing is written. -/
theorem packOf13_zeros {m : Cofmatch} (hm : ∀ e ∈ m.oxms.entries, Coxmatches.MaskSet e.2) {n l : ℕ}
    (hn : m.lengthOf13 = .ok n) (hl : m.oxms.length = .ok l) (hle : 4 + l ≤ n) :
    m.packOf13 (.replicate n 0) = .ok ({ m with oxms := m.oxms.map fun _ o => o.packed },
      htobe16 m.type.toNat ++ htobe16 (4 + l) ++
        (m.oxms.entries.flatMap (fun e => e.2.packed.image) ++ .replicate (n - (4 + l)) 0)) := by
  have hbuf : l ≤ (((List.replicate n (0 : UInt8)).drop 4).take l).length := by
    simp
    omega
  have hrest : (((List.replicate n (0 : UInt8)).drop 4).take l).drop l = [] := List.drop_eq_nil_of_le (by simp)
  have hpack := Coxmatches.pack_eq hm hl hbuf
  rw [hrest, List.append_nil] at hpack
  refine Except.bind_eq_ok.mpr ⟨n, hn, ?_⟩
  rw [if_neg (by simp)]
  refine Except.bind_eq_ok.mpr ⟨l, hl, Except.bind_eq_ok.mpr ⟨_, hpack, ?_⟩⟩
  simp only [List.drop_replicate, List.append_assoc]
  rfl

theorem number_htobe16 (t : UInt16) : UInt16.ofNat (number (htobe16 t.toNat)) = t := by
  have hlt := t.toNat_lt
  apply UInt16.toNat_inj.mp
  simp only [htobe16, number, UInt8.toNat_ofNat', UInt16.toNat_ofNat', List.length_cons, List.length_nil]
  omega

/-- The length is not looked at. -/
theorem unpackOf13_eq (m : Cofmatch) (t : UInt16) (len : ℕ) (rest : List UInt8) :
    m.unpackOf13 (htobe16 t.toNat ++ htobe16 len ++ rest) =
      if t ≠ Openflow.OFPMT_OXM then .error .badMatchBadType
      else do return { m with oxms := ← Coxmatches.unpack rest, type := t } := by
  have htake : (htobe16 t.toNat ++ htobe16 len ++ rest).take 2 = htobe16 t.toNat := by
    rw [List.append_assoc]
    exact List.take_left' rfl
  have hdrop : (htobe16 t.toNat ++ htobe16 len ++ rest).drop 4 = rest := List.drop_left' rfl
  have hlength : (htobe16 t.toNat ++ htobe16 len ++ rest).length = 4 + rest.length := by
    rw [List.length_append]
    rfl
  rw [unpackOf13, if_neg (by omega)]
  simp only [htake, hdrop, number_htobe16, hlength]
  split
  · rfl
  · split
    · rfl
    · have hnil : rest = [] := List.length_eq_zero_iff.mp (by omega)
      rw [hnil, Coxmatches.unpack_nil]
      rfl

/-- A match that the API has built and that has a length is read back as it was packed if
and only if its type is `OFPMT_OXM` and each of its OXMs can be read back. -/
theorem roundTrips_iff {m : Cofmatch} (hbuilt : m.oxms.Built) {n : ℕ} (hlen : m.lengthOf13 = .ok n) :
    m.RoundTrips ↔ m.type = Openflow.OFPMT_OXM ∧ ∀ e ∈ m.oxms.entries, Coxmatches.Kept e := by
  have hentry := hbuilt.entry
  obtain ⟨l, hl, hle⟩ := length_of_lengthOf13 hlen
  have hmasks : ∀ e ∈ m.oxms.entries, Coxmatches.MaskSet e.2 := fun e he => (hentry e he).maskSet
  have hpack := packOf13_zeros hmasks hlen hl hle
  constructor
  · rintro ⟨n', m', buf, hlen', hpack', hunpack⟩
    cases hlen.symm.trans hlen'
    cases hpack.symm.trans hpack'
    rw [unpackOf13_eq] at hunpack
    split_ifs at hunpack with htype
    obtain ⟨oxms, hoxms, heq⟩ := Except.bind_eq_ok.mp hunpack
    cases heq
    refine ⟨by simpa using htype, fun e he => ?_⟩
    obtain ⟨k, hk⟩ := Coxmatches.length_of_lengths hl e he
    have hwire := Coxmatches.fromWire_of_unpack_eq hoxms (e.1, e.2.packed) (List.mem_map.mpr ⟨e, he, rfl⟩)
    exact (Coxmatches.fromWire_iff_kept (hentry e he) hk).mp hwire
  · rintro ⟨htype, hkept⟩
    refine ⟨n, _, _, hlen, hpack, ?_⟩
    have hwire : ∀ e ∈ m.oxms.entries, Coxmatches.FromWire (e.1, e.2.packed) := fun e he => by
      obtain ⟨k, hk⟩ := Coxmatches.length_of_lengths hl e he
      exact (Coxmatches.fromWire_iff_kept (hentry e he) hk).mpr (hkept e he)
    rw [unpackOf13_eq, if_neg (by simp [htype]), Coxmatches.unpack_packed hmasks hl hwire]
    rfl

/-- IPv4 to a network. -/
def network : Cofmatch :=
  ⟨Openflow13.OFP_VERSION, Coxmatches.run [.addOfb .ethType 0x800, .addOfbMask .ipv4Dst 0xc0a80000 0xffff0000], 1⟩

theorem roundTrips_iff_network : network.RoundTrips :=
  (roundTrips_iff ⟨_, rfl⟩ (by decide +kernel : network.lengthOf13 = .ok 24)).mpr ⟨rfl, by decide +kernel⟩

/-- A source address, without a mask. -/
def source : Cofmatch := ⟨Openflow13.OFP_VERSION, Coxmatches.run [.setOfxValue .nwSrc [10, 0, 0, 1]], 1⟩

/-- It is read back with a mask that is zero: it is into the object of `add_ofx_nw_src()`,
whose mask `unpack` clears and does not remove. -/
theorem source_widened : source.oxms.Built ∧ source.type = Openflow.OFPMT_OXM ∧
    (∃ n, source.lengthOf13 = .ok n ∧ n < 65536) ∧ ¬ source.RoundTrips := by
  have hlen : source.lengthOf13 = .ok 16 := by decide +kernel
  have hpack : source.packOf13 (.replicate 16 0) =
      .ok (source, [0, 1, 0, 16, 0xff, 0xff, 0, 8, 0xa1, 0xa2, 0xa3, 0xa4, 10, 0, 0, 1]) := by decide +kernel
  refine ⟨⟨_, rfl⟩, rfl, ⟨16, hlen, by decide⟩, ?_⟩
  rintro ⟨n, m', buf, hlen', hpack', hunpack⟩
  cases hlen.symm.trans hlen'
  cases hpack.symm.trans hpack'
  revert hunpack
  decide +kernel

end Cofmatch
end RoflCommon
